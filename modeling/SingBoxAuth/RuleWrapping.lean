import SingBoxAuth.RuleInlining
import SingBoxAuth.RuleBases

/-! Wrapping a rule of a rule-set into a logical rule of its own. Apart from the two options of the
`rule_set` item such a wrapper is transparent; but a logical rule resets the whole rule cache for
its children, and with it the flags that carry the options. -/
namespace SingBoxAuth.RouteRule
open PackedSet RuleMatchStateSet

variable {F A I J : Type} [RuleItem I F A] [RuleItem J F A]

/-- `t'` is `t` with one rule in it, at any depth, made the only child of a plain logical rule. -/
inductive Wraps (mode : LogicalMode) : HeadlessRule I J → HeadlessRule I J → Prop
  | here (t) : Wraps mode t (.logical [t] mode false)
  | inside (before after m invert) {t t'} : Wraps mode t t' →
      Wraps mode (.logical (before ++ t :: after) m invert)
        (.logical (before ++ t' :: after) m invert)

lemma wrapped_states (t : HeadlessRule I J) (mode : LogicalMode) (metadata : InboundContext F A)
    (base : RuleMatchState) :
    HeadlessRule.matchStatesWithBase (.logical [t] mode false) metadata base =
      HeadlessRule.matchStatesWithBase t metadata.resetRuleCache base := by
  rw [HeadlessRule.matchStatesWithBase,RuleTree.matchStatesWithBase_logical]
  simp only [Bool.false_eq_true,if_false]
  apply ext_contains_iff
  intro x
  cases mode with
  | or =>
    rw [RuleTree.contains_logicalStates_or]
    simp [HeadlessRule.matchStatesWithBase]
  | and =>
    rw [RuleTree.contains_logicalStates_and]
    simp only [RuleTree.joins_cons,RuleTree.joins_nil]
    -- the child's states already have the bits that the `and` joins to them
    have hj : ∀ s,contains (HeadlessRule.matchStatesWithBase t metadata.resetRuleCache base)
        s = true → base ||| s = s := by
      intro s hs
      apply state_ext
      intro g
      have hb := (HeadlessRule.keepsBase t metadata.resetRuleCache).preserved base s hs g
      rw [has_or]
      cases hg : has base g with
      | false => simp
      | true => simp [hb hg]
    constructor
    · rintro ⟨s,hs,rfl⟩
      rw [hj s hs]
      exact hs
    · intro hx
      exact ⟨x,hx,(hj x hx).symm⟩

lemma logicalStates_resetRuleCache {D : Type}
    (leaf : D → InboundContext F A → RuleMatchState → RuleMatchStateSet)
    (rules : List (RuleTree D)) (mode : LogicalMode) (metadata : InboundContext F A)
    (base : RuleMatchState) :
    RuleTree.logicalStates leaf rules mode metadata.resetRuleCache base =
      RuleTree.logicalStates leaf rules mode metadata base := by
  apply ext_contains_iff
  intro x
  cases mode with
  | and =>
    rw [RuleTree.contains_logicalStates_and,RuleTree.contains_logicalStates_and]
    simp [RuleTree.Joins]
  | or =>
    rw [RuleTree.contains_logicalStates_or,RuleTree.contains_logicalStates_or]
    simp

section Replace

variable {D : Type} (leaf : D → InboundContext F A → RuleMatchState → RuleMatchStateSet)
variable {t t' : RuleTree D} {metadata : InboundContext F A} {base : RuleMatchState}

lemma andStates_replace (h : RuleTree.matchStatesWithBase leaf t' metadata.resetRuleCache base =
      RuleTree.matchStatesWithBase leaf t metadata.resetRuleCache base)
    (before after : List (RuleTree D)) (acc : RuleMatchStateSet) :
    RuleTree.andStates leaf (before ++ t' :: after) metadata base acc =
      RuleTree.andStates leaf (before ++ t :: after) metadata base acc := by
  induction before generalizing acc with
  | nil => simp only [List.nil_append,RuleTree.andStates,h]
  | cons rule rest ih => simp only [List.cons_append,RuleTree.andStates,ih]

lemma orStates_replace (h : RuleTree.matchStatesWithBase leaf t' metadata.resetRuleCache base =
      RuleTree.matchStatesWithBase leaf t metadata.resetRuleCache base)
    (before after : List (RuleTree D)) (acc : RuleMatchStateSet) :
    RuleTree.orStates leaf (before ++ t' :: after) metadata base acc =
      RuleTree.orStates leaf (before ++ t :: after) metadata base acc := by
  induction before generalizing acc with
  | nil => simp only [List.nil_append,RuleTree.orStates,h]
  | cons rule rest ih => simp only [List.cons_append,RuleTree.orStates,ih]

lemma logicalStates_replace (h : RuleTree.matchStatesWithBase leaf t' metadata.resetRuleCache base =
      RuleTree.matchStatesWithBase leaf t metadata.resetRuleCache base)
    (before after : List (RuleTree D)) (mode : LogicalMode) :
    RuleTree.logicalStates leaf (before ++ t' :: after) mode metadata base =
      RuleTree.logicalStates leaf (before ++ t :: after) mode metadata base := by
  cases mode with
  | and => simp only [RuleTree.logicalStates,andStates_replace leaf h]
  | or => simp only [RuleTree.logicalStates,orStates_replace leaf h]

end Replace

namespace RuleTree

variable {D : Type} (leaf : D → InboundContext F A → RuleMatchState → RuleMatchStateSet)
  (metadata : InboundContext F A) (base : RuleMatchState)

/-- Steps from a tree to another: children in a new order, a child without inversion that has the
mode of its parent replaced by its own children, a step inside a child, and two steps in a row. -/
inductive Rearranges : RuleTree D → RuleTree D → Prop
  | reorder (mode invert) {rules rules'} : rules.Perm rules' →
      Rearranges (.logical rules mode invert) (.logical rules' mode invert)
  | flatten (inner rest mode invert) :
      Rearranges (.logical (.logical inner mode false :: rest) mode invert)
        (.logical (inner ++ rest) mode invert)
  | inside (rest mode invert) {t t'} : Rearranges t t' →
      Rearranges (.logical (t :: rest) mode invert) (.logical (t' :: rest) mode invert)
  | trans {t t' t''} : Rearranges t t' → Rearranges t' t'' → Rearranges t t''

lemma joins_append (rules rest : List (RuleTree D)) (a x : RuleMatchState) :
    Joins leaf metadata base (rules ++ rest) a x ↔
      ∃ s,Joins leaf metadata base rules a s ∧ Joins leaf metadata base rest s x := by
  induction rules generalizing a with
  | nil => simp [joins_nil]
  | cons rule rules ih =>
    simp only [List.cons_append,joins_cons,ih]
    tauto

lemma logicalStates_flatten (inner rest : List (RuleTree D)) (mode : LogicalMode) :
    logicalStates leaf (.logical inner mode false :: rest) mode metadata base =
      logicalStates leaf (inner ++ rest) mode metadata base := by
  apply ext_contains_iff
  intro x
  cases mode with
  | and =>
    simp only [contains_logicalStates_and,joins_cons,joins_append,matchStatesWithBase_logical,
      logicalStates_resetRuleCache,Bool.false_eq_true,if_false]
    refine exists_congr fun s => and_congr_right fun hs => ?_
    -- the states of the inner rule have the bits of the base that they are joined to
    have hb : base ||| s = s := by
      apply state_ext
      intro g
      cases hg : has base g with
      | false => simp [hg]
      | true => simp [hs.has_of_has leaf hg]
    rw [hb]
  | or =>
    simp only [contains_logicalStates_or,matchStatesWithBase_logical,logicalStates_resetRuleCache,
      Bool.false_eq_true,if_false,List.mem_cons,List.mem_append,or_and_right,exists_or,exists_eq_left]

/-- Rearranged trees have the same states, whatever their leaves, the metadata and the base. -/
theorem rearranged_states {t t' : RuleTree D} (h : Rearranges t t') :
    matchStatesWithBase leaf t metadata base = matchStatesWithBase leaf t' metadata base := by
  induction h generalizing metadata base with
  | reorder mode invert hp => exact matchStatesWithBase_perm leaf mode invert hp metadata base
  | flatten inner rest mode invert =>
    simp only [matchStatesWithBase_logical,logicalStates_flatten]
  | inside rest mode invert _ ih =>
    have hl := fun base => logicalStates_replace leaf (ih metadata.resetRuleCache base) [] rest mode
    simp only [List.nil_append] at hl
    simp only [matchStatesWithBase_logical,hl]
  | trans _ _ ih ih' => exact (ih _ _).trans (ih' _ _)

end RuleTree

lemma Wraps.states_resetRuleCache {mode : LogicalMode} {t t' : HeadlessRule I J}
    (h : Wraps mode t t') (metadata : InboundContext F A) (base : RuleMatchState) :
    HeadlessRule.matchStatesWithBase t' metadata.resetRuleCache base =
      HeadlessRule.matchStatesWithBase t metadata.resetRuleCache base := by
  induction h generalizing base with
  | here t => exact wrapped_states t mode metadata.resetRuleCache base
  | inside before after m invert _ ih =>
    simp only [HeadlessRule.matchStatesWithBase,RuleTree.matchStatesWithBase_logical,
      logicalStates_resetRuleCache] at ih ⊢
    rw [logicalStates_replace _ (ih base) before after m,
      logicalStates_replace _ (ih 0#4) before after m]

/-- Whether a rule of a rule-set reads the options of the `rule_set` item itself: a default rule
with `ip_cidr` items does, a logical rule only hands them on. -/
def readsOptions {R : Type} : RuleTree (AbstractDefaultRule I J R) → Bool
  | .default rule => !rule.destinationIPCIDRItems.isEmpty
  | .logical _ _ _ => false

lemma matchStatesWithBase_of_flow (rule : AbstractDefaultRule (FlowItem F A) (AddressItem A) Empty)
    (hip : rule.destinationIPCIDRItems = []) (metadata metadata' : InboundContext F A)
    (hf : metadata.flow = metadata'.flow) (base : RuleMatchState) :
    rule.matchStatesWithBase metadata base = rule.matchStatesWithBase metadata' base := by
  have hi : ∀ it : FlowItem F A,
      RuleItem.Match it metadata.seen = RuleItem.Match it metadata'.seen := by
    intro it
    exact congrArg it.test hf
  have hco : ∀ (c : InboundContext F A) g,rule.ipCIDRCounts c g = false := by
    intro c g
    cases g <;> simp [AbstractDefaultRule.ipCIDRCounts,
      AbstractDefaultRule.destinationIPCIDRMatchesSource,
      AbstractDefaultRule.destinationIPCIDRMatchesDestination,hip]
  have hb : rule.groupBits metadata = rule.groupBits metadata' := by
    apply state_ext
    intro g
    simp [AbstractDefaultRule.groupMatches,hco,matchAnyItem,hi]
  have hcr : ∀ state,rule.coreStates metadata state = rule.coreStates metadata' state := by
    intro state
    apply ext_contains_iff
    intro x
    rw [HeadlessRule.contains_coreStates,HeadlessRule.contains_coreStates]
    simp [hi,hb,AbstractDefaultRule.requiresGroup,hco]
  have hd : ∀ c : InboundContext F A,rule.deferred c = false := by
    intro c
    simp [AbstractDefaultRule.deferred,hip]
  rw [rule.matchStatesWithBase_eq,rule.matchStatesWithBase_eq]
  simp only [hcr,hd]

lemma states_of_not_readsOptions (t : HeadlessRule (FlowItem F A) (AddressItem A))
    (h : readsOptions t = false) (metadata : InboundContext F A) (base : RuleMatchState) :
    HeadlessRule.matchStatesWithBase t metadata.resetRuleCache base =
      HeadlessRule.matchStatesWithBase t metadata base := by
  cases t with
  | default rule =>
    have hip : rule.destinationIPCIDRItems = [] := by simpa [readsOptions] using h
    exact matchStatesWithBase_of_flow rule hip metadata.resetRuleCache metadata rfl base
  | logical rules mode invert =>
    simp only [HeadlessRule.matchStatesWithBase,RuleTree.matchStatesWithBase_logical,
      logicalStates_resetRuleCache]

lemma Wraps.states_nested {mode : LogicalMode}
    {t t' : HeadlessRule (FlowItem F A) (AddressItem A)} (h : Wraps mode t t')
    (matchSource acceptEmpty : Bool)
    (ho : readsOptions t = false ∨ (matchSource = false ∧ acceptEmpty = false))
    (metadata : InboundContext F A) (base : RuleMatchState) :
    HeadlessRule.matchStatesWithBase t' (metadata.forRuleSet matchSource acceptEmpty) base =
      HeadlessRule.matchStatesWithBase t (metadata.forRuleSet matchSource acceptEmpty) base := by
  rcases ho with hr | ⟨rfl,rfl⟩
  · have hw : readsOptions t' = false := by cases h <;> rfl
    rw [← states_of_not_readsOptions t hr,← states_of_not_readsOptions t' hw]
    exact h.states_resetRuleCache _ base
  · exact h.states_resetRuleCache metadata base

structure RulePlace (I J : Type) where
  setsBefore : List (RuleSet I J)
  rulesBefore : RuleSet I J
  rulesAfter : RuleSet I J
  setsAfter : List (RuleSet I J)

def RulePlace.fill (place : RulePlace I J) (t : HeadlessRule I J) : List (RuleSet I J) :=
  place.setsBefore ++ (place.rulesBefore ++ t :: place.rulesAfter) :: place.setsAfter

/-- A rule with its `rule_set` item set to the given sets and options. -/
def DefaultRule.including (r : DefaultRule I J) (sets : List (RuleSet I J))
    (matchSource acceptEmpty : Bool) : DefaultRule I J :=
  { r with ruleSetItem := some ⟨sets,matchSource,acceptEmpty⟩ }

lemma including_match_congr (r : DefaultRule I J) {sets sets' : List (RuleSet I J)}
    (matchSource acceptEmpty : Bool) (metadata : InboundContext F A)
    (h : ∀ (c : InboundContext F A) base,
      RuleSetItem.matchStatesWithBase ⟨sets',matchSource,acceptEmpty⟩ c base =
        RuleSetItem.matchStatesWithBase ⟨sets,matchSource,acceptEmpty⟩ c base) :
    (r.including sets' matchSource acceptEmpty).Match metadata =
      (r.including sets matchSource acceptEmpty).Match metadata := by
  have hma : ∀ (c : InboundContext F A) base,RuleStateMatcher.matchStatesWithBase
      (⟨sets',matchSource,acceptEmpty⟩ : RuleSetItem I J) c base =
      RuleStateMatcher.matchStatesWithBase
        (⟨sets,matchSource,acceptEmpty⟩ : RuleSetItem I J) c base := h
  have hco : ∀ state,(r.including sets' matchSource acceptEmpty).coreStates metadata state =
        (r.including sets matchSource acceptEmpty).coreStates metadata state := by
    intro state
    simp only [AbstractDefaultRule.coreStates,AbstractDefaultRule.ruleSetStates,
      AbstractDefaultRule.matchRuleSet,DefaultRule.including,hma]
    rfl
  simp only [AbstractDefaultRule.Match,AbstractDefaultRule.matchStates,
    AbstractDefaultRule.matchStatesWithBase_eq,hco]
  rfl

lemma item_states_congr (place : RulePlace I J) {t t' : HeadlessRule I J}
    (matchSource acceptEmpty : Bool) (metadata : InboundContext F A) (base : RuleMatchState)
    (h : HeadlessRule.matchStatesWithBase t' (metadata.forRuleSet matchSource acceptEmpty) base =
      HeadlessRule.matchStatesWithBase t (metadata.forRuleSet matchSource acceptEmpty) base) :
    RuleSetItem.matchStatesWithBase ⟨place.fill t',matchSource,acceptEmpty⟩ metadata base =
      RuleSetItem.matchStatesWithBase ⟨place.fill t,matchSource,acceptEmpty⟩ metadata base := by
  have hset : RuleSet.matchStatesWithBase (place.rulesBefore ++ t' :: place.rulesAfter)
        (metadata.forRuleSet matchSource acceptEmpty) base =
      RuleSet.matchStatesWithBase (place.rulesBefore ++ t :: place.rulesAfter)
        (metadata.forRuleSet matchSource acceptEmpty) base := by
    have hr : (metadata.forRuleSet matchSource acceptEmpty).resetRuleMatchCache =
        metadata.forRuleSet matchSource acceptEmpty := rfl
    simp only [RuleSet.matchStatesWithBase,List.foldl_append,List.foldl_cons,hr,h]
  simp only [RuleSetItem.matchStatesWithBase,RuleSetItem.nestedMetadata,RulePlace.fill,
    List.foldl_append,List.foldl_cons,hset]

lemma wrapping_neutral (r : DefaultRule (FlowItem F A) (AddressItem A))
    (place : RulePlace (FlowItem F A) (AddressItem A)) {mode : LogicalMode}
    {t t' : HeadlessRule (FlowItem F A) (AddressItem A)} (h : Wraps mode t t')
    (matchSource acceptEmpty : Bool)
    (ho : readsOptions t = false ∨ (matchSource = false ∧ acceptEmpty = false))
    (metadata : InboundContext F A) :
    (r.including (place.fill t') matchSource acceptEmpty).Match metadata =
      (r.including (place.fill t) matchSource acceptEmpty).Match metadata := by
  apply including_match_congr
  intro c base
  apply item_states_congr
  exact h.states_nested matchSource acceptEmpty ho c base

def subnetBranch : AbstractDefaultRule (FlowItem ℕ ℕ) (AddressItem ℕ) Empty where
  items := []
  sourceAddressItems := []
  sourcePortItems := []
  destinationAddressItems := []
  destinationIPCIDRItems := [.ipCIDR fun address => address < 10]
  destinationPortItems := []
  ruleSetItem := none
  invert := false

def openRule : DefaultRule (FlowItem ℕ ℕ) (AddressItem ℕ) where
  items := []
  sourceAddressItems := []
  sourcePortItems := []
  destinationAddressItems := []
  destinationIPCIDRItems := []
  destinationPortItems := []
  ruleSetItem := none
  invert := false

/-- A connection from the subnet to a domain that has not been resolved. -/
def subnetConnection : InboundContext ℕ ℕ :=
  .fresh ⟨0,some 5,none,[]⟩

theorem rearranged_states_subnet :
    RuleTree.matchStatesWithBase AbstractDefaultRule.matchStatesWithBase
      (.logical [.logical [.default subnetBranch] .or false] .or true) subnetConnection 0#4 =
    RuleTree.matchStatesWithBase AbstractDefaultRule.matchStatesWithBase
      (.logical [.default subnetBranch] .or true) subnetConnection 0#4 :=
  RuleTree.rearranged_states _ _ _ (.flatten _ _ _ _)

lemma wrapping_subnetBranch (matchSource acceptEmpty : Bool)
    (h : ¬ (matchSource = false ∧ acceptEmpty = false)) (mode : LogicalMode) :
    (openRule.including [[.logical [.default subnetBranch] mode false]] matchSource
        acceptEmpty).Match subnetConnection ≠
      (openRule.including [[.default subnetBranch]] matchSource acceptEmpty).Match
        subnetConnection := by
  revert h
  cases matchSource <;> cases acceptEmpty <;> cases mode <;> decide +kernel

end SingBoxAuth.RouteRule
