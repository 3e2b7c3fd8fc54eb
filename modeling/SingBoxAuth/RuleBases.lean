import SingBoxAuth.RuleEvaluation

/-! How the states a rule returns depend on the state it starts from. Every evaluator keeps the
bits it is handed and does no worse from a larger state; the law holds of the leaves and passes
through logical rules, rule-sets and the item that lists them. -/
namespace SingBoxAuth.RouteRule
open PackedSet RuleMatchStateSet

variable {F A I J R : Type} [RuleItem I F A] [RuleItem J F A] [RuleStateMatcher R F A]

def Within (s t : RuleMatchState) : Prop :=
  ∀ g, has s g = true → has t g = true

lemma Within.refl (s : RuleMatchState) : Within s s :=
  fun _ h => h

lemma Within.trans {s t u : RuleMatchState} (hst : Within s t) (htu : Within t u) : Within s u :=
  fun g h => htu g (hst g h)

lemma within_or_left (s t : RuleMatchState) : Within s (s ||| t) := by
  intro g h
  simp [h]

lemma within_or_right (s t : RuleMatchState) : Within t (s ||| t) := by
  intro g h
  simp [h]

lemma Within.or {s t u : RuleMatchState} (hs : Within s u) (ht : Within t u) :
    Within (s ||| t) u := by
  intro g h
  rw [has_or,Bool.or_eq_true] at h
  exact h.elim (hs g) (ht g)

/-- The law of an evaluator: the states it returns contain the base it starts from, and from a
larger base every state is still reached, joined with that base. -/
structure KeepsBase (eval : RuleMatchState → RuleMatchStateSet) : Prop where
  preserved : ∀ base x, contains (eval base) x = true → Within base x
  monotone : ∀ base base' x, Within base base' → contains (eval base) x = true →
    ∃ y, contains (eval base') y = true ∧ Within (x ||| base') y

lemma keepsBase_single : KeepsBase singleRuleMatchState where
  preserved base x hx := by
    rw [contains_singleRuleMatchState,decide_eq_true_eq] at hx
    rw [hx]
    exact .refl base
  monotone base base' x hb hx := by
    rw [contains_singleRuleMatchState,decide_eq_true_eq] at hx
    rw [hx]
    exact ⟨base',by simp,hb.or (.refl base')⟩

lemma keepsBase_empty : KeepsBase fun _ => PackedSet.empty where
  preserved base x hx := by simp at hx
  monotone base base' x hb hx := by simp at hx

lemma KeepsBase.union {ι : Type} {eval : RuleMatchState → RuleMatchStateSet} (parts : List ι)
    (part : ι → RuleMatchState → RuleMatchStateSet) (hp : ∀ i ∈ parts,KeepsBase (part i))
    (he : ∀ base x,contains (eval base) x = true ↔
      ∃ i ∈ parts,contains (part i base) x = true) : KeepsBase eval where
  preserved base x hx := by
    obtain ⟨i,hi,hx⟩ := (he base x).mp hx
    exact (hp i hi).preserved base x hx
  monotone base base' x hb hx := by
    obtain ⟨i,hi,hx⟩ := (he base x).mp hx
    obtain ⟨y,hy,hxy⟩ := (hp i hi).monotone base base' x hb hx
    exact ⟨y,(he base' y).mpr ⟨i,hi,hy⟩,hxy⟩

namespace AbstractDefaultRule

variable (r : AbstractDefaultRule I J R) (metadata : InboundContext F A)

omit [RuleItem I F A] [RuleItem J F A] in
lemma keepsBase_ruleSetStates (hi : ∀ item ∈ r.ruleSetItem,∀ metadata : InboundContext F A,
      KeepsBase (RuleStateMatcher.matchStatesWithBase item metadata)) :
    KeepsBase (r.ruleSetStates metadata) := by
  cases hs : r.ruleSetItem with
  | none =>
    have he : r.ruleSetStates metadata = singleRuleMatchState := by
      funext state
      rw [ruleSetStates,matchRuleSet,hs]
    rw [he]
    exact keepsBase_single
  | some item =>
    have he : r.ruleSetStates metadata =
        RuleStateMatcher.matchStatesWithBase item metadata.seen := by
      funext state
      rw [ruleSetStates,matchRuleSet,hs]
    rw [he]
    exact hi item hs metadata.seen

lemma keepsBase_coreStates (hs : KeepsBase (r.ruleSetStates metadata)) :
    KeepsBase (r.coreStates metadata) where
  preserved base x hx := by
    obtain ⟨-,hx,-⟩ := (r.contains_coreStates metadata base x).mp hx
    exact (within_or_left base _).trans (hs.preserved _ x hx)
  monotone base base' x hb hx := by
    obtain ⟨ha,hx,hg⟩ := (r.contains_coreStates metadata base x).mp hx
    have hbb : Within (base ||| r.groupBits metadata) (base' ||| r.groupBits metadata) :=
      (hb.trans (within_or_left _ _)).or (within_or_right _ _)
    obtain ⟨y,hy,hxy⟩ := hs.monotone _ _ x hbb hx
    have hxy' : Within x y := (within_or_left x _).trans hxy
    have hby : Within base' y := (within_or_left base' _).trans ((within_or_right x _).trans hxy)
    -- the groups the rule requires were matched in `x`, and `y` has only more of them
    refine ⟨y,(r.contains_coreStates metadata base' y).mpr ⟨ha,hy,?_⟩,hxy'.or hby⟩
    intro g hr
    exact hxy' g (hg g hr)

/-- An inverted rule is decided from the empty state, so it either passes its base on or returns
nothing, whatever the base is. -/
lemma keepsBase (hi : ∀ item ∈ r.ruleSetItem,∀ metadata : InboundContext F A,
      KeepsBase (RuleStateMatcher.matchStatesWithBase item metadata)) :
    KeepsBase (r.matchStatesWithBase metadata) := by
  rw [funext (r.matchStatesWithBase_eq metadata)]
  split_ifs
  · exact keepsBase_single
  · exact keepsBase_single
  · exact keepsBase_empty
  · exact r.keepsBase_coreStates metadata (r.keepsBase_ruleSetStates metadata hi)

lemma isEmpty_of_invert (h : r.invert = true) (base base' : RuleMatchState) :
    isEmpty (r.matchStatesWithBase metadata base) =
      isEmpty (r.matchStatesWithBase metadata base') := by
  simp only [matchStatesWithBase_eq,h,if_true]
  split_ifs
  · simp only [isEmpty_singleRuleMatchState]
  · simp only [isEmpty_singleRuleMatchState]
  · rfl

end AbstractDefaultRule

namespace RuleTree

variable {D : Type} (leaf : D → InboundContext F A → RuleMatchState → RuleMatchStateSet)

lemma Joins.of_base {metadata : InboundContext F A} {base base' : RuleMatchState}
    {rules : List (RuleTree D)} (hr : ∀ rule ∈ rules,
      KeepsBase (matchStatesWithBase leaf rule metadata.resetRuleCache)) (hb : Within base base')
    {a a' x : RuleMatchState} (ha : Within a a') (h : Joins leaf metadata base rules a x) :
    ∃ y,Joins leaf metadata base' rules a' y ∧ Within (x ||| a') y := by
  induction rules generalizing a a' with
  | nil =>
    obtain rfl := (joins_nil leaf metadata base a x).mp h
    exact ⟨a',(joins_nil leaf metadata base' a' a').mpr rfl,ha.or (.refl a')⟩
  | cons rule rest ih =>
    obtain ⟨s,hs,hj⟩ := (joins_cons leaf metadata base rule rest a x).mp h
    obtain ⟨s',hs',hss⟩ := (hr rule (by simp)).monotone base base' s hb hs
    have has : Within (a ||| s) (a' ||| s') :=
      (ha.trans (within_or_left a' s')).or
        ((within_or_left s base').trans (hss.trans (within_or_right a' s')))
    obtain ⟨y,hy,hxy⟩ := ih (fun rule h => hr rule (by simp [h])) has hj
    refine ⟨y,(joins_cons leaf metadata base' rule rest a' y).mpr ⟨s',hs',hy⟩,?_⟩
    exact ((within_or_left x _).trans hxy).or
      ((within_or_left a' s').trans ((within_or_right x _).trans hxy))

lemma keepsBase_logicalStates (metadata : InboundContext F A) (rules : List (RuleTree D))
    (mode : LogicalMode) (hr : ∀ rule ∈ rules,
      KeepsBase (matchStatesWithBase leaf rule metadata.resetRuleCache)) :
    KeepsBase (logicalStates leaf rules mode metadata) := by
  cases mode with
  | and =>
    constructor
    · intro base x hx g hg
      rw [contains_logicalStates_and] at hx
      exact hx.has_of_has leaf hg
    · intro base base' x hb hx
      rw [contains_logicalStates_and] at hx
      obtain ⟨y,hy,hxy⟩ := Joins.of_base leaf hr hb hb hx
      exact ⟨y,(contains_logicalStates_and leaf rules metadata base' y).mpr hy,hxy⟩
  | or =>
    exact .union rules (fun rule => matchStatesWithBase leaf rule metadata.resetRuleCache) hr
      (contains_logicalStates_or leaf rules metadata)

/-- The law of the leaves is the law of every tree over them. -/
lemma keepsBase (hl : ∀ rule metadata,KeepsBase (leaf rule metadata)) (t : RuleTree D)
    (metadata : InboundContext F A) : KeepsBase (matchStatesWithBase leaf t metadata) := by
  induction t generalizing metadata with
  | default rule =>
    have he : matchStatesWithBase leaf (.default rule) metadata = leaf rule metadata := by
      funext base
      rw [matchStatesWithBase]
    rw [he]
    exact hl rule metadata
  | logical rules mode invert ih =>
    rw [funext (matchStatesWithBase_logical leaf rules mode invert metadata)]
    split_ifs
    · exact keepsBase_single
    · exact keepsBase_empty
    · exact keepsBase_logicalStates leaf metadata rules mode
        fun rule hr => ih rule hr metadata.resetRuleCache

lemma joins_perm (metadata : InboundContext F A) (base : RuleMatchState)
    {rules rules' : List (RuleTree D)} (h : rules.Perm rules') (a x : RuleMatchState) :
    Joins leaf metadata base rules a x ↔ Joins leaf metadata base rules' a x := by
  induction h generalizing a with
  | nil => rfl
  | cons rule _ ih => simp only [joins_cons,ih]
  | swap rule rule' rest =>
    simp only [joins_cons]
    -- the two children's states are joined in the other order
    constructor
    · rintro ⟨s,hs,t,ht,hj⟩
      exact ⟨t,ht,s,hs,by rwa [BitVec.or_assoc,BitVec.or_comm t s,← BitVec.or_assoc]⟩
    · rintro ⟨t,ht,s,hs,hj⟩
      exact ⟨s,hs,t,ht,by rwa [BitVec.or_assoc,BitVec.or_comm s t,← BitVec.or_assoc]⟩
  | trans _ _ ih ih' => rw [ih,ih']

lemma logicalStates_perm (mode : LogicalMode) {rules rules' : List (RuleTree D)}
    (h : rules.Perm rules') (metadata : InboundContext F A) (base : RuleMatchState) :
    logicalStates leaf rules mode metadata base = logicalStates leaf rules' mode metadata base := by
  apply ext_contains_iff
  intro x
  cases mode with
  | and =>
    rw [contains_logicalStates_and,contains_logicalStates_and]
    exact joins_perm leaf metadata base h base x
  | or =>
    rw [contains_logicalStates_or,contains_logicalStates_or]
    simp only [h.mem_iff]

lemma matchStatesWithBase_perm (mode : LogicalMode) (invert : Bool)
    {rules rules' : List (RuleTree D)} (h : rules.Perm rules') (metadata : InboundContext F A)
    (base : RuleMatchState) :
    matchStatesWithBase leaf (.logical rules mode invert) metadata base =
      matchStatesWithBase leaf (.logical rules' mode invert) metadata base := by
  rw [matchStatesWithBase_logical,matchStatesWithBase_logical,
    logicalStates_perm leaf mode h metadata 0#4,logicalStates_perm leaf mode h metadata base]

end RuleTree

lemma HeadlessRule.keepsBase (t : HeadlessRule I J) (metadata : InboundContext F A) :
    KeepsBase (HeadlessRule.matchStatesWithBase t metadata) := by
  apply RuleTree.keepsBase
  intro rule metadata
  apply rule.keepsBase metadata
  intro item
  nomatch item

lemma RuleSet.keepsBase (rules : RuleSet I J) (metadata : InboundContext F A) :
    KeepsBase (rules.matchStatesWithBase metadata) :=
  .union rules (fun rule => HeadlessRule.matchStatesWithBase rule metadata.resetRuleMatchCache)
    (fun rule _ => HeadlessRule.keepsBase rule _) (rules.contains_matchStatesWithBase metadata)

lemma RuleSet.matchStatesWithBase_perm {rules rules' : RuleSet I J} (h : rules.Perm rules')
    (metadata : InboundContext F A) (base : RuleMatchState) :
    rules.matchStatesWithBase metadata base = rules'.matchStatesWithBase metadata base := by
  apply ext_contains_iff
  intro x
  rw [RuleSet.contains_matchStatesWithBase,RuleSet.contains_matchStatesWithBase]
  simp only [h.mem_iff]

lemma RuleSetItem.keepsBase (item : RuleSetItem I J) (metadata : InboundContext F A) :
    KeepsBase (item.matchStatesWithBase metadata) := by
  apply KeepsBase.union item.setList.flatten
    (fun rule => HeadlessRule.matchStatesWithBase rule (item.nestedMetadata metadata))
  · intro rule _
    exact HeadlessRule.keepsBase rule _
  · intro base x
    rw [item.contains_matchStatesWithBase]
    simp only [List.mem_flatten]
    constructor
    · rintro ⟨ruleSet,hs,rule,hr,hx⟩
      exact ⟨rule,⟨ruleSet,hs,hr⟩,hx⟩
    · rintro ⟨rule,⟨ruleSet,hs,hr⟩,hx⟩
      exact ⟨ruleSet,hs,rule,hr,hx⟩

lemma RuleTree.keepsBase_default (t : RuleTree (DefaultRule I J)) (metadata : InboundContext F A) :
    KeepsBase (RuleTree.matchStatesWithBase AbstractDefaultRule.matchStatesWithBase t metadata) := by
  apply RuleTree.keepsBase
  intro rule metadata
  apply rule.keepsBase metadata
  intro item _ metadata
  exact item.keepsBase metadata

/-- Headless rules, rules with rule-sets and rule-sets all keep the base they are evaluated from,
inverted nodes included; an inverted default rule is decided without it; and neither the order of
the rules of a rule-set nor that of the children of a logical rule matters. -/
theorem states_keep_base :
    (∀ (t : HeadlessRule I J) (metadata : InboundContext F A),
      KeepsBase (HeadlessRule.matchStatesWithBase t metadata)) ∧
    (∀ (t : RuleTree (DefaultRule I J)) (metadata : InboundContext F A), KeepsBase
      (RuleTree.matchStatesWithBase AbstractDefaultRule.matchStatesWithBase t metadata)) ∧
    (∀ (rules : RuleSet I J) (metadata : InboundContext F A),
      KeepsBase (rules.matchStatesWithBase metadata)) ∧
    (∀ (r : AbstractDefaultRule I J R) (metadata : InboundContext F A) (base base' : RuleMatchState),
      r.invert = true → isEmpty (r.matchStatesWithBase metadata base) =
        isEmpty (r.matchStatesWithBase metadata base')) ∧
    (∀ (rules rules' : RuleSet I J) (metadata : InboundContext F A) (base : RuleMatchState),
      rules.Perm rules' →
        rules.matchStatesWithBase metadata base = rules'.matchStatesWithBase metadata base) ∧
    ∀ (rules rules' : List (RuleTree (AbstractDefaultRule I J R))) (mode : LogicalMode)
      (invert : Bool) (metadata : InboundContext F A) (base : RuleMatchState),
      rules.Perm rules' → RuleTree.matchStatesWithBase AbstractDefaultRule.matchStatesWithBase
          (.logical rules mode invert) metadata base =
        RuleTree.matchStatesWithBase AbstractDefaultRule.matchStatesWithBase
          (.logical rules' mode invert) metadata base := by
  refine ⟨HeadlessRule.keepsBase,RuleTree.keepsBase_default,RuleSet.keepsBase,?_,?_,?_⟩
  · intro r metadata base base' hi
    exact r.isEmpty_of_invert metadata hi base base'
  · intro rules rules' metadata base hp
    exact RuleSet.matchStatesWithBase_perm hp metadata base
  · intro rules rules' mode invert metadata base hp
    exact RuleTree.matchStatesWithBase_perm _ mode invert hp metadata base

end SingBoxAuth.RouteRule
