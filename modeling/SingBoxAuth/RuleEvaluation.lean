import SingBoxAuth.RuleMatching

/-! What evaluating a rule amounts to: which bits a default rule sets, which it requires, and what
its inversion does with the outcome; and the states a logical rule or a rule-set collects. -/
namespace SingBoxAuth.RouteRule
open PackedSet RuleMatchStateSet

variable {F A I J R : Type} [RuleItem I F A] [RuleItem J F A] [RuleStateMatcher R F A]

@[simp]
lemma matchAnyItem_nil (metadata : InboundContext F A) :
    matchAnyItem ([] : List I) metadata = false := rfl

lemma matchAnyItem_iff (items : List I) (metadata : InboundContext F A) :
    matchAnyItem items metadata = true ↔ ∃ it ∈ items,RuleItem.Match it metadata = true := by
  simp [matchAnyItem]

lemma matchGroup_seen (items : List I) (group : RuleGroup)
    (p : InboundContext F A × RuleMatchState) :
    (matchGroup items group p).1.seen = p.1.seen := by
  rw [matchGroup]
  split <;> rfl

lemma matchGroup_fst (items : List I) (group : RuleGroup)
    (p : InboundContext F A × RuleMatchState) :
    (matchGroup items group p).1 = if !items.isEmpty then p.1.seen else p.1 := by
  rw [matchGroup]
  cases items.isEmpty <;> rfl

lemma has_matchGroup (items : List I) (group : RuleGroup)
    (p : InboundContext F A × RuleMatchState) (g : RuleGroup) :
    has (matchGroup items group p).2 g =
      (has p.2 g || (decide (g = group) && matchAnyItem items p.1.seen)) := by
  rw [matchGroup]
  split
  · rename_i he
    simp [List.isEmpty_iff.mp he]
  · cases matchAnyItem items p.1.seen <;> simp

lemma matchIPCIDR_seen (items : List J) (counts : Bool) (group : RuleGroup)
    (p : InboundContext F A × RuleMatchState) :
    (matchIPCIDR items counts group p).1.seen = p.1.seen := by
  rw [matchIPCIDR]
  split
  · rfl
  · split <;> rfl

lemma matchIPCIDR_fst (items : List J) (counts : Bool) (group : RuleGroup)
    (p : InboundContext F A × RuleMatchState) :
    (matchIPCIDR items counts group p).1 = if counts then p.1.seen else p.1 := by
  rw [matchIPCIDR]
  cases counts with
  | false => rfl
  | true => cases has p.2 group <;> rfl

lemma ite_seen (c d : Bool) (metadata : InboundContext F A) :
    (if d then (if c then metadata.seen else metadata).seen
      else if c then metadata.seen else metadata) =
      if c || d then metadata.seen else metadata := by
  cases c <;> cases d <;> rfl

lemma has_matchIPCIDR (items : List J) (counts : Bool) (group : RuleGroup)
    (p : InboundContext F A × RuleMatchState) (g : RuleGroup) :
    has (matchIPCIDR items counts group p).2 g =
      (has p.2 g || (decide (g = group) && (counts && matchAnyItem items p.1.seen))) := by
  rw [matchIPCIDR]
  cases counts with
  | false => simp
  | true =>
    cases hb : has p.2 group with
    | false => cases matchAnyItem items p.1.seen <;> simp
    | true =>
      by_cases hg : g = group
      · subst hg
        simp [hb]
      · simp [hg]

lemma matchItems_eq (items : List I) (metadata : InboundContext F A) : matchItems items metadata =
      if items.all (fun it => RuleItem.Match it metadata.seen) then
        some (if items.isEmpty then metadata else metadata.seen)
      else none := by
  induction items generalizing metadata with
  | nil => rfl
  | cons item rest ih =>
    rw [matchItems,ih]
    cases hi : RuleItem.Match item metadata.seen <;> simp [hi]

namespace AbstractDefaultRule

variable (r : AbstractDefaultRule I J R) (metadata : InboundContext F A)

/-- The items of a group that do not look at destination addresses. -/
def groupItems : RuleGroup → List I
  | .sourceAddress => r.sourceAddressItems
  | .sourcePort => r.sourcePortItems
  | .destinationAddress => r.destinationAddressItems
  | .destinationPort => r.destinationPortItems

/-- The group the `ip_cidr` items count for: one of the two address groups, or none while
destination addresses are ignored. -/
def ipCIDRCounts : RuleGroup → Bool
  | .sourceAddress => r.destinationIPCIDRMatchesSource metadata
  | .destinationAddress => r.destinationIPCIDRMatchesDestination metadata
  | _ => false

def groupMatches (g : RuleGroup) : Bool :=
  matchAnyItem (r.groupItems g) metadata.seen ||
    (r.ipCIDRCounts metadata g && matchAnyItem r.destinationIPCIDRItems metadata.seen)

def requiresGroup (g : RuleGroup) : Bool :=
  !(r.groupItems g).isEmpty || r.ipCIDRCounts metadata g

def groupBits : RuleMatchState :=
  (r.matchGroups metadata 0#4).2

def touchesGroups : Bool :=
  r.requiresGroup metadata .sourceAddress || r.requiresGroup metadata .sourcePort ||
    r.requiresGroup metadata .destinationAddress || r.requiresGroup metadata .destinationPort

variable (base : RuleMatchState)

lemma has_matchGroups (g : RuleGroup) :
    has (r.matchGroups metadata base).2 g = (has base g || r.groupMatches metadata g) := by
  simp only [matchGroups,has_matchGroup,has_matchIPCIDR,matchGroup_seen,matchIPCIDR_seen]
  have hs : ∀ p : InboundContext F A,r.destinationIPCIDRMatchesSource p =
      r.destinationIPCIDRMatchesSource p.seen := fun _ => rfl
  have hd : ∀ p : InboundContext F A,r.destinationIPCIDRMatchesDestination p =
      r.destinationIPCIDRMatchesDestination p.seen := fun _ => rfl
  rw [hs,hd]
  simp only [matchGroup_seen,matchIPCIDR_seen]
  cases g <;> simp [groupMatches,groupItems,ipCIDRCounts,hs metadata,hd metadata,Bool.or_assoc]

@[simp]
lemma has_groupBits (g : RuleGroup) : has (r.groupBits metadata) g = r.groupMatches metadata g := by
  simp [groupBits,has_matchGroups]

lemma matchGroups_snd : (r.matchGroups metadata base).2 = base ||| r.groupBits metadata := by
  apply state_ext
  intro g
  rw [has_matchGroups,has_or,has_groupBits]

lemma destinationIPCIDRMatchesSource_seen (c : Bool) (metadata : InboundContext F A) :
    r.destinationIPCIDRMatchesSource (if c then metadata.seen else metadata) =
      r.destinationIPCIDRMatchesSource metadata := by
  cases c <;> rfl

lemma destinationIPCIDRMatchesDestination_seen (c : Bool) (metadata : InboundContext F A) :
    r.destinationIPCIDRMatchesDestination (if c then metadata.seen else metadata) =
      r.destinationIPCIDRMatchesDestination metadata := by
  cases c <;> rfl

lemma matchGroups_fst : (r.matchGroups metadata base).1 =
      if r.touchesGroups metadata then metadata.seen else metadata := by
  simp only [matchGroups,matchGroup_fst,matchIPCIDR_fst,ite_seen,
    destinationIPCIDRMatchesSource_seen,destinationIPCIDRMatchesDestination_seen]
  simp [touchesGroups,requiresGroup,groupItems,ipCIDRCounts,Bool.or_assoc]

lemma allowed_iff (state : RuleMatchState) : r.allowed metadata state = true ↔
      ∀ g,r.requiresGroup metadata g = true → has state g = true := by
  have hg : (∀ g,r.requiresGroup metadata g = true → has state g = true) ↔
      (r.requiresGroup metadata .sourceAddress = true → has state .sourceAddress = true) ∧
      (r.requiresGroup metadata .sourcePort = true → has state .sourcePort = true) ∧
      (r.requiresGroup metadata .destinationAddress = true → has state .destinationAddress = true) ∧
      (r.requiresGroup metadata .destinationPort = true → has state .destinationPort = true) := by
    constructor
    · intro h
      exact ⟨h _,h _,h _,h _⟩
    · rintro ⟨hsa,hsp,hda,hdp⟩ g
      cases g
      · exact hsa
      · exact hsp
      · exact hda
      · exact hdp
  rw [hg,allowed]
  have hs : r.requiresGroup metadata .sourceAddress = r.requiresSourceAddressMatch metadata := rfl
  have hd : r.requiresGroup metadata .destinationAddress =
      r.requiresDestinationAddressMatch metadata := rfl
  have hpo : r.requiresGroup metadata .sourcePort = !r.sourcePortItems.isEmpty := Bool.or_false _
  have hp : r.requiresGroup metadata .destinationPort = !r.destinationPortItems.isEmpty :=
    Bool.or_false _
  rw [hs,hd,hpo,hp]
  split_ifs <;> simp_all

def ruleSetStates (state : RuleMatchState) : RuleMatchStateSet :=
  (r.matchRuleSet metadata state).2

lemma matchRuleSet_eq (c : Bool) (metadata : InboundContext F A) (state : RuleMatchState) :
    r.matchRuleSet (if c then metadata.seen else metadata) state =
      (if c || r.ruleSetItem.isSome then metadata.seen else metadata,
        r.ruleSetStates metadata state) := by
  rw [ruleSetStates,matchRuleSet,matchRuleSet]
  cases r.ruleSetItem with
  | none => cases c <;> rfl
  | some item => cases c <;> rfl

def coreStates : RuleMatchStateSet :=
  if r.items.all (fun it => RuleItem.Match it metadata.seen) then
    filter (r.ruleSetStates metadata (base ||| r.groupBits metadata)) (r.allowed metadata)
  else PackedSet.empty

lemma contains_coreStates (x : RuleMatchState) : contains (r.coreStates metadata base) x = true ↔
      (∀ it ∈ r.items,RuleItem.Match it metadata.seen = true) ∧
        contains (r.ruleSetStates metadata (base ||| r.groupBits metadata)) x = true ∧
        ∀ g,r.requiresGroup metadata g = true → has x g = true := by
  rw [coreStates]
  split
  · rename_i ha
    rw [contains_filter,allowed_iff]
    simp only [List.all_eq_true] at ha
    exact ⟨fun h => ⟨ha,h⟩,fun h => h.2⟩
  · rename_i ha
    simp only [List.all_eq_true] at ha
    simp [ha]

lemma ipCIDRCounts_of_ignore {metadata : InboundContext F A}
    (h : metadata.ignoreDestinationIPCIDRMatch = true) (g : RuleGroup) :
    r.ipCIDRCounts metadata g = false := by
  cases g <;> simp [ipCIDRCounts,destinationIPCIDRMatchesSource,
    destinationIPCIDRMatchesDestination,h]

def bare : Bool :=
  r.items.isEmpty && r.sourceAddressItems.isEmpty && r.sourcePortItems.isEmpty &&
    r.destinationAddressItems.isEmpty && r.destinationPortItems.isEmpty && r.ruleSetItem.isNone

/-- While destination addresses are ignored, a rule that has nothing else to go by and has not been
marked as matched is put off rather than inverted. -/
def deferred : Bool :=
  metadata.ignoreDestinationIPCIDRMatch && !metadata.didMatch && r.bare &&
    !r.destinationIPCIDRItems.isEmpty

def touches : Bool :=
  r.touchesGroups metadata || !r.items.isEmpty || r.ruleSetItem.isSome

lemma touches_of_ignore {metadata : InboundContext F A}
    (h : metadata.ignoreDestinationIPCIDRMatch = true) : r.touches metadata = !r.bare := by
  have hco := r.ipCIDRCounts_of_ignore h
  simp only [touches,touchesGroups,requiresGroup,hco,groupItems,bare,Bool.or_false]
  cases r.items.isEmpty <;> cases r.sourceAddressItems.isEmpty <;>
    cases r.sourcePortItems.isEmpty <;> cases r.destinationAddressItems.isEmpty <;>
    cases r.destinationPortItems.isEmpty <;> cases r.ruleSetItem <;> rfl

lemma coreStates_of_bare {metadata : InboundContext F A}
    (h : metadata.ignoreDestinationIPCIDRMatch = true) (hb : r.bare = true)
    (base : RuleMatchState) : r.coreStates metadata base = singleRuleMatchState base := by
  have hco := r.ipCIDRCounts_of_ignore h
  simp only [bare,Bool.and_eq_true,List.isEmpty_iff,Option.isNone_iff_eq_none] at hb
  obtain ⟨⟨⟨⟨⟨hi,hsa⟩,hsp⟩,hda⟩,hdp⟩,hset⟩ := hb
  have hg : ∀ g,r.groupItems g = [] := by
    intro g
    cases g <;> assumption
  have hbi : r.groupBits metadata = 0#4 := by
    apply state_ext
    intro g
    simp [groupMatches,hg,hco]
  apply ext_contains_iff
  intro x
  rw [contains_coreStates]
  simp [ruleSetStates,matchRuleSet,hset,hbi,requiresGroup,hg,hco,hi]

lemma deferred_eq :
    (metadata.ignoreDestinationIPCIDRMatch && r.coreStates metadata 0#4 == emptyRuleMatchState &&
        !(r.touches metadata || metadata.didMatch) && !r.destinationIPCIDRItems.isEmpty) =
      r.deferred metadata := by
  cases hi : metadata.ignoreDestinationIPCIDRMatch with
  | false => simp [deferred,hi]
  | true =>
    rw [r.touches_of_ignore hi]
    cases hb : r.bare with
    | false => simp [deferred,hb]
    | true =>
      rw [r.coreStates_of_bare hi hb]
      simp [deferred,hi,hb,emptyRuleMatchState]

/-- Evaluating a default rule in one equation: a rule without items lets every state pass, a plain
one returns what its items leave, and an inverted one either lets the inherited state pass or
returns nothing. -/
theorem matchStatesWithBase_eq :
    r.matchStatesWithBase metadata base = if r.itemless then singleRuleMatchState base
      else if r.invert then
        if isEmpty (r.coreStates metadata 0#4) || r.deferred metadata then singleRuleMatchState base
        else PackedSet.empty
      else r.coreStates metadata base := by
  rw [matchStatesWithBase]
  cases r.itemless with
  | true => simp
  | false =>
    have hs : ∀ c : Bool,(if c then metadata.seen else metadata).seen = metadata.seen := by
      intro c
      cases c <;> rfl
    simp only [Bool.false_eq_true,if_false,matchGroups_fst,matchGroups_snd,matchItems_eq,hs]
    by_cases ha : r.items.all (fun it => RuleItem.Match it metadata.seen) = true
    · have hme : (if r.items.isEmpty then
            if r.touchesGroups metadata then metadata.seen else metadata
          else metadata.seen) =
          if r.touchesGroups metadata || !r.items.isEmpty then metadata.seen else metadata := by
        cases r.items.isEmpty <;> cases r.touchesGroups metadata <;> rfl
      have ht : (r.touchesGroups metadata || !r.items.isEmpty || r.ruleSetItem.isSome) =
          r.touches metadata := rfl
      have hal : ∀ c : Bool,r.allowed (if c then metadata.seen else metadata) =
          r.allowed metadata := by
        intro c
        cases c <;> rfl
      have hig : ∀ c : Bool,(if c then metadata.seen else
          metadata).ignoreDestinationIPCIDRMatch = metadata.ignoreDestinationIPCIDRMatch := by
        intro c
        cases c <;> rfl
      have hma : ∀ c : Bool,(if c then metadata.seen else metadata).didMatch =
          (c || metadata.didMatch) := by
        intro c
        cases c <;> rfl
      have hco : ∀ state,filter (r.ruleSetStates metadata (state ||| r.groupBits metadata))
          (r.allowed metadata) = r.coreStates metadata state := by
        intro state
        rw [coreStates,if_pos ha]
      simp only [ha,if_true,hme,matchRuleSet_eq,ht,hal,hig,hma,hco]
      cases hi : r.invert with
      | false =>
        simp only [invertedFailure,hi,Bool.false_eq_true,if_false]
        by_cases he : isEmpty (r.coreStates metadata base) = true
        · rw [if_pos he]
          exact (beq_iff_eq.mp he).symm
        · rw [if_neg he]
      | true =>
        simp only [invertedFailure,hi,if_true,emptyRuleMatchState_withBase,deferred_eq]
        cases isEmpty (r.coreStates metadata 0#4) <;> simp
    · cases hi : r.invert <;> simp [coreStates,ha,invertedFailure,hi]

end AbstractDefaultRule

namespace RuleTree

variable {D : Type} (leaf : D → InboundContext F A → RuleMatchState → RuleMatchStateSet)

variable (metadata : InboundContext F A) (base : RuleMatchState) (rules : List (RuleTree D))

def logicalStates (mode : LogicalMode)
    (metadata : InboundContext F A) (base : RuleMatchState) : RuleMatchStateSet :=
  match mode with
  | .and => (andStates leaf rules metadata base (singleRuleMatchState base)).getD PackedSet.empty
  | .or => orStates leaf rules metadata base PackedSet.empty

def Joins (a x : RuleMatchState) : Prop :=
  ∃ states, List.Forall₂ (fun rule s => contains
      (matchStatesWithBase leaf rule metadata.resetRuleCache base) s = true) rules states ∧
    x = states.foldl (· ||| ·) a

lemma joins_nil (a x : RuleMatchState) : Joins leaf metadata base [] a x ↔ x = a := by
  constructor
  · rintro ⟨states,hs,rfl⟩
    cases hs
    rfl
  · rintro rfl
    exact ⟨[],.nil,rfl⟩

lemma joins_cons (rule : RuleTree D) (rest : List (RuleTree D)) (a x : RuleMatchState) :
    Joins leaf metadata base (rule :: rest) a x ↔
      ∃ s,contains (matchStatesWithBase leaf rule metadata.resetRuleCache base) s = true ∧
        Joins leaf metadata base rest (a ||| s) x := by
  constructor
  · rintro ⟨states,hst,rfl⟩
    cases hst with
    | cons hs hr => exact ⟨_,hs,_,hr,rfl⟩
  · rintro ⟨s,hs,states,hr,rfl⟩
    exact ⟨s :: states,.cons hs hr,rfl⟩

lemma Joins.has_of_has {metadata : InboundContext F A} {base : RuleMatchState}
    {rules : List (RuleTree D)} {a x : RuleMatchState} (h : Joins leaf metadata base rules a x)
    {g : RuleGroup} (hg : has a g = true) : has x g = true := by
  induction rules generalizing a with
  | nil =>
    obtain rfl := (joins_nil leaf metadata base a x).mp h
    exact hg
  | cons rule rest ih =>
    obtain ⟨s,-,hr⟩ := (joins_cons leaf metadata base rule rest a x).mp h
    apply ih hr
    simp [hg]

lemma contains_andStates (acc : RuleMatchStateSet) (x : RuleMatchState) :
    contains ((andStates leaf rules metadata base acc).getD PackedSet.empty) x = true ↔
      ∃ a,contains acc a = true ∧ Joins leaf metadata base rules a x := by
  induction rules generalizing acc with
  | nil => simp [andStates,joins_nil]
  | cons rule rest ih =>
    rw [andStates]
    simp only [joins_cons]
    by_cases he : isEmpty (matchStatesWithBase leaf rule metadata.resetRuleCache base) = true
    · rw [if_pos he]
      rw [isEmpty_eq_true_iff] at he
      simp [he]
    · rw [if_neg he,ih]
      simp only [contains_combine]
      constructor
      · rintro ⟨_,⟨left,right,hl,hr,rfl⟩,hj⟩
        exact ⟨left,hl,right,hr,hj⟩
      · rintro ⟨left,hl,right,hr,hj⟩
        exact ⟨_,⟨left,right,hl,hr,rfl⟩,hj⟩

lemma contains_orStates (acc : RuleMatchStateSet) (x : RuleMatchState) :
    contains (orStates leaf rules metadata base acc) x = true ↔
      contains acc x = true ∨ ∃ rule ∈ rules,
        contains (matchStatesWithBase leaf rule metadata.resetRuleCache base) x = true := by
  induction rules generalizing acc with
  | nil => simp [orStates]
  | cons rule rest ih =>
    rw [orStates,ih]
    simp [or_assoc]

lemma contains_logicalStates_and (metadata : InboundContext F A) (base x : RuleMatchState) :
    contains (logicalStates leaf rules .and metadata base) x = true ↔
      Joins leaf metadata base rules base x := by
  rw [logicalStates,contains_andStates]
  simp

lemma contains_logicalStates_or (metadata : InboundContext F A) (base x : RuleMatchState) :
    contains (logicalStates leaf rules .or metadata base) x = true ↔ ∃ rule ∈ rules,
      contains (matchStatesWithBase leaf rule metadata.resetRuleCache base) x = true := by
  rw [logicalStates,contains_orStates]
  simp

lemma andStates_getD_isEmpty (acc : RuleMatchStateSet) (ha : isEmpty acc = false) :
    isEmpty ((andStates leaf rules metadata base acc).getD PackedSet.empty) =
      (andStates leaf rules metadata base acc).isNone := by
  induction rules generalizing acc with
  | nil => simpa [andStates] using ha
  | cons rule rest ih =>
    rw [andStates]
    by_cases he : isEmpty (matchStatesWithBase leaf rule metadata.resetRuleCache base) = true
    · simp [he]
    · rw [if_neg he]
      apply ih
      rw [Bool.not_eq_true,isEmpty_eq_false_iff] at he
      rw [isEmpty_eq_false_iff] at ha ⊢
      obtain ⟨left,hl⟩ := ha
      obtain ⟨right,hr⟩ := he
      exact ⟨_,(contains_combine _ _ _).mpr ⟨left,right,hl,hr,rfl⟩⟩

/-- Evaluating a logical rule in one equation, with the inversion apart. -/
theorem matchStatesWithBase_logical (mode : LogicalMode)
    (invert : Bool) (metadata : InboundContext F A) (base : RuleMatchState) :
    matchStatesWithBase leaf (.logical rules mode invert) metadata base =
      if invert then
        if isEmpty (logicalStates leaf rules mode metadata 0#4) then singleRuleMatchState base
        else PackedSet.empty
      else logicalStates leaf rules mode metadata base := by
  cases mode with
  | and =>
    simp only [matchStatesWithBase,emptyRuleMatchState_withBase]
    cases invert with
    | false =>
      simp only [Bool.false_eq_true,if_false,logicalStates]
      cases andStates leaf rules metadata base (singleRuleMatchState base) <;> rfl
    | true =>
      have he : isEmpty (logicalStates leaf rules .and metadata 0#4) =
          (andStates leaf rules metadata 0#4 (singleRuleMatchState 0#4)).isNone :=
        andStates_getD_isEmpty _ _ _ _ _ (isEmpty_singleRuleMatchState _)
      simp only [if_true,he]
      cases andStates leaf rules metadata 0#4 (singleRuleMatchState 0#4) <;> rfl
  | or =>
    simp only [matchStatesWithBase,emptyRuleMatchState_withBase]
    cases invert with
    | false =>
      have hs : orStates leaf rules metadata base PackedSet.empty =
          logicalStates leaf rules .or metadata base := rfl
      simp only [Bool.false_eq_true,if_false,hs]
      by_cases he : isEmpty (logicalStates leaf rules .or metadata base) = true
      · rw [if_pos he]
        exact (beq_iff_eq.mp he).symm
      · rw [if_neg he]
    | true => rfl

end RuleTree

lemma HeadlessRule.ruleSetItem_eq_none (rule : AbstractDefaultRule I J Empty) :
    rule.ruleSetItem = none := by
  cases rule.ruleSetItem with
  | none => rfl
  | some item => nomatch item

lemma HeadlessRule.contains_coreStates (rule : AbstractDefaultRule I J Empty)
    (metadata : InboundContext F A) (base x : RuleMatchState) :
    contains (rule.coreStates metadata base) x = true ↔
      (∀ it ∈ rule.items,RuleItem.Match it metadata.seen = true) ∧
        x = base ||| rule.groupBits metadata ∧
        ∀ g,rule.requiresGroup metadata g = true → has x g = true := by
  rw [rule.contains_coreStates]
  simp [AbstractDefaultRule.ruleSetStates,AbstractDefaultRule.matchRuleSet,
    HeadlessRule.ruleSetItem_eq_none rule]

lemma RuleSet.contains_matchStatesWithBase (rules : RuleSet I J) (metadata : InboundContext F A)
    (base x : RuleMatchState) :
    contains (rules.matchStatesWithBase metadata base) x = true ↔ ∃ rule ∈ rules,contains
        (HeadlessRule.matchStatesWithBase rule metadata.resetRuleMatchCache base) x = true := by
  rw [RuleSet.matchStatesWithBase,contains_foldl _ (fun rule y => contains
    (HeadlessRule.matchStatesWithBase rule metadata.resetRuleMatchCache base) y = true)]
  · simp
  · intro acc rule y
    simp

lemma RuleSetItem.contains_matchStatesWithBase (item : RuleSetItem I J)
    (metadata : InboundContext F A) (base x : RuleMatchState) :
    contains (item.matchStatesWithBase metadata base) x = true ↔
      ∃ ruleSet ∈ item.setList,∃ rule ∈ ruleSet,contains
        (HeadlessRule.matchStatesWithBase rule (item.nestedMetadata metadata) base) x = true := by
  rw [RuleSetItem.matchStatesWithBase,contains_foldl _ (fun ruleSet y => contains
    (RuleSet.matchStatesWithBase ruleSet (item.nestedMetadata metadata) base) y = true)]
  · have hr : (item.nestedMetadata metadata).resetRuleMatchCache =
        item.nestedMetadata metadata := rfl
    simp only [contains_empty,Bool.false_eq_true,false_or,RuleSet.contains_matchStatesWithBase,hr]
  · intro acc ruleSet y
    simp

end SingBoxAuth.RouteRule
