import SingBoxAuth.DNSRules

/-! The evaluation of DNS rules on queries and on evaluated responses, written apart from that of
the abstract rules, and what the `invert` flag of a rule does to its result. -/
namespace SingBoxAuth.RouteRule
open PackedSet RuleMatchStateSet

variable {F A I J R : Type} [RuleItem I F A] [RuleItem J F A] [RuleStateMatcher R F A]

def DefaultDNSRule.matchStatesForMatch (r : DefaultDNSRule I J) (metadata : InboundContext F A) :
    RuleMatchStateSet :=
  if r.matchResponse then
    if metadata.dnsResponse.isNone then r.toAbstractDefaultRule.invertedFailure 0#4
    else r.toAbstractDefaultRule.matchStates
      { metadata with destinationAddressMatchFromResponse := true }
  else r.toAbstractDefaultRule.matchStates metadata

namespace DNSRule

mutual

/-- `LogicalDNSRule.matchStatesForMatch` over the rules below it, which are all DNS rules. -/
def matchStatesForMatch : DNSRule I J → InboundContext F A → RuleMatchStateSet
  | .default rule, metadata => rule.matchStatesForMatch metadata
  | .logical rules .and invert, metadata =>
    match andStatesForMatch rules metadata emptyRuleMatchState with
    | none => if invert then emptyRuleMatchState else PackedSet.empty
    | some stateSet => if invert then PackedSet.empty else stateSet
  | .logical rules .or invert, metadata =>
    let stateSet := orStatesForMatch rules metadata PackedSet.empty
    if isEmpty stateSet then if invert then emptyRuleMatchState else PackedSet.empty
    else if invert then PackedSet.empty
    else stateSet

def andStatesForMatch : List (DNSRule I J) → InboundContext F A → RuleMatchStateSet →
    Option RuleMatchStateSet
  | [], _, stateSet => some stateSet
  | rule :: rest, metadata, stateSet =>
    let nestedStateSet := matchStatesForMatch rule metadata.resetRuleCache
    if isEmpty nestedStateSet then none
    else andStatesForMatch rest metadata (combine stateSet nestedStateSet)

def orStatesForMatch : List (DNSRule I J) → InboundContext F A → RuleMatchStateSet →
    RuleMatchStateSet
  | [], _, stateSet => stateSet
  | rule :: rest, metadata, stateSet =>
    orStatesForMatch rest metadata
      (merge stateSet (matchStatesForMatch rule metadata.resetRuleCache))

end

def Match (rule : DNSRule I J) (metadata : InboundContext F A) : Bool :=
  !isEmpty (rule.matchStatesForMatch metadata)

end DNSRule

abbrev RouteRuleTree (I J : Type) := RuleTree (DefaultRule I J)

/-- `Match` of a tree of abstract rules: of a route rule, or of a headless rule. -/
def RuleTree.Match (rule : RuleTree (AbstractDefaultRule I J R)) (metadata : InboundContext F A) :
    Bool :=
  !isEmpty (rule.matchStatesWithBase AbstractDefaultRule.matchStatesWithBase metadata 0#4)

/-- The copy of a rule with the other value of its own `invert` flag. -/
def RuleTree.flipped {D : Type} (flip : D → D) : RuleTree D → RuleTree D
  | .default rule => .default (flip rule)
  | .logical rules mode invert => .logical rules mode !invert

def AbstractDefaultRule.flipped (r : AbstractDefaultRule I J R) : AbstractDefaultRule I J R :=
  { r with invert := !r.invert }

def DefaultDNSRule.flipped (r : DefaultDNSRule I J) : DefaultDNSRule I J :=
  { r with invert := !r.invert }

/-- The rule tests something: it is a logical rule, or a default rule that is not idle. -/
def RuleTree.tests {D : Type} (idle : D → Bool) : RuleTree D → Bool
  | .default rule => !idle rule
  | .logical _ _ _ => true

section evaluation

lemma DNSRule.matchStatesForMatch_eq
    {leaf : DefaultDNSRule I J → InboundContext F A → RuleMatchState → RuleMatchStateSet}
    (cond : DefaultDNSRule I J → Bool)
    (hl : ∀ r metadata,cond r = false → r.matchStatesForMatch metadata = leaf r metadata 0#4)
    (rule : DNSRule I J) (hru : RuleTree.anyDefault cond rule = false)
    (metadata : InboundContext F A) :
    rule.matchStatesForMatch metadata = RuleTree.matchStatesWithBase leaf rule metadata 0#4 := by
  induction rule using RuleTree.induct generalizing metadata with
  | default r => exact hl r metadata hru
  | logical rules mode invert ih =>
    have hs : ∀ stateSet,DNSRule.andStatesForMatch rules metadata stateSet =
          RuleTree.andStates leaf rules metadata 0#4 stateSet ∧
        DNSRule.orStatesForMatch rules metadata stateSet =
          RuleTree.orStates leaf rules metadata 0#4 stateSet := by
      change RuleTree.anyDefaultIn cond rules = false at hru
      induction rules with
      | nil => exact fun _ => ⟨rfl,rfl⟩
      | cons rule rest ihrest =>
        rw [RuleTree.anyDefaultIn,Bool.or_eq_false_iff] at hru
        have hre := ihrest (fun r hr => ih r (List.mem_cons_of_mem _ hr)) hru.2
        intro stateSet
        simp only [DNSRule.andStatesForMatch,DNSRule.orStatesForMatch,RuleTree.andStates,
          RuleTree.orStates,ih rule List.mem_cons_self hru.1,(hre _).1,(hre _).2,and_self]
    cases mode with
    | and =>
      simp only [DNSRule.matchStatesForMatch,RuleTree.matchStatesWithBase,ite_self,
        emptyRuleMatchState_withBase,(hs _).1]
      rfl
    | or =>
      simp only [DNSRule.matchStatesForMatch,RuleTree.matchStatesWithBase,ite_self,
        emptyRuleMatchState_withBase,(hs _).2]
      rfl

/-- A rule that has an action only, and one that also tests the query. -/
def plainRule (items : List (FlowItem ℕ ℕ)) : DefaultDNSRule (FlowItem ℕ ℕ) (AddressItem ℕ) where
  items := items
  sourceAddressItems := []
  sourcePortItems := []
  destinationAddressItems := []
  destinationIPCIDRItems := []
  destinationPortItems := []
  ruleSetItem := none
  invert := false
  matchResponse := false

def query : InboundContext ℕ ℕ := .fresh ⟨53,none,none,[]⟩

/-- Without match_response, the two evaluations of a DNS rule return the same states. -/
theorem DNSRule.matchStatesForMatch_refines (rule : DNSRule I J)
    (hrule : rule.withoutMatchResponse = true) (metadata : InboundContext F A) :
    isEmpty (rule.matchStatesForMatch metadata) = isEmpty (rule.matchStates metadata) ∧
      rule.matchStatesForMatch metadata = rule.matchStates metadata := by
  have hs : rule.matchStatesForMatch metadata = rule.matchStates metadata := by
    refine rule.matchStatesForMatch_eq (fun r => r.matchResponse) (fun r metadata hr => ?_) ?_
      metadata
    · rw [DefaultDNSRule.matchStatesForMatch,if_neg (by simp [hr])]
      rfl
    · simpa [DNSRule.withoutMatchResponse] using hrule
  exact ⟨congrArg isEmpty hs,hs⟩

theorem matchStatesForMatch_refines_plainRule :
    let rule : DNSRule (FlowItem ℕ ℕ) (AddressItem ℕ) :=
      .logical [.default (plainRule [⟨fun flow => flow.facts = 53⟩])] .or true
    rule.withoutMatchResponse = true ∧
      isEmpty (rule.matchStatesForMatch query) = isEmpty (rule.matchStates query) ∧
      rule.matchStatesForMatch query = rule.matchStates query :=
  ⟨rfl,DNSRule.matchStatesForMatch_refines _ rfl query⟩

end evaluation

section inversion

variable {metadata : InboundContext F A}

lemma AbstractDefaultRule.isEmpty_flipped (r : AbstractDefaultRule I J R)
    (hm : metadata.ignoreDestinationIPCIDRMatch = false) :
    isEmpty (r.matchStatesWithBase metadata 0#4) =
      if r.itemless then isEmpty (r.flipped.matchStatesWithBase metadata 0#4)
      else !isEmpty (r.flipped.matchStatesWithBase metadata 0#4) := by
  have hd : r.deferred metadata = false := by simp [deferred,hm]
  have hf : r.flipped.itemless = r.itemless ∧ r.flipped.deferred metadata = false ∧
      r.flipped.coreStates metadata 0#4 = r.coreStates metadata 0#4 := ⟨rfl,hd,rfl⟩
  rw [matchStatesWithBase_eq,matchStatesWithBase_eq,hf.1,hf.2.1,hf.2.2,hd,Bool.or_false]
  cases r.itemless with
  | true => rfl
  | false =>
    have hi : r.flipped.invert = !r.invert := rfl
    rw [hi]
    cases r.invert <;> cases hco : isEmpty (r.coreStates metadata 0#4) <;> simp [hco]

lemma RuleTree.isEmpty_logical_flipped {D : Type}
    (leaf : D → InboundContext F A → RuleMatchState → RuleMatchStateSet)
    (rules : List (RuleTree D)) (mode : LogicalMode) (invert : Bool) (metadata : InboundContext F A) :
    isEmpty (matchStatesWithBase leaf (.logical rules mode invert) metadata 0#4) =
      !isEmpty (matchStatesWithBase leaf (.logical rules mode !invert) metadata 0#4) := by
  rw [matchStatesWithBase_logical,matchStatesWithBase_logical]
  cases invert <;> cases hs : isEmpty (logicalStates leaf rules mode metadata 0#4) <;>
    simp [hs]

lemma RuleTree.match_flipped_iff (rule : RuleTree (AbstractDefaultRule I J R))
    (hm : metadata.ignoreDestinationIPCIDRMatch = false) :
    rule.Match metadata ≠ (rule.flipped AbstractDefaultRule.flipped).Match metadata ↔
      rule.tests AbstractDefaultRule.itemless = true := by
  cases rule with
  | default r =>
    have h := r.isEmpty_flipped hm
    simp only [Match,flipped,matchStatesWithBase,tests] at h ⊢
    rw [h]
    cases r.itemless <;> simp
  | logical rules mode invert =>
    have h := isEmpty_logical_flipped AbstractDefaultRule.matchStatesWithBase rules mode invert
      metadata
    simp only [Match,flipped,tests] at h ⊢
    simp [h]

/-- A DNS rule with match_response and without items tests whether there is a response. -/
def DefaultDNSRule.idle (metadata : InboundContext F A) (r : DefaultDNSRule I J) : Bool :=
  r.itemless && !(r.matchResponse && metadata.dnsResponse.isNone)

lemma RuleTree.anyDefault_false {D : Type} (rule : RuleTree D) :
    anyDefault (fun _ => false) rule = false := by
  induction rule with
  | default r => rfl
  | logical rules mode invert ih =>
    change anyDefaultIn (fun _ => false) rules = false
    induction rules with
    | nil => rfl
    | cons rule rest ihrest =>
      rw [anyDefaultIn,ih rule List.mem_cons_self,ihrest fun r hr => ih r (List.mem_cons_of_mem _ hr)]
      rfl

lemma DefaultDNSRule.isEmpty_flipped (r : DefaultDNSRule I J)
    (hm : metadata.ignoreDestinationIPCIDRMatch = false) :
    isEmpty (r.matchStatesForMatch metadata) =
      if r.idle metadata then isEmpty (r.flipped.matchStatesForMatch metadata)
      else !isEmpty (r.flipped.matchStatesForMatch metadata) := by
  have ha : r.flipped.toAbstractDefaultRule = r.toAbstractDefaultRule.flipped := rfl
  have hr : r.flipped.matchResponse = r.matchResponse := rfl
  rw [matchStatesForMatch,matchStatesForMatch,ha,hr,idle]
  cases r.matchResponse with
  | false => simpa [AbstractDefaultRule.matchStates] using r.toAbstractDefaultRule.isEmpty_flipped hm
  | true =>
    cases metadata.dnsResponse.isNone with
    | true =>
      cases hi : r.invert <;>
        simp [AbstractDefaultRule.invertedFailure,AbstractDefaultRule.flipped,hi]
    | false =>
      have hm' : ({ metadata with destinationAddressMatchFromResponse := true } :
          InboundContext F A).ignoreDestinationIPCIDRMatch = false := hm
      simpa [AbstractDefaultRule.matchStates] using r.toAbstractDefaultRule.isEmpty_flipped hm'

lemma DNSRule.match_flipped_iff (rule : DNSRule I J)
    (hm : metadata.ignoreDestinationIPCIDRMatch = false) :
    rule.Match metadata ≠ DNSRule.Match (rule.flipped DefaultDNSRule.flipped) metadata ↔
      rule.tests (DefaultDNSRule.idle metadata) = true := by
  cases rule with
  | default r =>
    have h := r.isEmpty_flipped hm
    simp only [Match,RuleTree.flipped,matchStatesForMatch,RuleTree.tests] at h ⊢
    rw [h]
    cases r.idle metadata <;> simp
  | logical rules mode invert =>
    have heq : ∀ rule : DNSRule I J,rule.matchStatesForMatch metadata =
        RuleTree.matchStatesWithBase (fun r metadata _ => r.matchStatesForMatch metadata) rule
          metadata 0#4 :=
      fun rule => rule.matchStatesForMatch_eq (fun _ => false) (fun _ _ _ => rfl)
        rule.anyDefault_false metadata
    have h := RuleTree.isEmpty_logical_flipped
      (fun r metadata _ => DefaultDNSRule.matchStatesForMatch r metadata) rules mode invert metadata
    simp only [Match,heq,RuleTree.flipped,RuleTree.tests] at h ⊢
    simp [h]

end inversion

end SingBoxAuth.RouteRule
