import SingBoxAuth.RuleStates
import SingBoxAuth.InboundContexts

/-! Evaluation of routing and DNS rules. A default rule tests its item groups and threads the state
of matched groups through its rule-sets; a logical rule combines the states of its children. The
evaluation of a default rule is brought to one equation, from which the rules' properties follow. -/
namespace SingBoxAuth.RouteRule
open PackedSet RuleMatchStateSet

/-- The interface every rule item implements. -/
class RuleItem (I F A : Type) where
  Match : I → InboundContext F A → Bool

/-- The interface of what yields match states: rule-sets, and the item that lists them. -/
class RuleStateMatcher (R F A : Type) where
  matchStatesWithBase : R → InboundContext F A → RuleMatchState → RuleMatchStateSet

variable {F A I J R : Type} [RuleItem I F A] [RuleItem J F A] [RuleStateMatcher R F A]

def matchAnyItem (items : List I) (metadata : InboundContext F A) : Bool :=
  items.any fun it => RuleItem.Match it metadata

/-- A default rule, its items grouped as the constructors group them. The items on destination
addresses, which alone can depend on a DNS response, have a type of their own. -/
structure AbstractDefaultRule (I J R : Type) where
  items : List I
  sourceAddressItems : List I
  sourcePortItems : List I
  destinationAddressItems : List I
  destinationIPCIDRItems : List J
  destinationPortItems : List I
  ruleSetItem : Option R
  invert : Bool

/-- One group of alternatives: the bit is set when one of the items matches. -/
def matchGroup (items : List I) (group : RuleGroup)
    (p : InboundContext F A × RuleMatchState) : InboundContext F A × RuleMatchState :=
  if items.isEmpty then p
  else (p.1.seen,if matchAnyItem items p.1.seen then p.2 ||| group.bit else p.2)

/-- The `ip_cidr` items, in the group they count for; they are not tried once it has matched. -/
def matchIPCIDR (items : List J) (counts : Bool) (group : RuleGroup)
    (p : InboundContext F A × RuleMatchState) : InboundContext F A × RuleMatchState :=
  if counts && !has p.2 group then
    (p.1.seen,if matchAnyItem items p.1.seen then p.2 ||| group.bit else p.2)
  else if counts then (p.1.seen,p.2)
  else p

def matchItems : List I → InboundContext F A → Option (InboundContext F A)
  | [], metadata => some metadata
  | item :: rest, metadata =>
    if RuleItem.Match item metadata.seen then matchItems rest metadata.seen else none

namespace AbstractDefaultRule

variable (r : AbstractDefaultRule I J R) (metadata : InboundContext F A)

/-- The test `len(r.allItems) == 0`: every item is also kept in one list over all groups. -/
def itemless : Bool :=
  r.items.isEmpty && r.sourceAddressItems.isEmpty && r.sourcePortItems.isEmpty &&
    r.destinationAddressItems.isEmpty && r.destinationIPCIDRItems.isEmpty &&
    r.destinationPortItems.isEmpty && r.ruleSetItem.isNone

def destinationIPCIDRMatchesSource : Bool :=
  !metadata.ignoreDestinationIPCIDRMatch && metadata.ipCIDRMatchSource &&
    !r.destinationIPCIDRItems.isEmpty

def destinationIPCIDRMatchesDestination : Bool :=
  !metadata.ignoreDestinationIPCIDRMatch && !metadata.ipCIDRMatchSource &&
    !r.destinationIPCIDRItems.isEmpty

def requiresSourceAddressMatch : Bool :=
  !r.sourceAddressItems.isEmpty || r.destinationIPCIDRMatchesSource metadata

def requiresDestinationAddressMatch : Bool :=
  !r.destinationAddressItems.isEmpty || r.destinationIPCIDRMatchesDestination metadata

def invertedFailure (base : RuleMatchState) : RuleMatchStateSet :=
  if r.invert then withBase emptyRuleMatchState base else PackedSet.empty

/-- The groups of the rule in turn, from the state it starts with. -/
def matchGroups (evaluationBase : RuleMatchState) : InboundContext F A × RuleMatchState :=
  let p := matchGroup r.sourceAddressItems .sourceAddress (metadata,evaluationBase)
  let p := matchIPCIDR r.destinationIPCIDRItems (r.destinationIPCIDRMatchesSource p.1)
    .sourceAddress p
  let p := matchGroup r.sourcePortItems .sourcePort p
  let p := matchGroup r.destinationAddressItems .destinationAddress p
  let p := matchIPCIDR r.destinationIPCIDRItems (r.destinationIPCIDRMatchesDestination p.1)
    .destinationAddress p
  matchGroup r.destinationPortItems .destinationPort p

/-- The filter on the states a rule returns: every group it has items of must have matched. -/
def allowed (state : RuleMatchState) : Bool :=
  if r.requiresSourceAddressMatch metadata && !has state .sourceAddress then false
  else if !r.sourcePortItems.isEmpty && !has state .sourcePort then false
  else if r.requiresDestinationAddressMatch metadata && !has state .destinationAddress then false
  else if !r.destinationPortItems.isEmpty && !has state .destinationPort then false
  else true

/-- The states of the included rule-sets, or the state reached where the rule includes none. -/
def matchRuleSet (baseState : RuleMatchState) : InboundContext F A × RuleMatchStateSet :=
  match r.ruleSetItem with
  | some item =>
    (metadata.seen,RuleStateMatcher.matchStatesWithBase item metadata.seen baseState)
  | none => (metadata,singleRuleMatchState baseState)

def matchStatesWithBase (inheritedBase : RuleMatchState) : RuleMatchStateSet :=
  if r.itemless then withBase emptyRuleMatchState inheritedBase
  else
    let evaluationBase := if r.invert then 0#4 else inheritedBase
    let p := r.matchGroups metadata evaluationBase
    match matchItems r.items p.1 with
    | none => r.invertedFailure inheritedBase
    | some metadata =>
      let q := r.matchRuleSet metadata p.2
      let stateSet := filter q.2 (r.allowed q.1)
      if isEmpty stateSet then r.invertedFailure inheritedBase
      else if r.invert then
        if q.1.ignoreDestinationIPCIDRMatch && stateSet == emptyRuleMatchState &&
            !q.1.didMatch && !r.destinationIPCIDRItems.isEmpty then
          withBase emptyRuleMatchState inheritedBase
        else PackedSet.empty
      else stateSet

def matchStates :
    RuleMatchStateSet :=
  r.matchStatesWithBase metadata 0#4

def Match : Bool :=
  !isEmpty (r.matchStates metadata)

end AbstractDefaultRule

inductive LogicalMode
  | and
  | or
  deriving DecidableEq, Repr

/-- Rules as trees: default rules under logical rules of any depth. -/
inductive RuleTree (D : Type)
  | default (rule : D)
  | logical (rules : List (RuleTree D)) (mode : LogicalMode) (invert : Bool)

namespace RuleTree

variable {D : Type}

/-- Induction with one case for each constructor. -/
@[elab_as_elim,induction_eliminator]
theorem induct {motive : RuleTree D → Prop} (default : ∀ rule,motive (.default rule))
    (logical : ∀ rules mode invert,(∀ rule ∈ rules,motive rule) →
      motive (.logical rules mode invert)) (t : RuleTree D) : motive t := by
  refine @RuleTree.rec D motive (fun rules => ∀ rule ∈ rules,motive rule) default logical ?_ ?_ t
  · intro rule hr
    cases hr
  · intro head tail hh ht rule hr
    rcases List.mem_cons.mp hr with rfl | hme
    · exact hh
    · exact ht rule hme

mutual

/-- `abstractLogicalRule.matchStatesWithBase`, with `leaf` for the default rules: each child is
evaluated on a copy of the metadata whose rule cache is reset. -/
def matchStatesWithBase (leaf : D → InboundContext F A → RuleMatchState → RuleMatchStateSet) :
    RuleTree D → InboundContext F A → RuleMatchState → RuleMatchStateSet
  | .default rule, metadata, base => leaf rule metadata base
  | .logical rules .and invert, metadata, base =>
    let evaluationBase := if invert then 0#4 else base
    match andStates leaf rules metadata evaluationBase
        (withBase emptyRuleMatchState evaluationBase) with
    | none => if invert then withBase emptyRuleMatchState base else PackedSet.empty
    | some stateSet => if invert then PackedSet.empty else stateSet
  | .logical rules .or invert, metadata, base =>
    let evaluationBase := if invert then 0#4 else base
    let stateSet := orStates leaf rules metadata evaluationBase PackedSet.empty
    if isEmpty stateSet then if invert then withBase emptyRuleMatchState base else PackedSet.empty
    else if invert then PackedSet.empty
    else stateSet

def andStates (leaf : D → InboundContext F A → RuleMatchState → RuleMatchStateSet) :
    List (RuleTree D) → InboundContext F A → RuleMatchState → RuleMatchStateSet →
      Option RuleMatchStateSet
  | [], _, _, stateSet => some stateSet
  | rule :: rest, metadata, evaluationBase, stateSet =>
    let nestedStateSet := matchStatesWithBase leaf rule metadata.resetRuleCache evaluationBase
    if isEmpty nestedStateSet then none
    else andStates leaf rest metadata evaluationBase (combine stateSet nestedStateSet)

def orStates (leaf : D → InboundContext F A → RuleMatchState → RuleMatchStateSet) :
    List (RuleTree D) → InboundContext F A → RuleMatchState → RuleMatchStateSet →
      RuleMatchStateSet
  | [], _, _, stateSet => stateSet
  | rule :: rest, metadata, evaluationBase, stateSet =>
    orStates leaf rest metadata evaluationBase
      (merge stateSet (matchStatesWithBase leaf rule metadata.resetRuleCache evaluationBase))

end

end RuleTree

/-- Headless rules, the rules a rule-set is made of, include no rule-sets themselves. -/
instance : RuleStateMatcher Empty F A where
  matchStatesWithBase := fun item => nomatch item

abbrev HeadlessRule (I J : Type) := RuleTree (AbstractDefaultRule I J Empty)

def HeadlessRule.matchStatesWithBase (rule : HeadlessRule I J) :
    InboundContext F A → RuleMatchState → RuleMatchStateSet :=
  RuleTree.matchStatesWithBase AbstractDefaultRule.matchStatesWithBase rule

abbrev RuleSet (I J : Type) := List (HeadlessRule I J)

def RuleSet.matchStatesWithBase (rules : RuleSet I J) (metadata : InboundContext F A)
    (base : RuleMatchState) : RuleMatchStateSet :=
  rules.foldl (fun stateSet rule =>
    merge stateSet (HeadlessRule.matchStatesWithBase rule metadata.resetRuleMatchCache base))
    PackedSet.empty

structure RuleSetItem (I J : Type) where
  setList : List (RuleSet I J)
  ipCidrMatchSource : Bool
  ipCidrAcceptEmpty : Bool

def RuleSetItem.nestedMetadata (item : RuleSetItem I J) (metadata : InboundContext F A) :
    InboundContext F A :=
  metadata.forRuleSet item.ipCidrMatchSource item.ipCidrAcceptEmpty

def RuleSetItem.matchStatesWithBase (item : RuleSetItem I J) (metadata : InboundContext F A)
    (base : RuleMatchState) : RuleMatchStateSet :=
  item.setList.foldl (fun stateSet ruleSet =>
    merge stateSet (ruleSet.matchStatesWithBase (item.nestedMetadata metadata) base))
    PackedSet.empty

instance : RuleStateMatcher (RuleSetItem I J) F A where
  matchStatesWithBase := RuleSetItem.matchStatesWithBase

/-- A default rule that can include rule-sets: a route rule or, with its own type, a DNS rule. -/
abbrev DefaultRule (I J : Type) := AbstractDefaultRule I J (RuleSetItem I J)

end SingBoxAuth.RouteRule
