import SingBoxAuth.RuleEvaluation
import SingBoxAuth.RuleItems

/-! DNS rules in legacy mode. Before the lookup a rule is matched with its items on destination
addresses left out; afterwards the response is tested against the whole rule. -/
namespace SingBoxAuth.RouteRule
open PackedSet RuleMatchStateSet

variable {F A I J : Type} [RuleItem I F A] [RuleItem J F A]

/-- A default DNS rule: a default rule, and whether it matches evaluated responses. -/
structure DefaultDNSRule (I J : Type) extends AbstractDefaultRule I J (RuleSetItem I J) where
  matchResponse : Bool

abbrev DNSRule (I J : Type) := RuleTree (DefaultDNSRule I J)

namespace DNSRule

/-- The evaluation `DefaultDNSRule` and `LogicalDNSRule` inherit from the abstract rules. -/
def matchStates (rule : DNSRule I J) (metadata : InboundContext F A) : RuleMatchStateSet :=
  RuleTree.matchStatesWithBase
    (fun r : DefaultDNSRule I J => r.toAbstractDefaultRule.matchStatesWithBase) rule metadata 0#4

def legacyPreMatch (rule : DNSRule I J) (metadata : InboundContext F A) : Bool :=
  match rule with
  | .default r =>
    if r.matchResponse then false
    else !isEmpty (matchStates (.default r) metadata.ignoringDestinationIPCIDR)
  | .logical rules mode invert =>
    !isEmpty (matchStates (.logical rules mode invert) metadata.ignoringDestinationIPCIDR)

def matchAddressLimit (rule : DNSRule I J) (metadata : InboundContext F A)
    (response : Option (DNSMsg A)) : Bool :=
  !isEmpty (matchStates rule (metadata.answered response))

end DNSRule

namespace RuleTree

variable {D : Type}

mutual

/-- Whether some default rule of the tree meets the condition, at any depth. -/
def anyDefault (cond : D → Bool) : RuleTree D → Bool
  | .default rule => cond rule
  | .logical rules _ _ => anyDefaultIn cond rules

/-- The loop of `HasHeadlessRule` and of `LogicalDNSRule.WithAddressLimit`. -/
def anyDefaultIn (cond : D → Bool) : List (RuleTree D) → Bool
  | [] => false
  | rule :: rest => anyDefault cond rule || anyDefaultIn cond rest

end

end RuleTree

/-- `ContainsIPCIDRRule` of the metadata a rule-set is given when it is built from its rules. -/
def RuleSet.containsIPCIDRRule (rules : RuleSet I J) : Bool :=
  RuleTree.anyDefaultIn (fun r => !r.destinationIPCIDRItems.isEmpty) rules

def RuleSetItem.containsDestinationIPCIDRRule (item : RuleSetItem I J) : Bool :=
  if item.ipCidrMatchSource then false
  else item.setList.any fun ruleSet => RuleSet.containsIPCIDRRule ruleSet

def DefaultDNSRule.withAddressLimit (r : DefaultDNSRule I J) : Bool :=
  !r.destinationIPCIDRItems.isEmpty ||
    r.ruleSetItem.any RuleSetItem.containsDestinationIPCIDRRule

def DNSRule.withAddressLimit (rule : DNSRule I J) : Bool :=
  RuleTree.anyDefault DefaultDNSRule.withAddressLimit rule

def DNSRule.withoutMatchResponse (rule : DNSRule I J) : Bool :=
  !RuleTree.anyDefault (fun r => r.matchResponse) rule

end SingBoxAuth.RouteRule
