import Mathlib.Data.List.Basic

/-! The metadata a routing or DNS rule is evaluated on, and the DNS messages it may carry. -/
namespace SingBoxAuth.RouteRule

/-- A parameter of an HTTPS record. A hint is `none` where its bytes are no address. -/
inductive SVCBValue (A : Type)
  | ipv4Hint (hint : List (Option A))
  | ipv6Hint (hint : List (Option A))
  | other

/-- The contents of a resource record, as far as the program tells records apart. -/
inductive RecordData (A : Type)
  | a (address : Option A)
  | aaaa (address : Option A)
  | https (values : List (SVCBValue A))
  | soa (minttl : ℕ)
  /-- The pseudo-record of an EDNS message, whose time to live holds its version and flags. One that
  the client builds itself is marked. -/
  | opt (rebuilt : Bool)
  | other

structure DNSRecord (A : Type) where
  ttl : ℕ
  data : RecordData A

structure DNSMsg (A : Type) where
  id : ℕ
  rcode : ℕ
  answer : List (DNSRecord A)
  ns : List (DNSRecord A)
  extra : List (DNSRecord A)

def rcodeSuccess : ℕ := 0

def rcodeNameError : ℕ := 3

variable {F A : Type}

def SVCBValue.addresses : SVCBValue A → List A
  | .ipv4Hint hint => hint.filterMap id
  | .ipv6Hint hint => hint.filterMap id
  | .other => []

def DNSRecord.addresses (record : DNSRecord A) : List A :=
  match record.data with
  | .a address => address.toList
  | .aaaa address => address.toList
  | .https values => values.flatMap SVCBValue.addresses
  | .soa _ => []
  | .opt _ => []
  | .other => []

def dnsResponseAddresses : Option (DNSMsg A) → List A
  | none => []
  | some response =>
    if response.rcode ≠ rcodeSuccess then [] else response.answer.flatMap DNSRecord.addresses

/-- What is known of the connection or query itself. `facts` stands for the fields that rule items
read and rule evaluation never writes: domain, ports, network, process and so on. -/
structure Flow (F A : Type) where
  facts : F
  source : Option A
  destination : Option A
  destinationAddresses : List A

/-- The fields of `InboundContext` that rule evaluation reads. Everything after `flow` is written
while rules are evaluated. -/
structure InboundContext (F A : Type) where
  flow : Flow F A
  dnsResponse : Option (DNSMsg A)
  destinationAddressMatchFromResponse : Bool
  ipCIDRMatchSource : Bool
  ipCIDRAcceptEmpty : Bool
  sourceAddressMatch : Bool
  sourcePortMatch : Bool
  destinationAddressMatch : Bool
  destinationPortMatch : Bool
  didMatch : Bool
  ignoreDestinationIPCIDRMatch : Bool

namespace InboundContext

variable (c : InboundContext F A)

def resetRuleMatchCache : InboundContext F A :=
  { c with
    sourceAddressMatch := false
    sourcePortMatch := false
    destinationAddressMatch := false
    destinationPortMatch := false
    didMatch := false }

def resetRuleCache : InboundContext F A :=
  { c with ipCIDRMatchSource := false, ipCIDRAcceptEmpty := false }.resetRuleMatchCache

/-- The copy of the metadata a rule-set is evaluated on: the options of the `rule_set` item travel
in its two flags. -/
def forRuleSet (matchSource acceptEmpty : Bool) : InboundContext F A :=
  { c.resetRuleMatchCache with
    ipCIDRMatchSource := matchSource
    ipCIDRAcceptEmpty := acceptEmpty }

def answered (response : Option (DNSMsg A)) : InboundContext F A :=
  { c with dnsResponse := response, destinationAddressMatchFromResponse := true }

/-- The context before the lookup, in which items on destination addresses are left out. -/
def ignoringDestinationIPCIDR : InboundContext F A :=
  { c with ignoreDestinationIPCIDRMatch := true }

def dnsResponseAddressesForMatch : List A :=
  dnsResponseAddresses c.dnsResponse

def seen : InboundContext F A :=
  { c with didMatch := true }

/-- The context of a query or connection before any rule has been evaluated on it. -/
def fresh (flow : Flow F A) : InboundContext F A where
  flow := flow
  dnsResponse := none
  destinationAddressMatchFromResponse := false
  ipCIDRMatchSource := false
  ipCIDRAcceptEmpty := false
  sourceAddressMatch := false
  sourcePortMatch := false
  destinationAddressMatch := false
  destinationPortMatch := false
  didMatch := false
  ignoreDestinationIPCIDRMatch := false

@[simp]
lemma resetRuleMatchCache_resetRuleMatchCache :
    c.resetRuleMatchCache.resetRuleMatchCache = c.resetRuleMatchCache := rfl

@[simp]
lemma resetRuleCache_resetRuleCache : c.resetRuleCache.resetRuleCache = c.resetRuleCache := rfl

@[simp]
lemma resetRuleMatchCache_resetRuleCache :
    c.resetRuleMatchCache.resetRuleCache = c.resetRuleCache := rfl

@[simp]
lemma seen_resetRuleMatchCache : c.seen.resetRuleMatchCache = c.resetRuleMatchCache := rfl

@[simp]
lemma seen_seen : c.seen.seen = c.seen := rfl

end InboundContext

end SingBoxAuth.RouteRule
