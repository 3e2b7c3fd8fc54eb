import SingBoxAuth.RuleMatching

/-! The items of DNS and headless rules. All but the items on destination addresses read only the
connection or query itself; those may also read the response under test and the two flags through
which a rule-set's options reach its `ip_cidr` items. -/
namespace SingBoxAuth.RouteRule

variable {F A : Type}

/-- An item on the query or connection itself: domain, port, network, source address and so on. -/
structure FlowItem (F A : Type) where
  test : Flow F A → Bool

instance : RuleItem (FlowItem F A) F A where
  Match item metadata := item.test metadata.flow

/-- An `ip_cidr` or `source_ip_cidr` item; `ipSet` is membership in the set of addresses. -/
structure IPCIDRItem (A : Type) where
  ipSet : A → Bool
  isSource : Bool

def IPCIDRItem.Match (item : IPCIDRItem A) (metadata : InboundContext F A) : Bool :=
  if item.isSource || metadata.ipCIDRMatchSource then metadata.flow.source.any item.ipSet
  else if metadata.destinationAddressMatchFromResponse then
    let addresses := metadata.dnsResponseAddressesForMatch
    if addresses.isEmpty then metadata.ipCIDRAcceptEmpty else addresses.any item.ipSet
  else
    match metadata.flow.destination with
    | some address => item.ipSet address
    | none =>
      let addresses := metadata.flow.destinationAddresses
      if !addresses.isEmpty then addresses.any item.ipSet else metadata.ipCIDRAcceptEmpty

structure IPIsPrivateItem (A : Type) where
  isPublicAddr : A → Bool
  isSource : Bool

def IPIsPrivateItem.Match (item : IPIsPrivateItem A) (metadata : InboundContext F A) : Bool :=
  if item.isSource then metadata.flow.source.any fun address => !item.isPublicAddr address
  else if metadata.destinationAddressMatchFromResponse then
    metadata.dnsResponseAddressesForMatch.any fun address => !item.isPublicAddr address
  else
    match metadata.flow.destination with
    | some address => !item.isPublicAddr address
    | none => metadata.flow.destinationAddresses.any fun address => !item.isPublicAddr address

def ipAcceptAnyMatch (metadata : InboundContext F A) : Bool :=
  if metadata.destinationAddressMatchFromResponse then
    !metadata.dnsResponseAddressesForMatch.isEmpty
  else !metadata.flow.destinationAddresses.isEmpty

/-- The items on destination addresses, kept in `destinationIPCIDRItems`. -/
inductive AddressItem (A : Type)
  | ipCIDR (ipSet : A → Bool)
  | ipIsPrivate (isPublicAddr : A → Bool)
  | ipAcceptAny

def AddressItem.Match : AddressItem A → InboundContext F A → Bool
  | .ipCIDR ipSet, metadata => IPCIDRItem.Match ⟨ipSet,false⟩ metadata
  | .ipIsPrivate isPublicAddr, metadata => IPIsPrivateItem.Match ⟨isPublicAddr,false⟩ metadata
  | .ipAcceptAny, metadata => ipAcceptAnyMatch metadata

instance : RuleItem (AddressItem A) F A where
  Match := AddressItem.Match

end SingBoxAuth.RouteRule
