import SingBoxAuth.DNSClient
import SingBoxAuth.DNSRules
import SingBoxAuth.Transitions

/-! The DNS router in legacy mode: it goes through the rules, asks the client for each rule that
matches, and goes on to the next where the rule rejects the response. -/
namespace SingBoxAuth.DNSExchange
open RouteRule Transitions

variable {F A : Type}

structure RouteOptions where
  strategy : DomainStrategy
  disableCache : Bool
  rewriteTTL : Option ℕ
  clientSubnet : Option Subnet

inductive DNSAction (A : Type)
  | route (server : Tag) (options : RouteOptions)
  | routeOptions (options : RouteOptions)
  | reject (drop : Bool)
  | predefined (rcode : ℕ) (answer ns extra : List (DNSRecord A))
  | other

structure RoutedRule (F A : Type) where
  rule : DNSRule (FlowItem F A) (AddressItem A)
  action : DNSAction A

structure Router (F A : Type) where
  rules : List (RoutedRule F A)
  /-- The servers, with whether each is a fake-ip server. -/
  transports : Tag → Option Bool
  defaultServer : Tag
  defaultDomainStrategy : DomainStrategy
  client : Client

def RouteOptions.apply (o : RouteOptions) (options : DNSQueryOptions) : DNSQueryOptions :=
  { options with
    strategy := if o.strategy ≠ .asIS then o.strategy else options.strategy
    disableCache := o.disableCache || options.disableCache
    rewriteTTL := o.rewriteTTL.or options.rewriteTTL
    clientSubnet := o.clientSubnet.or options.clientSubnet }

def forRule (metadata : InboundContext F A) : InboundContext F A :=
  { metadata.resetRuleCache with destinationAddressMatchFromResponse := false }

/-- Where the rules lead a query: to the default server, to a rule's server with the rules that
are left, or to a rule that answers by itself. -/
inductive Matched (F A : Type)
  | default (options : DNSQueryOptions)
  | route (rule : RoutedRule F A) (server : Tag) (options : DNSQueryOptions)
      (rest : List (RoutedRule F A))
  | reject (rule : RoutedRule F A) (drop : Bool)
  | predefined (rule : RoutedRule F A) (rcode : ℕ) (answer ns extra : List (DNSRecord A))

namespace Router

variable (r : Router F A)

def matchDNS (metadata : InboundContext F A) (allowFakeIP isAddressQuery : Bool) :
    List (RoutedRule F A) → DNSQueryOptions → Matched F A
  | [], options => .default options
  | currentRule :: rest, options =>
    if currentRule.rule.withAddressLimit && !isAddressQuery then
      matchDNS metadata allowFakeIP isAddressQuery rest options
    else if currentRule.rule.legacyPreMatch (forRule metadata) then
      match currentRule.action with
      | .route server o =>
        match r.transports server with
        | none => matchDNS metadata allowFakeIP isAddressQuery rest options
        | some isFakeIP =>
          if isFakeIP && !allowFakeIP then
            matchDNS metadata allowFakeIP isAddressQuery rest options
          else .route currentRule server
            (RouteOptions.apply { o with disableCache := isFakeIP || o.disableCache } options) rest
      | .routeOptions o => matchDNS metadata allowFakeIP isAddressQuery rest (o.apply options)
      | .reject drop => .reject currentRule drop
      | .predefined rcode answer ns extra => .predefined currentRule rcode answer ns extra
      | .other => matchDNS metadata allowFakeIP isAddressQuery rest options
    else matchDNS metadata allowFakeIP isAddressQuery rest options

def withDefaultStrategy (options : DNSQueryOptions) : DNSQueryOptions :=
  if options.strategy = .asIS then { options with strategy := r.defaultDomainStrategy }
  else options

end Router

def addressLimitResponseCheck (rule : DNSRule (FlowItem F A) (AddressItem A))
    (metadata : InboundContext F A) : Option (DNSMsg A → Bool) :=
  if rule.withAddressLimit then some fun response => rule.matchAddressLimit metadata (some response)
  else none

variable {metadata : InboundContext F A} {options : DNSQueryOptions} {rule : RoutedRule F A}

lemma Router.matchDNS_suffix (r : Router F A) {allowFakeIP isAddressQuery : Bool}
    {rules rest : List (RoutedRule F A)} {options' : DNSQueryOptions} {server : Tag}
    (h : r.matchDNS metadata allowFakeIP isAddressQuery rules options =
      .route rule server options' rest) : (rule :: rest) <:+ rules := by
  induction rules generalizing options with
  | nil => cases h
  | cons currentRule tail ih =>
    have hs : ∀ o,r.matchDNS metadata allowFakeIP isAddressQuery tail o =
        .route rule server options' rest → (rule :: rest) <:+ (currentRule :: tail) :=
      fun o ho => (ih ho).trans (List.suffix_cons _ _)
    rw [matchDNS] at h
    split at h
    · exact hs _ h
    split at h
    · split at h
      · split at h
        · exact hs _ h
        · split at h
          · exact hs _ h
          · cases h
            exact List.suffix_refl _
      · exact hs _ h
      · cases h
      · cases h
      · exact hs _ h
    · exact hs _ h

lemma Router.matchDNS_rest (r : Router F A) {allowFakeIP isAddressQuery : Bool}
    {rules rest : List (RoutedRule F A)} {options' : DNSQueryOptions} {server : Tag}
    (h : r.matchDNS metadata allowFakeIP isAddressQuery rules options =
      .route rule server options' rest) : rest.length < rules.length :=
  (r.matchDNS_suffix h).length_le

inductive RouterError
  | client (err : ClientError)
  | drop
  | rejected
  | emptyResult

def rcodeRefused : ℕ := 5

def QueryType.isAddress : QueryType → Bool
  | .a => true
  | .aaaa => true
  | .https => true
  | .other _ => false

def isAddressQuery (message : Query) : Bool :=
  message.questions.any fun question => question.qtype.isAddress

structure Outcome (F A R : Type) where
  rule : Option (RoutedRule F A)
  result : Except RouterError R

def clientResult {R : Type} (result : Except ClientError R) : Except RouterError R :=
  result.mapError .client

def rejected {R : Type} : Except ClientError R → Bool
  | .error .responseRejectedCached => true
  | .error .responseRejected => true
  | _ => false

namespace Router

variable (r : Router F A)

/-- The loop of `Exchange`, the `n`-th time round and with the rules that are left. -/
def exchangeFrom (metadata : InboundContext F A) (message : Query) (options : DNSQueryOptions)
    (weather : ℕ → Weather A) (n : ℕ) (cache : Cache A) (rules : List (RoutedRule F A)) :
    Cache A × Outcome F A (DNSMsg A) :=
  match h : r.matchDNS metadata true (isAddressQuery message) rules options with
  | .default dnsOptions =>
    let exchanged := r.client.exchange cache (weather n) r.defaultServer message
      (r.withDefaultStrategy dnsOptions) none
    (exchanged.1,⟨none,clientResult exchanged.2⟩)
  | .reject rule drop =>
    (cache,⟨some rule,if drop then .error .drop
      else .ok (fixedResponseStatus message.id rcodeRefused)⟩)
  | .predefined rule rcode answer ns extra =>
    (cache,⟨some rule,.ok ⟨message.id,rcode,answer,ns,extra⟩⟩)
  | .route rule server dnsOptions rest =>
    let responseCheck := addressLimitResponseCheck rule.rule (forRule metadata)
    let exchanged := r.client.exchange cache (weather n) server message
      (r.withDefaultStrategy dnsOptions) responseCheck
    if responseCheck.isSome && rejected exchanged.2 then
      exchangeFrom metadata message options weather (n + 1) exchanged.1 rest
    else (exchanged.1,⟨some rule,clientResult exchanged.2⟩)
termination_by rules.length
decreasing_by exact r.matchDNS_rest h

def exchange (metadata : InboundContext F A) (message : Query) (options : DNSQueryOptions)
    (weather : ℕ → Weather A) (cache : Cache A) : Cache A × Outcome F A (DNSMsg A) :=
  if message.questions.length ≠ 1 then
    (cache,⟨none,.ok (fixedResponseStatus message.id rcodeFormatError)⟩)
  else
    match options.transport with
    | some server =>
      let exchanged := r.client.exchange cache (weather 0) server message
        (r.withDefaultStrategy options) none
      (exchanged.1,⟨none,clientResult exchanged.2⟩)
    | none => r.exchangeFrom metadata message options weather 0 cache r.rules

end Router

def DNSAction.strategy : DNSAction A → Option DomainStrategy
  | .route _ options => some options.strategy
  | .routeOptions options => some options.strategy
  | _ => none

/-- What leads to a match: a rule of the list that matches before the lookup, and strategies that
are in play. -/
def Matched.From (rules : List (RoutedRule F A)) (metadata : InboundContext F A)
    (inPlay : DomainStrategy → Prop) : Matched F A → Prop
  | .default options => inPlay options.strategy
  | .route rule server options rest =>
    rule ∈ rules ∧ rule.rule.legacyPreMatch (forRule metadata) = true ∧
      (∃ o, rule.action = .route server o) ∧ (∀ x ∈ rest, x ∈ rules) ∧ inPlay options.strategy
  | .reject rule drop =>
    rule ∈ rules ∧ rule.rule.legacyPreMatch (forRule metadata) = true ∧ rule.action = .reject drop
  | .predefined rule rcode answer ns extra =>
    rule ∈ rules ∧ rule.rule.legacyPreMatch (forRule metadata) = true ∧
      rule.action = .predefined rcode answer ns extra

lemma Matched.From.cons {rules : List (RoutedRule F A)} {inPlay : DomainStrategy → Prop}
    {matched : Matched F A} (h : matched.From rules metadata inPlay) (rule : RoutedRule F A) :
    matched.From (rule :: rules) metadata inPlay := by
  cases matched with
  | default options => exact h
  | route found server options rest =>
    obtain ⟨hme,hp,ha,hr,hs⟩ := h
    exact ⟨.tail _ hme,hp,ha,fun x hx => .tail _ (hr x hx),hs⟩
  | reject found drop => exact ⟨.tail _ h.1,h.2⟩
  | predefined found rcode answer ns extra => exact ⟨.tail _ h.1,h.2⟩

lemma RouteOptions.apply_strategy {inPlay : DomainStrategy → Prop} {o : RouteOptions}
    (ho : inPlay o.strategy) (hop : inPlay options.strategy) :
    inPlay (o.apply options).strategy := by
  rw [apply]
  dsimp only
  split
  · exact ho
  · exact hop

theorem Router.matchDNS_from (r : Router F A) (metadata : InboundContext F A)
    (allowFakeIP isAddressQuery : Bool) (inPlay : DomainStrategy → Prop)
    (rules : List (RoutedRule F A))
    (hr : ∀ rule ∈ rules,∀ s,rule.action.strategy = some s → inPlay s)
    (options : DNSQueryOptions) (hop : inPlay options.strategy) :
    (r.matchDNS metadata allowFakeIP isAddressQuery rules options).From rules metadata inPlay := by
  induction rules generalizing options with
  | nil => exact hop
  | cons currentRule rest ih =>
    have hn : ∀ o : DNSQueryOptions,inPlay o.strategy →
        (r.matchDNS metadata allowFakeIP isAddressQuery rest o).From (currentRule :: rest)
          metadata inPlay := by
      intro o ho
      exact (ih (fun rule hru => hr rule (.tail _ hru)) o ho).cons currentRule
    have how := hr currentRule (.head _)
    rw [matchDNS]
    split
    · exact hn options hop
    split
    · rename_i hp
      split
      · rename_i server o ha
        have ho : inPlay o.strategy := how _ (by rw [ha]; rfl)
        split
        · exact hn options hop
        · split
          · exact hn options hop
          · exact ⟨.head _,hp,⟨o,ha⟩,fun x hx => .tail _ hx,RouteOptions.apply_strategy ho hop⟩
      · rename_i o ha
        have ho : inPlay o.strategy := how _ (by rw [ha]; rfl)
        exact hn _ (RouteOptions.apply_strategy ho hop)
      · rename_i drop ha
        exact ⟨.head _,hp,ha⟩
      · rename_i rcode answer ns extra ha
        exact ⟨.head _,hp,ha⟩
      · exact hn options hop
    · exact hn options hop

/-! Deliveries under address-limited rules. -/

lemma addressLimitResponseCheck_eq_some (hl : rule.rule.withAddressLimit = true)
    (metadata : InboundContext F A) :
    addressLimitResponseCheck rule.rule (forRule metadata) =
      some fun response => rule.rule.matchAddressLimit (forRule metadata) (some response) := by
  rw [addressLimitResponseCheck,if_pos hl]

namespace Router

variable (r : Router F A)

def exchangeTurn (metadata : InboundContext F A) (message : Query) (options : DNSQueryOptions)
    (weather : ℕ → Weather A) (n : ℕ) (cache : Cache A) :
    Matched F A → Cache A × Outcome F A (DNSMsg A)
  | .default dnsOptions =>
    let exchanged := r.client.exchange cache (weather n) r.defaultServer message
      (r.withDefaultStrategy dnsOptions) none
    (exchanged.1,⟨none,clientResult exchanged.2⟩)
  | .reject rule drop =>
    (cache,⟨some rule,if drop then .error .drop
      else .ok (fixedResponseStatus message.id rcodeRefused)⟩)
  | .predefined rule rcode answer ns extra =>
    (cache,⟨some rule,.ok ⟨message.id,rcode,answer,ns,extra⟩⟩)
  | .route rule server dnsOptions rest =>
    let responseCheck := addressLimitResponseCheck rule.rule (forRule metadata)
    let exchanged := r.client.exchange cache (weather n) server message
      (r.withDefaultStrategy dnsOptions) responseCheck
    if responseCheck.isSome && rejected exchanged.2 then
      r.exchangeFrom metadata message options weather (n + 1) exchanged.1 rest
    else (exchanged.1,⟨some rule,clientResult exchanged.2⟩)

lemma exchangeFrom_eq (metadata : InboundContext F A) (message : Query)
    (options : DNSQueryOptions) (weather : ℕ → Weather A) (n : ℕ) (cache : Cache A)
    (rules : List (RoutedRule F A)) :
    r.exchangeFrom metadata message options weather n cache rules =
      r.exchangeTurn metadata message options weather n cache
        (r.matchDNS metadata true (isAddressQuery message) rules options) := by
  rw [exchangeFrom]
  split <;> rename_i h <;> rw [h] <;> rfl

end Router

/-! Runs of calls. -/

def lowRule : RoutedRule Bool ℕ where
  rule := .default
    { items := [⟨fun flow => flow.facts⟩], sourceAddressItems := [], sourcePortItems := []
      destinationAddressItems := [], destinationIPCIDRItems := [.ipCIDR (fun a => decide (a < 100))]
      destinationPortItems := [], ruleSetItem := none, invert := false, matchResponse := false }
  action := .route "local" ⟨.asIS,false,none,none⟩

def lowRouter (independentCache : Bool) : Router Bool ℕ where
  rules := [lowRule]
  transports := fun _ => some false
  defaultServer := "local"
  defaultDomainStrategy := .asIS
  client := ⟨false,false,independentCache,none,false⟩

def queryMetadata (matching : Bool) : InboundContext Bool ℕ := .fresh ⟨matching,none,none,[]⟩

def plainOptions : DNSQueryOptions := ⟨none,.asIS,.asIS,false,none,none⟩

def addressQuestion : Question := ⟨"example.com.",.a,Client.classINET⟩

def answering (address : ℕ) (_ : ℕ) : Weather ℕ :=
  ⟨some 30,false,.message ⟨0,rcodeSuccess,[⟨60,.a (some address)⟩],[],[]⟩⟩

def addressResponse (ttl address : ℕ) : DNSMsg ℕ :=
  ⟨7,rcodeSuccess,[⟨ttl,.a (some address)⟩],[],[]⟩

end SingBoxAuth.DNSExchange
