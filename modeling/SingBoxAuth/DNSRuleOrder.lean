import SingBoxAuth.DNSRouting

/-! Which rule decides a query in legacy mode: the first one that has an answer. -/
namespace SingBoxAuth.DNSExchange
open RouteRule

variable {F A : Type}

def Reply.response (id : ℕ) : Reply A → Option (DNSMsg A)
  | .message response => some response
  | .rcodeError rcode => some (fixedResponseStatus id rcode)
  | .failed => none

def DNSAction.server : DNSAction A → Option Tag
  | .route server _ => some server
  | _ => none

namespace Client

variable {c : Client} {message : Query} {question : Question}

lemma exchange_uncached (hca : c.disableCache = true) (hqu : message.questions = [question])
    (cache : Cache A) (w : Weather A) (server : Tag) (options : DNSQueryOptions)
    (check : Option (DNSMsg A → Bool)) :
    c.exchange cache w server message options check =
      if strategyRejects question.qtype options.strategy then
        (cache,.ok (fixedResponseStatus message.id rcodeSuccess))
      else match w.reply.response message.id with
        | none => (cache,.error .failed)
        | some response =>
          c.deliver cache server question message.id (c.requestOPT message options) options true
            check response := by
  simp only [exchange,hqu,hca,Bool.or_true,Bool.true_or,if_true,exchangeUpstream,
    Bool.not_true,Bool.false_and,Bool.false_eq_true,if_false]
  cases w.reply <;> rfl

lemma deliver_uncached (cache : Cache A) (server : Tag) (id : ℕ) (edns : Option ℕ)
    (options : DNSQueryOptions)
    (check : Option (DNSMsg A → Bool)) (response : DNSMsg A) :
    (c.deliver cache server question id edns options true check response).1 = cache := by
  rw [deliver]
  split <;> rfl

lemma exchange_uncached_cache (hca : c.disableCache = true)
    (hqu : message.questions = [question]) (cache : Cache A) (w : Weather A) (server : Tag)
    (options : DNSQueryOptions) (check : Option (DNSMsg A → Bool)) :
    (c.exchange cache w server message options check).1 = cache := by
  rw [exchange_uncached hca hqu]
  split
  · rfl
  · split
    · rfl
    · exact deliver_uncached cache server _ _ options check _

def refuses (check : Option (DNSMsg A → Bool)) (response : DNSMsg A) : Bool :=
  check.any fun check => !(cacheable response && check response)

lemma rejected_deliver (cache : Cache A) (server : Tag) (id : ℕ) (edns : Option ℕ)
    (options : DNSQueryOptions)
    (check : Option (DNSMsg A → Bool)) (response : DNSMsg A) :
    rejected (c.deliver cache server question id edns options true check response).2 =
      refuses check response := by
  rw [deliver,← refuses]
  cases refuses check response <;> rfl

lemma rejected_exchange (hca : c.disableCache = true)
    (hqu : message.questions = [question]) (cache : Cache A) (w : Weather A) (server : Tag)
    (options : DNSQueryOptions) (check : Option (DNSMsg A → Bool)) :
    rejected (c.exchange cache w server message options check).2 =
      (!strategyRejects question.qtype options.strategy &&
        (w.reply.response message.id).any (refuses check)) := by
  rw [exchange_uncached hca hqu]
  cases strategyRejects question.qtype options.strategy with
  | true => rfl
  | false =>
    cases w.reply.response message.id with
    | none => rfl
    | some response => exact rejected_deliver cache server message.id _ options check response

end Client

/-- The rule is for the query: it passes the match before the lookup, and one with an address limit
is asked for addresses. -/
def RoutedRule.applies (metadata : InboundContext F A) (message : Query)
    (rule : RoutedRule F A) : Bool :=
  (!rule.rule.withAddressLimit || isAddressQuery message) &&
    rule.rule.legacyPreMatch (forRule metadata)

def Router.passes (metadata : InboundContext F A) (isAddressQuery : Bool)
    (rule : RoutedRule F A) : Bool :=
  (!rule.rule.withAddressLimit || isAddressQuery) && rule.rule.legacyPreMatch (forRule metadata)

lemma Router.passes_eq (metadata : InboundContext F A) (message : Query) (rule : RoutedRule F A) :
    passes metadata (isAddressQuery message) rule = rule.applies metadata message := rfl

/-- What the rules before some rule have done: how many queries they made, and the options they
set since the last of these. -/
structure Position where
  turn : ℕ
  options : DNSQueryOptions

section

variable (r : Router F A) (metadata : InboundContext F A) (message : Query)
  (options : DNSQueryOptions) (weather : ℕ → Weather A)

/-- The position after a rule that does not decide. Each query starts again from the options of
the call. -/
def Position.advance (p : Position) (rule : RoutedRule F A) : Position :=
  if rule.applies metadata message then
    match rule.action with
    | .route _ _ => ⟨p.turn + 1,options⟩
    | .routeOptions o => ⟨p.turn,o.apply p.options⟩
    | _ => p
  else p

def Position.at (rules : List (RoutedRule F A)) (i : ℕ) : Position :=
  (rules.take i).foldl (Position.advance metadata message options) ⟨0,options⟩

namespace Router

def queryOptions (p : Position) (server : Tag) (o : RouteOptions) : DNSQueryOptions :=
  r.withDefaultStrategy (RouteOptions.apply
    { o with disableCache := (r.transports server).getD false || o.disableCache } p.options)

/-- The rule decides the query: it is for the query and answers by itself, or routes it and has no
address limit, or a strategy that rules the query out, or a server that fails or answers with
success or a name error what the rule accepts. -/
def decides (p : Position) (rule : RoutedRule F A) : Bool :=
  rule.applies metadata message &&
    match rule.action with
    | .reject _ => true
    | .predefined _ _ _ _ => true
    | .route server o =>
      !rule.rule.withAddressLimit ||
      message.questions.any (fun question =>
        strategyRejects question.qtype (r.queryOptions p server o).strategy) ||
      match (weather p.turn).reply.response message.id with
      | none => true
      | some response => Client.cacheable response &&
          rule.rule.matchAddressLimit (forRule metadata) (some response)
    | _ => false

def answer (cache : Cache A) (p : Position) (rule : RoutedRule F A) :
    Option (Except RouterError (DNSMsg A)) :=
  match rule.action with
  | .reject drop =>
    some (if drop then .error .drop else .ok (fixedResponseStatus message.id rcodeRefused))
  | .predefined rcode answer ns extra => some (.ok ⟨message.id,rcode,answer,ns,extra⟩)
  | .route server o =>
    some (clientResult (r.client.exchange cache (weather p.turn) server message
      (r.queryOptions p server o) (addressLimitResponseCheck rule.rule (forRule metadata))).2)
  | _ => none

def defaultAnswer (cache : Cache A) (p : Position) : Except RouterError (DNSMsg A) :=
  clientResult (r.client.exchange cache (weather p.turn) r.defaultServer message
    (r.withDefaultStrategy p.options) none).2

/-- The rules the loop of `Exchange` makes a query for, in the order of the queries. -/
def queriedFrom (n : ℕ) (cache : Cache A) (rules : List (RoutedRule F A)) :
    List (RoutedRule F A) :=
  match h : r.matchDNS metadata true (isAddressQuery message) rules options with
  | .route rule server dnsOptions rest =>
    let responseCheck := addressLimitResponseCheck rule.rule (forRule metadata)
    let exchanged := r.client.exchange cache (weather n) server message
      (r.withDefaultStrategy dnsOptions) responseCheck
    if responseCheck.isSome && rejected exchanged.2 then
      rule :: queriedFrom (n + 1) exchanged.1 rest
    else [rule]
  | _ => []
termination_by rules.length
decreasing_by exact r.matchDNS_rest h

end Router

end

namespace Router

variable (r : Router F A) {metadata : InboundContext F A} {message : Query}
  {options : DNSQueryOptions} {weather : ℕ → Weather A} {cache : Cache A}

lemma queriedFrom_sublist (n : ℕ) (cache : Cache A) (rules : List (RoutedRule F A)) :
    (r.queriedFrom metadata message options weather n cache rules).Sublist rules := by
  fun_induction queriedFrom with
  | case1 n cache rules rule server dnsOptions rest hma check exchanged hr ih =>
    exact (ih.cons_cons rule).trans (r.matchDNS_suffix hma).sublist
  | case2 n cache rules rule server dnsOptions rest hma check exchanged hr =>
    exact ((List.nil_sublist rest).cons_cons rule).trans (r.matchDNS_suffix hma).sublist
  | case3 n cache rules hma => exact List.nil_sublist rules

def decidedFrom (metadata : InboundContext F A) (message : Query) (options : DNSQueryOptions)
    (weather : ℕ → Weather A) (cache : Cache A) (p : Position) :
    List (RoutedRule F A) → Outcome F A (DNSMsg A)
  | [] => ⟨none,r.defaultAnswer message weather cache p⟩
  | rule :: rest =>
    match r.decides metadata message weather p rule,
      r.answer metadata message weather cache p rule with
    | true, some result => ⟨some rule,result⟩
    | _, _ => decidedFrom metadata message options weather cache
        (p.advance metadata message options rule) rest

variable {question : Question}

lemma matchDNS_cons (metadata : InboundContext F A) (allowFakeIP isAddressQuery : Bool)
    (rule : RoutedRule F A) (rest : List (RoutedRule F A)) (dnsOptions : DNSQueryOptions) :
    r.matchDNS metadata allowFakeIP isAddressQuery (rule :: rest) dnsOptions =
      if passes metadata isAddressQuery rule then
        match rule.action with
        | .route server o =>
          match r.transports server with
          | none => r.matchDNS metadata allowFakeIP isAddressQuery rest dnsOptions
          | some isFakeIP =>
            if isFakeIP && !allowFakeIP then
              r.matchDNS metadata allowFakeIP isAddressQuery rest dnsOptions
            else .route rule server
              (RouteOptions.apply { o with disableCache := isFakeIP || o.disableCache } dnsOptions)
              rest
        | .routeOptions o => r.matchDNS metadata allowFakeIP isAddressQuery rest (o.apply dnsOptions)
        | .reject drop => .reject rule drop
        | .predefined rcode answer ns extra => .predefined rule rcode answer ns extra
        | .other => r.matchDNS metadata allowFakeIP isAddressQuery rest dnsOptions
      else r.matchDNS metadata allowFakeIP isAddressQuery rest dnsOptions := by
  rw [matchDNS,passes]
  cases rule.rule.withAddressLimit <;> cases isAddressQuery <;>
    cases rule.rule.legacyPreMatch (forRule metadata) <;> rfl

lemma decides_route (hca : r.client.disableCache = true)
    (hqu : message.questions = [question]) {rule : RoutedRule F A} {server : Tag}
    {o : RouteOptions} (ha : rule.applies metadata message = true)
    (hac : rule.action = .route server o) (weather : ℕ → Weather A) (cache : Cache A)
    (p : Position) :
    r.decides metadata message weather p rule =
      !((addressLimitResponseCheck rule.rule (forRule metadata)).isSome &&
        rejected (r.client.exchange cache (weather p.turn) server message
          (r.queryOptions p server o)
          (addressLimitResponseCheck rule.rule (forRule metadata))).2) := by
  rw [Client.rejected_exchange hca hqu]
  simp only [decides,ha,hac,hqu,List.any_cons,List.any_nil,Bool.or_false,Bool.true_and]
  cases hl : rule.rule.withAddressLimit with
  | false => simp [addressLimitResponseCheck,hl]
  | true =>
    rw [addressLimitResponseCheck_eq_some hl]
    cases strategyRejects question.qtype (r.queryOptions p server o).strategy with
    | true => simp
    | false =>
      cases (weather p.turn).reply.response message.id with
      | none => rfl
      | some response => simp [Client.refuses]

lemma exchangeTurn_eq_decidedFrom (hca : r.client.disableCache = true)
    (hqu : message.questions = [question]) {rules : List (RoutedRule F A)}
    (hs : ∀ rule ∈ rules,∀ server o,rule.action = .route server o →
      (r.transports server).isSome = true) (p : Position) :
    (r.exchangeTurn metadata message options weather p.turn cache
        (r.matchDNS metadata true (isAddressQuery message) rules p.options)).2 =
      r.decidedFrom metadata message options weather cache p rules := by
  have hk := fun w server o check => Client.exchange_uncached_cache hca hqu cache w server o check
  induction rules generalizing p with
  | nil => rfl
  | cons rule rest ih =>
    have hr := ih fun x hx => hs x (.tail _ hx)
    rw [matchDNS_cons,passes_eq,decidedFrom]
    cases ha : rule.applies metadata message with
    | false =>
      simp only [decides,ha,Position.advance,Bool.false_and,Bool.false_eq_true,if_false]
      exact hr p
    | true =>
      cases hac : rule.action with
      | route server o =>
        obtain ⟨isFakeIP,hse⟩ := Option.isSome_iff_exists.mp (hs rule (.head _) server o hac)
        have hn := hr ⟨p.turn + 1,options⟩
        rw [← exchangeFrom_eq] at hn
        have ho : r.withDefaultStrategy (RouteOptions.apply
            { o with disableCache := isFakeIP || o.disableCache } p.options) =
            r.queryOptions p server o := by
          rw [queryOptions,hse]
          rfl
        have hd := r.decides_route hca hqu ha hac weather cache p
        simp only [if_true,hse,Bool.not_true,Bool.and_false,Bool.false_eq_true,if_false,
          exchangeTurn,hk,ho,hd,answer,hac,Position.advance,ha]
        split
        · rename_i hg
          rw [hg]
          exact hn
        · rename_i hst
          rw [Bool.eq_false_iff.mpr hst]
          rfl
      | routeOptions o =>
        simp only [if_true,decides,ha,hac,Position.advance,Bool.and_false]
        exact hr ⟨p.turn,o.apply p.options⟩
      | reject drop => simp only [if_true,decides,ha,hac,answer,Bool.and_true,exchangeTurn]
      | predefined rcode answer ns extra =>
        simp only [if_true,decides,ha,hac,Router.answer,Bool.and_true,exchangeTurn]
      | other =>
        simp only [if_true,decides,ha,hac,Position.advance,Bool.and_false]
        exact hr p

lemma decidedFrom_of_not_decides {p : Position} {rule : RoutedRule F A}
    (h : r.decides metadata message weather p rule = false) (rest : List (RoutedRule F A)) :
    r.decidedFrom metadata message options weather cache p (rule :: rest) =
      r.decidedFrom metadata message options weather cache
        (p.advance metadata message options rule) rest := by
  rw [decidedFrom,h]

lemma decidedFrom_of_decides {p : Position} {rule : RoutedRule F A}
    (h : r.decides metadata message weather p rule = true) (rest : List (RoutedRule F A)) :
    ∃ result,r.answer metadata message weather cache p rule = some result ∧
      r.decidedFrom metadata message options weather cache p (rule :: rest) =
        ⟨some rule,result⟩ := by
  have ha : ∃ result,r.answer metadata message weather cache p rule = some result := by
    simp only [decides,Bool.and_eq_true] at h
    rw [answer]
    split
    · exact ⟨_,rfl⟩
    · exact ⟨_,rfl⟩
    · exact ⟨_,rfl⟩
    · simp_all
  obtain ⟨result,hr⟩ := ha
  refine ⟨result,hr,?_⟩
  rw [decidedFrom,h,hr]

lemma decidedFrom_first {rules : List (RoutedRule F A)} {i : ℕ} {rule : RoutedRule F A}
    (hr : rules[i]? = some rule) (p : Position)
    (hd : r.decides metadata message weather
      ((rules.take i).foldl (Position.advance metadata message options) p) rule = true)
    (hf : ∀ j < i,∀ earlier,rules[j]? = some earlier → r.decides metadata message weather
      ((rules.take j).foldl (Position.advance metadata message options) p) earlier = false) :
    ∃ result,r.answer metadata message weather cache
        ((rules.take i).foldl (Position.advance metadata message options) p) rule = some result ∧
      r.decidedFrom metadata message options weather cache p rules = ⟨some rule,result⟩ := by
  induction rules generalizing p i with
  | nil => cases hr
  | cons x rest ih =>
    cases i with
    | zero =>
      obtain rfl : x = rule := Option.some.inj hr
      exact r.decidedFrom_of_decides hd rest
    | succ i =>
      have hx : r.decides metadata message weather p x = false := hf 0 (Nat.succ_pos i) x rfl
      rw [r.decidedFrom_of_not_decides hx]
      exact ih hr _ hd fun j hj earlier he => hf (j + 1) (Nat.succ_lt_succ hj) earlier he

lemma decidedFrom_default {rules : List (RoutedRule F A)} (p : Position)
    (hn : ∀ i rule,rules[i]? = some rule → r.decides metadata message weather
      ((rules.take i).foldl (Position.advance metadata message options) p) rule = false) :
    r.decidedFrom metadata message options weather cache p rules =
      ⟨none,r.defaultAnswer message weather cache
        (rules.foldl (Position.advance metadata message options) p)⟩ := by
  induction rules generalizing p with
  | nil => rfl
  | cons x rest ih =>
    have hx : r.decides metadata message weather p x = false := hn 0 x rfl
    rw [r.decidedFrom_of_not_decides hx]
    exact ih _ fun i rule hr => hn (i + 1) rule hr

lemma exchange_eq_decidedFrom (hca : r.client.disableCache = true)
    (hqu : message.questions.length = 1) (ht : options.transport = none)
    (hs : ∀ rule ∈ r.rules,∀ server o,rule.action = .route server o →
      (r.transports server).isSome = true) :
    (r.exchange metadata message options weather cache).2 =
      r.decidedFrom metadata message options weather cache ⟨0,options⟩ r.rules := by
  obtain ⟨question,ho⟩ := List.length_eq_one_iff.mp hqu
  rw [exchange,if_neg (not_not.mpr hqu),ht]
  rw [exchangeFrom_eq]
  exact r.exchangeTurn_eq_decidedFrom hca ho hs ⟨0,options⟩

/-- Without the cache, `Exchange` makes its queries in the order of the rules and at most one for
each, and returns what the first rule that decides answers, or else the default server. -/
theorem exchange_first_decides (metadata : InboundContext F A) (message : Query)
    (options : DNSQueryOptions) (weather : ℕ → Weather A) (cache : Cache A)
    (hcache : r.client.disableCache = true) (hquestion : message.questions.length = 1)
    (htransport : options.transport = none)
    (hservers : ∀ rule ∈ r.rules, ∀ server o, rule.action = .route server o →
      (r.transports server).isSome = true) :
    (r.queriedFrom metadata message options weather 0 cache r.rules).Sublist r.rules ∧
    (∀ i rule, r.rules[i]? = some rule →
      r.decides metadata message weather (.at metadata message options r.rules i) rule = true →
      (∀ j < i, ∀ earlier, r.rules[j]? = some earlier →
        r.decides metadata message weather (.at metadata message options r.rules j) earlier =
          false) →
      ∃ result, r.answer metadata message weather cache
          (.at metadata message options r.rules i) rule = some result ∧
        (r.exchange metadata message options weather cache).2 = ⟨some rule,result⟩) ∧
    ((∀ i rule, r.rules[i]? = some rule →
      r.decides metadata message weather (.at metadata message options r.rules i) rule = false) →
      (r.exchange metadata message options weather cache).2 =
        ⟨none,r.defaultAnswer message weather cache
          (.at metadata message options r.rules r.rules.length)⟩) := by
  rw [r.exchange_eq_decidedFrom hcache hquestion htransport hservers]
  refine ⟨r.queriedFrom_sublist 0 cache r.rules,?_,?_⟩
  · intro i rule hr hd hf
    exact r.decidedFrom_first hr ⟨0,options⟩ hd hf
  · intro hn
    rw [Position.at,List.take_length]
    exact r.decidedFrom_default ⟨0,options⟩ hn

end Router

def uncachedRouter (rule : RoutedRule Bool ℕ) : Router Bool ℕ :=
  { lowRouter false with rules := [rule], client := ⟨true,false,false,none,false⟩ }

lemma uncachedRouter_exchange (rule : RoutedRule Bool ℕ) (message : Query)
    (hqu : message.questions.length = 1) (options : DNSQueryOptions)
    (ht : options.transport = none) (weather : ℕ → Weather ℕ) (cache : Cache ℕ) :
    ((uncachedRouter rule).exchange (queryMetadata true) message options weather cache).2 =
      (uncachedRouter rule).decidedFrom (queryMetadata true) message options weather cache
        ⟨0,options⟩ [rule] :=
  (uncachedRouter rule).exchange_eq_decidedFrom rfl hqu ht fun _ _ _ _ _ => rfl

/-- The rule accepts the server's answer and decides. -/
theorem exchange_first_decides_low :
    ∃ result, ((uncachedRouter lowRule).exchange (queryMetadata true) ⟨7,[addressQuestion],true,none⟩
      plainOptions (answering 50) fun _ => none).2 = ⟨some lowRule,result⟩ := by
  have hf := ((uncachedRouter lowRule).exchange_first_decides (queryMetadata true)
    ⟨7,[addressQuestion],true,none⟩ plainOptions (answering 50) (fun _ => none) rfl rfl rfl
    fun _ _ _ _ _ => rfl).2.1
  obtain ⟨result,-,hr⟩ := hf 0 lowRule rfl (by decide +kernel)
    fun j hj => absurd hj (Nat.not_lt_zero j)
  exact ⟨result,hr⟩

def highRule : RoutedRule Bool ℕ where
  rule := .default
    { items := [], sourceAddressItems := [], sourcePortItems := [], destinationAddressItems := []
      destinationIPCIDRItems := [.ipCIDR (fun a => decide (a < 100))], destinationPortItems := []
      ruleSetItem := none, invert := true, matchResponse := false }
  action := lowRule.action

/-- The server's first reply is a failure code, later ones are addresses. -/
def failingFirst (n : ℕ) : Weather ℕ :=
  if n = 0 then ⟨none,false,.rcodeError 2⟩ else answering 50 n

/-- A rule that rejects the empty answer still decides where the strategy rules the query out, and
one that accepts an answer with a failure code is passed over. -/
theorem unchecked_answers : (∃ response, ((uncachedRouter lowRule).exchange (queryMetadata true)
        ⟨7,[⟨"example.com.",.aaaa,Client.classINET⟩],true,none⟩
        { plainOptions with strategy := .ipv4Only } (answering 50) fun _ => none).2 =
        ⟨some lowRule,.ok response⟩ ∧
      lowRule.rule.withAddressLimit = true ∧
      lowRule.rule.matchAddressLimit (forRule (queryMetadata true)) (some response) = false) ∧
    highRule.rule.legacyPreMatch (forRule (queryMetadata true)) = true ∧
    highRule.rule.matchAddressLimit (forRule (queryMetadata true))
      (some (fixedResponseStatus 7 2)) = true ∧
    ((uncachedRouter highRule).exchange (queryMetadata true) ⟨7,[addressQuestion],true,none⟩
      plainOptions failingFirst fun _ => none).2 = ⟨none,.ok (addressResponse 60 50)⟩ := by
  refine ⟨⟨fixedResponseStatus 7 rcodeSuccess,?_,by decide +kernel,by decide +kernel⟩,
    by decide +kernel,by decide +kernel,?_⟩
  · rw [uncachedRouter_exchange lowRule _ rfl _ rfl]
    have hd : (uncachedRouter lowRule).decides (queryMetadata true)
        ⟨7,[⟨"example.com.",.aaaa,Client.classINET⟩],true,none⟩ (answering 50)
        ⟨0,{ plainOptions with strategy := .ipv4Only }⟩ lowRule = true := by
      decide +kernel
    rw [Router.decidedFrom,hd]
    rfl
  · rw [uncachedRouter_exchange highRule _ rfl _ rfl]
    have hd : (uncachedRouter highRule).decides (queryMetadata true)
        ⟨7,[addressQuestion],true,none⟩ failingFirst ⟨0,plainOptions⟩ highRule = false := by
      decide +kernel
    have ha : Position.advance (queryMetadata true) ⟨7,[addressQuestion],true,none⟩
        plainOptions ⟨0,plainOptions⟩ highRule = ⟨1,plainOptions⟩ := by
      have hap : highRule.applies (queryMetadata true) ⟨7,[addressQuestion],true,none⟩ = true := by
        decide +kernel
      rw [Position.advance,hap]
      rfl
    rw [Router.decidedFrom_of_not_decides _ hd,ha]
    rfl

end SingBoxAuth.DNSExchange
