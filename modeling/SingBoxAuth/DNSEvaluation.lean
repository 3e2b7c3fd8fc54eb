import SingBoxAuth.DNSFallback
import SingBoxAuth.RuleInversion
import SingBoxAuth.DNSMode

/-! The DNS rules outside legacy mode: evaluate rules ask a server and leave its response for the
rules after them. -/
namespace SingBoxAuth.DNSExchange
open RouteRule

variable {F A : Type}

inductive EvaluateAction (A : Type)
  | routeOptions (o : RouteOptions)
  | evaluate (server : Tag) (o : RouteOptions)
  | respond
  | route (server : Tag) (o : RouteOptions)
  | reject (drop : Bool)
  | predefined (rcode : ℕ) (answer ns extra : List (DNSRecord A))

structure EvaluateRule (F A : Type) where
  rule : DNSRule (FlowItem F A) (AddressItem A)
  action : EvaluateAction A

/-- The strategy of an action. Outside legacy mode no action has one. -/
def EvaluateAction.strategy : EvaluateAction A → DomainStrategy
  | .routeOptions o => o.strategy
  | .evaluate _ o => o.strategy
  | .route _ o => o.strategy
  | _ => .asIS

/-- The rules are those of options for which the router runs in the new mode. -/
def NewMode (rules : List (EvaluateRule F A)) : Prop :=
  ∃ sets options flags, DNSMode.resolveLegacyDNSMode sets options none = .ok (false,flags) ∧
    DNSMode.validateLegacyDNSModeDisabledRules options = .ok () ∧
    options.map (fun rule => DNSMode.dnsRuleActionHasStrategy rule.action) =
      rules.map fun rule => rule.action.strategy != .asIS

lemma NewMode.strategy {rules : List (EvaluateRule F A)} (h : NewMode rules)
    {rule : EvaluateRule F A} (hru : rule ∈ rules) : rule.action.strategy = .asIS := by
  obtain ⟨sets,options,flags,hr,-,heq⟩ := h
  have hme : (rule.action.strategy != .asIS) ∈
      options.map fun rule => DNSMode.dnsRuleActionHasStrategy rule.action := by
    rw [heq]
    exact List.mem_map_of_mem hru
  obtain ⟨option,ho,hs⟩ := List.mem_map.mp hme
  rw [DNSMode.hasStrategy_of_resolve hr ho] at hs
  simpa using hs.symm

def applyDNSRouteOptions (options : DNSQueryOptions) (o : RouteOptions) : DNSQueryOptions :=
  { options with
    disableCache := o.disableCache || options.disableCache
    rewriteTTL := o.rewriteTTL.or options.rewriteTTL
    clientSubnet := o.clientSubnet.or options.clientSubnet }

lemma applyDNSRouteOptions_eq {o : RouteOptions} (h : o.strategy = .asIS)
    (options : DNSQueryOptions) : applyDNSRouteOptions options o = o.apply options := by
  simp [applyDNSRouteOptions,RouteOptions.apply,h]

inductive EvaluateError
  | missingResponse
  | drop
  | client (err : ClientError)

structure ExchangeWithRulesResult (A : Type) where
  response : Except EvaluateError (DNSMsg A)
  transport : Option Tag
  rejectAction : Option Bool

/-- The variables of the loop, with the cache and the number of exchanges made. -/
structure Evaluation (A : Type) where
  turn : ℕ
  cache : Cache A
  effectiveOptions : DNSQueryOptions
  evaluatedResponse : Option (DNSMsg A)
  evaluatedTransport : Option Tag

def Evaluation.start (cache : Cache A) (options : DNSQueryOptions) : Evaluation A :=
  ⟨0,cache,options,none,none⟩

/-- A query to be answered by the rules; the exchanges it leads to meet the weather in turn. -/
structure Evaluator (F A : Type) where
  router : Router F A
  metadata : InboundContext F A
  message : Query
  allowFakeIP : Bool
  weather : ℕ → Weather A

namespace Evaluator

variable (e : Evaluator F A)

def metadataAt (s : Evaluation A) : InboundContext F A :=
  { e.metadata.resetRuleCache with
    dnsResponse := s.evaluatedResponse
    destinationAddressMatchFromResponse := false }

def matched (s : Evaluation A) (rule : EvaluateRule F A) : Bool := rule.rule.Match (e.metadataAt s)

def exchange (s : Evaluation A) (server : Tag) (options : DNSQueryOptions) :
    Cache A × Except ClientError (DNSMsg A) :=
  e.router.client.exchange s.cache (e.weather s.turn) server e.message
    (e.router.withDefaultStrategy options) none

/-- The options of a route, unless its server is missing or skipped. -/
def resolveDNSRoute (server : Tag) (o : RouteOptions) (options : DNSQueryOptions) :
    Option DNSQueryOptions :=
  match e.router.transports server with
  | none => none
  | some isFakeIP =>
    if isFakeIP && !e.allowFakeIP then none
    else
      let options := applyDNSRouteOptions options o
      some (if isFakeIP then { options with disableCache := true } else options)

def routed (s : Evaluation A) (server : Tag) (options : DNSQueryOptions) :
    Cache A × ExchangeWithRulesResult A :=
  let exchanged := e.exchange s server options
  (exchanged.1,⟨exchanged.2.mapError .client,some server,none⟩)

def exchangeWithRules : List (EvaluateRule F A) → Evaluation A →
    Cache A × ExchangeWithRulesResult A
  | [], s => e.routed s e.router.defaultServer s.effectiveOptions
  | currentRule :: rest, s =>
    if !e.matched s currentRule then exchangeWithRules rest s
    else
      match currentRule.action with
      | .routeOptions o =>
        exchangeWithRules rest
          { s with effectiveOptions := applyDNSRouteOptions s.effectiveOptions o }
      | .evaluate server o =>
        match e.router.transports server with
        | none => exchangeWithRules rest
            { s with evaluatedResponse := none, evaluatedTransport := none }
        | some _ =>
          let exchanged := e.exchange s server (applyDNSRouteOptions s.effectiveOptions o)
          match exchanged.2 with
          | .error _ => exchangeWithRules rest
              { s with
                turn := s.turn + 1, cache := exchanged.1
                evaluatedResponse := none, evaluatedTransport := none }
          | .ok response => exchangeWithRules rest
              { s with
                turn := s.turn + 1, cache := exchanged.1
                evaluatedResponse := some response, evaluatedTransport := some server }
      | .respond =>
        match s.evaluatedResponse with
        | none => (s.cache,⟨.error .missingResponse,none,none⟩)
        | some response => (s.cache,⟨.ok response,s.evaluatedTransport,none⟩)
      | .route server o =>
        match e.resolveDNSRoute server o s.effectiveOptions with
        | none => exchangeWithRules rest s
        | some queryOptions => e.routed s server queryOptions
      | .reject drop =>
        (s.cache,⟨if drop then .error .drop
          else .ok (fixedResponseStatus e.message.id rcodeRefused),none,some drop⟩)
      | .predefined rcode answer ns extra =>
        (s.cache,⟨.ok ⟨e.message.id,rcode,answer,ns,extra⟩,none,none⟩)

/-! The list as the user reads it, with the options of an action taken as a whole. -/

def usable (server : Tag) : Bool :=
  (e.router.transports server).any fun isFakeIP => !isFakeIP || e.allowFakeIP

def decides (s : Evaluation A) (rule : EvaluateRule F A) : Bool :=
  e.matched s rule &&
    match rule.action with
    | .routeOptions _ => false
    | .evaluate _ _ => false
    | .route server _ => e.usable server
    | _ => true

def answer (s : Evaluation A) (rule : EvaluateRule F A) : ExchangeWithRulesResult A :=
  match rule.action with
  | .respond =>
    ⟨s.evaluatedResponse.elim (.error .missingResponse) .ok,
      s.evaluatedResponse.bind fun _ => s.evaluatedTransport,none⟩
  | .reject drop => ⟨if drop then .error .drop
      else .ok (fixedResponseStatus e.message.id rcodeRefused),none,some drop⟩
  | .predefined rcode answer ns extra => ⟨.ok ⟨e.message.id,rcode,answer,ns,extra⟩,none,none⟩
  | .route server o =>
    (e.routed s server (RouteOptions.apply
      { o with disableCache := e.router.transports server == some true || o.disableCache }
      s.effectiveOptions)).2
  | _ => (e.routed s e.router.defaultServer s.effectiveOptions).2

/-- The response an evaluate rule leaves, if its exchange succeeds. -/
def evaluated (s : Evaluation A) (server : Tag) (o : RouteOptions) : Option (DNSMsg A) :=
  (e.router.transports server).bind fun _ =>
    (e.exchange s server (o.apply s.effectiveOptions)).2.toOption

def advance (s : Evaluation A) (rule : EvaluateRule F A) : Evaluation A :=
  if e.matched s rule then
    match rule.action with
    | .routeOptions o => { s with effectiveOptions := o.apply s.effectiveOptions }
    | .evaluate server o =>
      { effectiveOptions := s.effectiveOptions
        evaluatedResponse := e.evaluated s server o
        evaluatedTransport := (e.evaluated s server o).map fun _ => server
        turn := if (e.router.transports server).isSome then s.turn + 1 else s.turn
        cache := if (e.router.transports server).isSome
          then (e.exchange s server (o.apply s.effectiveOptions)).1 else s.cache }
    | _ => s
  else s

/-- What the loop holds when it comes to the rule with index `i`. -/
def position (rules : List (EvaluateRule F A)) (s : Evaluation A) (i : ℕ) : Evaluation A :=
  (rules.take i).foldl e.advance s

variable {s : Evaluation A} {rule : EvaluateRule F A}

lemma resolveDNSRoute_eq {server : Tag} {o : RouteOptions} (ho : o.strategy = .asIS)
    (options : DNSQueryOptions) :
    e.resolveDNSRoute server o options = if e.usable server then some (RouteOptions.apply
        { o with disableCache := e.router.transports server == some true || o.disableCache } options)
      else none := by
  rw [resolveDNSRoute,usable]
  cases e.router.transports server with
  | none => rfl
  | some isFakeIP =>
    cases isFakeIP <;> cases e.allowFakeIP <;> simp [applyDNSRouteOptions,RouteOptions.apply,ho]

lemma exchangeWithRules_cons (hr : rule.action.strategy = .asIS) (rest : List (EvaluateRule F A)) :
    (e.exchangeWithRules (rule :: rest) s).2 = if e.decides s rule then e.answer s rule
      else (e.exchangeWithRules rest (e.advance s rule)).2 := by
  rw [exchangeWithRules,decides,advance]
  cases hma : e.matched s rule with
  | false => rfl
  | true =>
    simp only [Bool.not_true,Bool.false_eq_true,if_false,Bool.true_and,if_true]
    cases ha : rule.action with
    | routeOptions o =>
      rw [ha] at hr
      simp only [applyDNSRouteOptions_eq hr]
      rfl
    | evaluate server o =>
      rw [ha] at hr
      simp only [evaluated,applyDNSRouteOptions_eq hr]
      cases e.router.transports server with
      | none => rfl
      | some isFakeIP => cases hre : (e.exchange s server (o.apply s.effectiveOptions)).2 <;> rfl
    | respond =>
      rw [if_pos rfl,answer,ha]
      cases s.evaluatedResponse <;> rfl
    | route server o =>
      rw [ha] at hr
      simp only [e.resolveDNSRoute_eq hr,answer,ha]
      by_cases hu : e.usable server = true
      · simp only [hu,if_true]
      · simp only [hu,Bool.false_eq_true,if_false]
    | reject drop => rw [if_pos rfl,answer,ha]
    | predefined rcode answer ns extra => rw [if_pos rfl,Evaluator.answer,ha]

variable {rules : List (EvaluateRule F A)}

lemma exchangeWithRules_first (hmo : ∀ rule ∈ rules,rule.action.strategy = .asIS) {i : ℕ}
    (hr : rules[i]? = some rule) (hd : e.decides (e.position rules s i) rule = true)
    (hf : ∀ j < i,∀ x,rules[j]? = some x → e.decides (e.position rules s j) x = false) :
    (e.exchangeWithRules rules s).2 = e.answer (e.position rules s i) rule := by
  induction rules generalizing s i with
  | nil => cases hr
  | cons head rest ih =>
    rw [e.exchangeWithRules_cons (hmo head (.head _))]
    cases i with
    | zero =>
      obtain rfl := Option.some.inj hr
      rw [position,List.take_zero,List.foldl_nil] at hd ⊢
      rw [if_pos hd]
    | succ i =>
      have hh : e.decides s head = false := hf 0 (Nat.succ_pos i) head rfl
      rw [hh,if_neg (by simp)]
      exact ih (fun x hx => hmo x (.tail _ hx)) hr hd
        fun j hj x hx => hf (j + 1) (Nat.succ_lt_succ hj) x hx

lemma exchangeWithRules_default (hmo : ∀ rule ∈ rules,rule.action.strategy = .asIS)
    (hn : ∀ j x,rules[j]? = some x → e.decides (e.position rules s j) x = false) :
    (e.exchangeWithRules rules s).2 = (e.routed (e.position rules s rules.length)
      e.router.defaultServer (e.position rules s rules.length).effectiveOptions).2 := by
  induction rules generalizing s with
  | nil => rfl
  | cons head rest ih =>
    have hh : e.decides s head = false := hn 0 head rfl
    rw [e.exchangeWithRules_cons (hmo head (.head _)),hh,if_neg (by simp)]
    exact ih (fun x hx => hmo x (.tail _ hx)) fun j x hx => hn (j + 1) x hx

def actionAt (rules : List (EvaluateRule F A)) (s : Evaluation A) (j : ℕ) :
    Option (EvaluateAction A) :=
  (rules[j]?.filter (e.matched (e.position rules s j))).map (·.action)

lemma position_succ (rules : List (EvaluateRule F A)) (s : Evaluation A) (i : ℕ) :
    e.position rules s (i + 1) =
      (rules[i]?.map (e.advance (e.position rules s i))).getD (e.position rules s i) := by
  rw [position,List.take_add_one,List.foldl_append,← position]
  cases rules[i]? <;> rfl

/-- The options a query is to be made with: those of the call and of the matching route-options
rules before index `i`. -/
def optionsAt (rules : List (EvaluateRule F A)) (s : Evaluation A) (i : ℕ) : DNSQueryOptions :=
  (List.range i).foldl (fun options j =>
    match e.actionAt rules s j with
    | some (.routeOptions o) => o.apply options
    | _ => options) s.effectiveOptions

/-- The response a rule with index `i` is to be matched with: that of the last matching evaluate
rule before it, where its exchange succeeded. -/
def ResponseAt (rules : List (EvaluateRule F A)) (s : Evaluation A) (i : ℕ)
    (response : Option (DNSMsg A)) : Prop :=
  (response = s.evaluatedResponse ∧
      ∀ j < i, ∀ server o, e.actionAt rules s j ≠ some (.evaluate server o)) ∨
    ∃ j < i, ∃ server o, e.actionAt rules s j = some (.evaluate server o) ∧
      (∀ k < i, j < k → ∀ server o, e.actionAt rules s k ≠ some (.evaluate server o)) ∧
      response = e.evaluated (e.position rules s j) server o

lemma position_succ_cases (rules : List (EvaluateRule F A)) (s : Evaluation A) (i : ℕ) :
    (∃ o,e.actionAt rules s i = some (.routeOptions o) ∧ e.position rules s (i + 1) =
      { e.position rules s i with
        effectiveOptions := o.apply (e.position rules s i).effectiveOptions }) ∨
    (∃ server o,e.actionAt rules s i = some (.evaluate server o) ∧
      (e.position rules s (i + 1)).effectiveOptions = (e.position rules s i).effectiveOptions ∧
      (e.position rules s (i + 1)).evaluatedResponse =
        e.evaluated (e.position rules s i) server o) ∨
    (∀ o,e.actionAt rules s i ≠ some (.routeOptions o)) ∧
      (∀ server o,e.actionAt rules s i ≠ some (.evaluate server o)) ∧
      e.position rules s (i + 1) = e.position rules s i := by
  rw [position_succ]
  cases hr : rules[i]? with
  | none => exact .inr (.inr ⟨by simp [actionAt,hr],by simp [actionAt,hr],rfl⟩)
  | some rule =>
    simp only [actionAt,hr,Option.map_some,Option.getD_some,advance]
    cases hma : e.matched (e.position rules s i) rule with
    | false => exact .inr (.inr ⟨by simp [hma],by simp [hma],rfl⟩)
    | true =>
      cases ha : rule.action with
      | routeOptions o => exact .inl ⟨o,by simp [hma,ha],rfl⟩
      | evaluate server o => exact .inr (.inl ⟨server,o,by simp [hma,ha],rfl,rfl⟩)
      | _ => exact .inr (.inr ⟨by simp [hma,ha],by simp [hma,ha],rfl⟩)

lemma position_options (rules : List (EvaluateRule F A)) (s : Evaluation A) (i : ℕ) :
    (e.position rules s i).effectiveOptions = e.optionsAt rules s i := by
  induction i with
  | zero => rfl
  | succ i ih =>
    rw [optionsAt,List.range_succ,List.foldl_append,← optionsAt,← ih]
    obtain ⟨o,ha,hn⟩ | ⟨server,o,ha,hn,-⟩ | ⟨hset,-,hn⟩ := e.position_succ_cases rules s i
    · simp [ha,hn]
    · simp [ha,hn]
    · rw [hn]
      simp only [List.foldl_cons,List.foldl_nil]

lemma position_response (rules : List (EvaluateRule F A)) (s : Evaluation A) (i : ℕ) :
    e.ResponseAt rules s i (e.position rules s i).evaluatedResponse := by
  induction i with
  | zero => exact .inl ⟨rfl,fun j hj => absurd hj (Nat.not_lt_zero j)⟩
  | succ i ih =>
    -- a rule that is no matching evaluate leaves the response and the last evaluate rule
    have hke : (∀ server o,e.actionAt rules s i ≠ some (.evaluate server o)) →
        (e.position rules s (i + 1)).evaluatedResponse = (e.position rules s i).evaluatedResponse →
        e.ResponseAt rules s (i + 1) (e.position rules s (i + 1)).evaluatedResponse := by
      intro hno hr
      have hl : ∀ {k},k < i + 1 → k < i ∨ k = i := fun hk => Nat.lt_succ_iff_lt_or_eq.mp hk
      rw [hr]
      rcases ih with ⟨heq,hnn⟩ | ⟨j,hj,server,o,ha,hla,heq⟩
      · refine .inl ⟨heq,fun k hk => ?_⟩
        rcases hl hk with hk | rfl
        · exact hnn k hk
        · exact hno
      · refine .inr ⟨j,Nat.lt_succ_of_lt hj,server,o,ha,fun k hk hjk => ?_,heq⟩
        rcases hl hk with hk | rfl
        · exact hla k hk hjk
        · exact hno
    obtain ⟨o,ha,hn⟩ | ⟨server,o,ha,-,hn⟩ | ⟨-,hno,hn⟩ := e.position_succ_cases rules s i
    · exact hke (by simp [ha]) (by rw [hn])
    · exact .inr ⟨i,Nat.lt_succ_self i,server,o,ha,
        fun k hk hik => absurd (Nat.le_of_lt_succ hk) (Nat.not_le.mpr hik),hn⟩
    · exact hke hno (by rw [hn])

/-- Evaluate and respond follow the list: at each rule the options are those of the call and of the
matching route-options rules before, and the response is that of the last matching evaluate rule
before; the first rule that decides gives the result, else the default server. -/
theorem exchangeWithRules_follows (rules : List (EvaluateRule F A))
    (hmode : NewMode rules) (cache : Cache A) (options : DNSQueryOptions) :
    let start := Evaluation.start cache options
    (∀ i, (e.position rules start i).effectiveOptions = e.optionsAt rules start i ∧
      e.ResponseAt rules start i (e.position rules start i).evaluatedResponse) ∧
    (∀ i rule, rules[i]? = some rule → e.decides (e.position rules start i) rule = true →
      (∀ j < i, ∀ x, rules[j]? = some x → e.decides (e.position rules start j) x = false) →
      (e.exchangeWithRules rules start).2 = e.answer (e.position rules start i) rule) ∧
    ((∀ j x, rules[j]? = some x → e.decides (e.position rules start j) x = false) →
      (e.exchangeWithRules rules start).2 = (e.routed (e.position rules start rules.length)
        e.router.defaultServer (e.position rules start rules.length).effectiveOptions).2) := by
  intro start
  refine ⟨fun i => ⟨e.position_options rules start i,e.position_response rules start i⟩,?_,?_⟩
  · intro i rule hr hd hf
    exact e.exchangeWithRules_first (fun _ => hmode.strategy) hr hd hf
  · intro hn
    exact e.exchangeWithRules_default (fun _ => hmode.strategy) hn

end Evaluator

/-- A rule that asks a server and one that responds with what it said. -/
def evaluateRules : List (EvaluateRule Bool ℕ) :=
  [⟨uncachingRule.rule,.evaluate "local" ⟨.asIS,true,none,none⟩⟩,⟨uncachingRule.rule,.respond⟩]

def evaluator : Evaluator Bool ℕ :=
  ⟨lowRouter false,queryMetadata true,⟨7,[addressQuestion],true,none⟩,true,answering 50⟩

lemma newMode_evaluateRules : NewMode evaluateRules :=
  ⟨fun _ => none,[.logical [] (.evaluate false),.logical [] .respond],⟨true,false,false⟩,
    rfl,rfl,rfl⟩

/-- The second rule responds with the answer the first one got. -/
theorem exchangeWithRules_responds :
    (evaluator.exchangeWithRules evaluateRules (.start (fun _ => none) plainOptions)).2 =
      ⟨.ok (addressResponse 60 50),some "local",none⟩ := by
  have hf := (evaluator.exchangeWithRules_follows evaluateRules newMode_evaluateRules
    (fun _ => none) plainOptions).2.1
  refine (hf 1 ⟨uncachingRule.rule,.respond⟩ rfl (by decide +kernel) ?_).trans rfl
  intro j hj x hx
  obtain rfl := Nat.lt_one_iff.mp hj
  obtain rfl := Option.some.inj hx
  decide +kernel

end SingBoxAuth.DNSExchange
