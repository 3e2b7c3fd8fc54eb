import SingBoxAuth.DNSRuleOrder

/-! The options of the queries that the loops of legacy mode make, after responses are rejected. -/
namespace SingBoxAuth.DNSExchange
open RouteRule

variable {F A : Type}

namespace RouteOptions

def andThen (o o' : RouteOptions) : RouteOptions where
  strategy := if o'.strategy ≠ .asIS then o'.strategy else o.strategy
  disableCache := o'.disableCache || o.disableCache
  rewriteTTL := o'.rewriteTTL.or o.rewriteTTL
  clientSubnet := o'.clientSubnet.or o.clientSubnet

lemma andThen_apply (o o' : RouteOptions) (options : DNSQueryOptions) :
    (o.andThen o').apply options = o'.apply (o.apply options) := by
  simp only [andThen,apply,Bool.or_assoc,Option.or_assoc]
  split_ifs <;> simp_all

/-- Each option that differs between two queries is one the action sets. -/
def Covers (o : RouteOptions) (options options' : DNSQueryOptions) : Prop :=
  (o.strategy = .asIS → options.strategy = options'.strategy) ∧
  (o.disableCache = false → options.disableCache = options'.disableCache) ∧
  (o.rewriteTTL = none → options.rewriteTTL = options'.rewriteTTL) ∧
  (o.clientSubnet = none → options.clientSubnet = options'.clientSubnet)

lemma apply_eq_apply_iff (o : RouteOptions) {options options' : DNSQueryOptions}
    (ht : options.transport = options'.transport)
    (hl : options.lookupStrategy = options'.lookupStrategy) :
    o.apply options = o.apply options' ↔ o.Covers options options' := by
  obtain ⟨strategy,disableCache,rewriteTTL,clientSubnet⟩ := o
  cases strategy <;> cases disableCache <;> cases rewriteTTL <;> cases clientSubnet <;>
    simp [apply,Covers,ht,hl]

end RouteOptions

def Matched.final : Matched F A → Bool
  | .reject _ _ => true
  | .predefined _ _ _ _ _ => true
  | _ => false

structure Pass (F A : Type) where
  router : Router F A
  metadata : InboundContext F A
  allowFakeIP : Bool
  isAddressQuery : Bool

namespace Pass

variable (p : Pass F A)

def passes (rule : RoutedRule F A) : Bool := Router.passes p.metadata p.isAddressQuery rule

def matchDNS (rules : List (RoutedRule F A)) (options : DNSQueryOptions) : Matched F A :=
  p.router.matchDNS p.metadata p.allowFakeIP p.isAddressQuery rules options

def asks (rule : RoutedRule F A) : Option RouteOptions :=
  match p.passes rule, rule.action with
  | true, .route server o =>
    match p.router.transports server with
    | none => none
    | some isFakeIP =>
      if isFakeIP && !p.allowFakeIP then none
      else some { o with disableCache := isFakeIP || o.disableCache }
  | _, _ => none

def sets (rule : RoutedRule F A) : Option RouteOptions :=
  match p.passes rule, rule.action with
  | true, .routeOptions o => some o
  | _, _ => none

def answers (rule : RoutedRule F A) : Bool :=
  match p.passes rule, rule.action with
  | true, .reject _ => true
  | true, .predefined _ _ _ _ => true
  | _, _ => false

def applied (o : Option RouteOptions) (options : DNSQueryOptions) : DNSQueryOptions :=
  (o.map (·.apply options)).getD options

/-- The options of a call, with those that the route-options rules among some rules set. -/
def overlay (options : DNSQueryOptions) (rules : List (RoutedRule F A)) : DNSQueryOptions :=
  rules.foldl (fun o rule => applied (p.sets rule) o) options

/-- The queries of a loop: the rules from the one that makes the query on (none for the default
server), and the options. A loop goes on after a rejected response of an address-limited rule. -/
def queries (options : DNSQueryOptions) (rejects : List Bool) (rules : List (RoutedRule F A)) :
    List (List (RoutedRule F A) × DNSQueryOptions) :=
  match h : p.matchDNS rules options with
  | .default o => [([],o)]
  | .route rule _ o rest =>
    (rule :: rest,o) ::
      if rule.rule.withAddressLimit && rejects.headD false then queries options rejects.tail rest
      else []
  | _ => []
termination_by rules.length
decreasing_by exact p.router.matchDNS_rest h

/-- The options a query is to be made with: those of the call, of the route-options rules before
the rule that makes it, and of that rule. -/
def intended (options : DNSQueryOptions) (rules later : List (RoutedRule F A)) : DNSQueryOptions :=
  applied (later.head?.bind p.asks) (p.overlay options (rules.take (rules.length - later.length)))

/-- The next query: what the rules set up to it, and the rules from the one that makes it on. -/
def gathered : List (RoutedRule F A) → Option (RouteOptions × List (RoutedRule F A))
  | [] => some (⟨.asIS,false,none,none⟩,[])
  | rule :: rest =>
    match p.asks rule with
    | some o => some (o,rule :: rest)
    | none =>
      if p.answers rule then none
      else (gathered rest).map fun g => (((p.sets rule).map (·.andThen g.1)).getD g.1,g.2)

def passable (rule : RoutedRule F A) : Prop :=
  p.answers rule = false ∧ ((p.asks rule).isSome = true → rule.rule.withAddressLimit = true)

/-- After a rule whose response may be rejected, what is set up to the next query covers what the
rules before it have changed. -/
def FallbackSafe (options : DNSQueryOptions) (rules : List (RoutedRule F A)) : Prop :=
  ∀ before rule rest g, rules = before ++ rule :: rest → (∀ x ∈ before, p.passable x) →
    rule.rule.withAddressLimit = true → (p.asks rule).isSome = true →
    p.gathered rest = some g → g.1.Covers (p.overlay options before) options

lemma of_asks {rule : RoutedRule F A} {o : RouteOptions} (h : p.asks rule = some o) :
    p.answers rule = false ∧ p.sets rule = none := by
  cases ha : rule.action <;> simp_all [asks,answers,sets]

lemma matchDNS_cons (rule : RoutedRule F A) (rest : List (RoutedRule F A))
    (options : DNSQueryOptions) :
    (∃ o,p.asks rule = some o ∧ p.matchDNS (rule :: rest) options =
      .route rule (rule.action.server.getD "") (o.apply options) rest) ∨
    p.asks rule = none ∧ (p.answers rule = true ∧ (p.matchDNS (rule :: rest) options).final = true ∨
      p.answers rule = false ∧
        p.matchDNS (rule :: rest) options = p.matchDNS rest (applied (p.sets rule) options)) := by
  have hco := p.router.matchDNS_cons p.metadata p.allowFakeIP p.isAddressQuery rule rest options
  rw [← matchDNS,← passes] at hco
  rw [hco]
  cases hp : p.passes rule with
  | false => simp [asks,answers,sets,applied,hp,matchDNS]
  | true =>
    cases ha : rule.action with
    | route server o =>
      cases hk : p.router.transports server with
      | none => simp [asks,answers,sets,applied,hp,ha,hk,matchDNS]
      | some isFakeIP =>
        cases hf : isFakeIP && !p.allowFakeIP <;>
          simp [asks,answers,sets,applied,hp,ha,hk,hf,matchDNS,DNSAction.server]
    | routeOptions o => simp [asks,answers,sets,applied,hp,ha,matchDNS]
    | reject drop => simp [asks,answers,hp,ha,Matched.final]
    | predefined rcode answer ns extra => simp [asks,answers,hp,ha,Matched.final]
    | other => simp [asks,answers,sets,applied,hp,ha,matchDNS]

/-- What the next query is: the rules passed on the way neither ask nor answer, and the options
are those they set and the rule's own. -/
structure Next (rules : List (RoutedRule F A)) (g : RouteOptions × List (RoutedRule F A)) :
    Prop where
  split : ∃ passed, rules = passed ++ g.2 ∧
    (∀ x ∈ passed, p.asks x = none ∧ p.answers x = false) ∧
    ∀ options, g.1.apply options = applied (g.2.head?.bind p.asks) (p.overlay options passed)
  asked : ∀ rule ∈ g.2.head?, (p.asks rule).isSome = true
  matched : ∀ options, p.matchDNS rules options =
    match g.2 with
    | [] => .default (g.1.apply options)
    | rule :: rest => .route rule (rule.action.server.getD "") (g.1.apply options) rest

lemma gathered_next {rules : List (RoutedRule F A)} {g : RouteOptions × List (RoutedRule F A)}
    (h : p.gathered rules = some g) : p.Next rules g := by
  induction rules generalizing g with
  | nil =>
    obtain rfl := Option.some.inj h
    exact ⟨⟨[],by simp [overlay,applied,RouteOptions.apply]⟩,by simp,by
      simp [matchDNS,Router.matchDNS,RouteOptions.apply]⟩
  | cons rule rest ih =>
    cases ha : p.asks rule with
    | some o =>
      simp only [gathered,ha,Option.some.injEq] at h
      subst h
      refine ⟨⟨[],by simp [overlay,applied,ha]⟩,by simp [ha],fun options => ?_⟩
      obtain ⟨o',ha',hma⟩ | ⟨hn,-⟩ := p.matchDNS_cons rule rest options
      · simp_all
      · simp_all
    | none =>
      cases han : p.answers rule with
      | true => simp [gathered,ha,han] at h
      | false =>
        simp only [gathered,ha,han,Bool.false_eq_true,if_false] at h
        obtain ⟨⟨o,later⟩,hr,rfl⟩ := Option.map_eq_some_iff.mp h
        obtain ⟨⟨passed,hs,hp,hap⟩,hak,hmt⟩ := ih hr
        have hset : ∀ options,(((p.sets rule).map (·.andThen o)).getD o).apply options =
            o.apply (applied (p.sets rule) options) := by
          intro options
          cases p.sets rule with
          | none => rfl
          | some o' => exact o'.andThen_apply o options
        refine ⟨⟨rule :: passed,congrArg (rule :: ·) hs,?_,fun options => ?_⟩,hak,
          fun options => ?_⟩
        · rintro x (_ | ⟨_,hx⟩)
          · exact ⟨ha,han⟩
          · exact hp x hx
        · exact (hset options).trans (hap _)
        · obtain ⟨o',ha',-⟩ | ⟨-,⟨han',-⟩ | ⟨-,hma⟩⟩ := p.matchDNS_cons rule rest options
          · simp_all
          · simp_all
          · rw [hma,hmt,hset]

lemma gathered_final {rules : List (RoutedRule F A)} (h : p.gathered rules = none)
    (options : DNSQueryOptions) : (p.matchDNS rules options).final = true := by
  induction rules generalizing options with
  | nil => cases h
  | cons rule rest ih =>
    obtain ⟨o,ha,-⟩ | ⟨ha,⟨-,hf⟩ | ⟨han,hma⟩⟩ := p.matchDNS_cons rule rest options
    · simp [gathered,ha] at h
    · exact hf
    · rw [hma]
      exact ih (by simpa [gathered,ha,han] using h) _

variable {options : DNSQueryOptions}

lemma queries_eq (rejects : List Bool) (rules : List (RoutedRule F A)) :
    p.queries options rejects rules = match p.gathered rules with
      | none => []
      | some g => (g.2,g.1.apply options) :: match g.2 with
        | [] => []
        | rule :: rest => if rule.rule.withAddressLimit && rejects.headD false then
            p.queries options rejects.tail rest else [] := by
  rw [queries]
  cases hg : p.gathered rules with
  | none =>
    have hf := p.gathered_final hg options
    split <;> simp_all [Matched.final]
  | some g =>
    have hma := (p.gathered_next hg).matched options
    obtain ⟨o,later⟩ := g
    cases later with
    | nil => split <;> simp_all
    | cons rule rest =>
      dsimp only at hma
      split
      · simp_all
      · rename_i hr
        rw [hma] at hr
        cases hr
        rfl
      · rename_i ho
        exact absurd hma (ho _ _ _ _)

lemma overlay_append (before passed : List (RoutedRule F A)) :
    p.overlay options (before ++ passed) = p.overlay (p.overlay options before) passed :=
  List.foldl_append

lemma intended_next {rules : List (RoutedRule F A)} {g : RouteOptions × List (RoutedRule F A)}
    (h : p.gathered rules = some g) (before : List (RoutedRule F A)) :
    p.intended options (before ++ rules) g.2 = g.1.apply (p.overlay options before) := by
  obtain ⟨passed,hs,-,ha⟩ := (p.gathered_next h).split
  have hl : (before ++ rules).length - g.2.length = (before ++ passed).length := by
    rw [hs]
    simp only [List.length_append]
    omega
  rw [ha,intended,hl,hs,← List.append_assoc,List.take_left,overlay_append]

lemma overlay_fields (options : DNSQueryOptions) (rules : List (RoutedRule F A)) :
    (p.overlay options rules).transport = options.transport ∧
      (p.overlay options rules).lookupStrategy = options.lookupStrategy := by
  induction rules generalizing options with
  | nil => exact ⟨rfl,rfl⟩
  | cons rule rest ih =>
    have ha : (applied (p.sets rule) options).transport = options.transport ∧
        (applied (p.sets rule) options).lookupStrategy = options.lookupStrategy := by
      cases p.sets rule <;> exact ⟨rfl,rfl⟩
    obtain ⟨ht,hl⟩ := ih (applied (p.sets rule) options)
    exact ⟨ht.trans ha.1,hl.trans ha.2⟩

lemma next_intended_iff {rules : List (RoutedRule F A)}
    {g : RouteOptions × List (RoutedRule F A)} (h : p.gathered rules = some g)
    (before : List (RoutedRule F A)) :
    g.1.apply options = p.intended options (before ++ rules) g.2 ↔
      g.1.Covers (p.overlay options before) options := by
  obtain ⟨ht,hl⟩ := p.overlay_fields options before
  rw [p.intended_next h,eq_comm,g.1.apply_eq_apply_iff ht hl]

lemma overlay_snoc_of_asks {rule : RoutedRule F A} (ha : (p.asks rule).isSome = true)
    (before : List (RoutedRule F A)) :
    p.overlay options (before ++ [rule]) = p.overlay options before := by
  obtain ⟨o,ho⟩ := Option.isSome_iff_exists.mp ha
  rw [overlay_append]
  simp [overlay,applied,(p.of_asks ho).2]

lemma passable_snoc {before : List (RoutedRule F A)} {rule : RoutedRule F A}
    (hb : ∀ x ∈ before,p.passable x) (hl : rule.rule.withAddressLimit = true)
    (ha : (p.asks rule).isSome = true) : ∀ x ∈ before ++ [rule],p.passable x := by
  intro x hx
  rcases List.mem_append.mp hx with hx | hx
  · exact hb x hx
  · obtain ⟨o,ho⟩ := Option.isSome_iff_exists.mp ha
    obtain rfl := List.mem_singleton.mp hx
    exact ⟨(p.of_asks ho).1,fun _ => hl⟩

lemma queries_intended {rules : List (RoutedRule F A)} (hsa : p.FallbackSafe options rules)
    {before later : List (RoutedRule F A)} (hs : rules = before ++ later)
    (hb : ∀ x ∈ before,p.passable x)
    (hco : ∀ g,p.gathered later = some g → g.1.Covers (p.overlay options before) options)
    (rejects : List Bool) :
    ∀ q ∈ p.queries options rejects later,q.2 = p.intended options rules q.1 := by
  induction hn : later.length using Nat.strong_induction_on generalizing before later rejects with
  | _ n ih =>
    intro q hq
    rw [queries_eq] at hq
    cases hga : p.gathered later with
    | none => simp [hga] at hq
    | some g =>
      obtain ⟨o,next⟩ := g
      simp only [hga] at hq
      rcases List.mem_cons.mp hq with rfl | hq
      · rw [hs]
        exact (p.next_intended_iff hga before).mpr (hco _ hga)
      · obtain ⟨⟨passed,hl,hpa,-⟩,hak,-⟩ := p.gathered_next hga
        cases next with
        | nil => simp at hq
        | cons rule rest =>
          dsimp only at hq hl
          split at hq
          · rename_i hgo
            have hli : rule.rule.withAddressLimit = true := (Bool.and_eq_true_iff.mp hgo).1
            have ha : (p.asks rule).isSome = true := hak rule rfl
            have hp : ∀ x ∈ before ++ passed,p.passable x := by
              intro x hx
              rcases List.mem_append.mp hx with hx | hx
              · exact hb x hx
              · exact ⟨(hpa x hx).2,by simp [(hpa x hx).1]⟩
            have hr : rules = (before ++ passed) ++ rule :: rest := by
              rw [hs,hl,List.append_assoc]
            have hlt : rest.length < n := by
              rw [← hn,hl]
              simp only [List.length_append,List.length_cons]
              omega
            refine ih rest.length hlt (hr.trans (List.append_cons _ _ _))
              (p.passable_snoc hp hli ha) ?_ _ rfl q hq
            intro g hg
            rw [p.overlay_snoc_of_asks ha]
            exact hsa _ _ _ g hr hp hli ha hg
          · cases hq

lemma queries_after {before rest : List (RoutedRule F A)} {rule : RoutedRule F A}
    (hb : ∀ x ∈ before,p.passable x) (hl : rule.rule.withAddressLimit = true)
    (ha : (p.asks rule).isSome = true) (rejects : List Bool) :
    ∃ rejects',∀ q ∈ p.queries options rejects rest,
      q ∈ (p.queries options rejects' (before ++ rule :: rest)).tail := by
  have hco : ∀ {x : RoutedRule F A} {later} (rejects : List Bool),
      x.rule.withAddressLimit = true → (p.asks x).isSome = true →
      (p.queries options (true :: rejects) (x :: later)).tail = p.queries options rejects later := by
    intro x later rejects hl ha
    obtain ⟨o,ho⟩ := Option.isSome_iff_exists.mp ha
    rw [queries_eq]
    simp [gathered,ho,hl]
  induction before with
  | nil => exact ⟨true :: rejects,fun q hq => by rwa [List.nil_append,hco rejects hl ha]⟩
  | cons x before ih =>
    obtain ⟨rejects',hme⟩ := ih fun y hy => hb y (.tail _ hy)
    obtain ⟨han,hxl⟩ := hb x (.head _)
    cases hx : p.asks x with
    | some o =>
      have hxa : (p.asks x).isSome = true := by simp [hx]
      refine ⟨true :: rejects',fun q hq => ?_⟩
      rw [List.cons_append,hco rejects' (hxl hxa) hxa]
      exact List.mem_of_mem_tail (hme q hq)
    | none =>
      -- the rule is passed over, and only the options of the first query can differ
      refine ⟨rejects',fun q hq => ?_⟩
      have hq' := hme q hq
      rw [queries_eq] at hq' ⊢
      cases hg : p.gathered (before ++ rule :: rest) with
      | none => simp [hg] at hq'
      | some g =>
        rw [hg] at hq'
        simp only [List.cons_append,gathered,hx,han,Bool.false_eq_true,if_false,hg,Option.map_some]
        exact hq'

/-- What is left of a state after queries made one after the other. -/
def afterQueries {S Q : Type} (ask : ℕ → S → Q → S) : ℕ → S → List Q → S
  | _, s, [] => s
  | n, s, q :: qs => afterQueries ask (n + 1) (ask n s q) qs

def server (q : List (RoutedRule F A) × DNSQueryOptions) : Tag :=
  (q.1.head?.map fun rule => rule.action.server.getD "").getD p.router.defaultServer

def check (q : List (RoutedRule F A) × DNSQueryOptions) : Option (DNSMsg A → Bool) :=
  q.1.head?.bind fun rule => addressLimitResponseCheck rule.rule (forRule p.metadata)

lemma isSome_addressLimitResponseCheck (rule : RoutedRule F A) :
    (addressLimitResponseCheck rule.rule (forRule p.metadata)).isSome =
      rule.rule.withAddressLimit := by
  rw [addressLimitResponseCheck]
  split <;> simp_all

lemma server_of_route {rules rest : List (RoutedRule F A)} {rule : RoutedRule F A} {server : Tag}
    {o : DNSQueryOptions} (h : p.matchDNS rules options = .route rule server o rest) :
    server = rule.action.server.getD "" := by
  cases hg : p.gathered rules with
  | none => simpa [h,Matched.final] using p.gathered_final hg options
  | some g =>
    have hma := (p.gathered_next hg).matched options
    rw [h] at hma
    split at hma
    · cases hma
    · cases hma
      rfl

lemma loop_queries {S : Type} (ask : ℕ → S → List (RoutedRule F A) × DNSQueryOptions → S)
    (rejected : ℕ → S → List (RoutedRule F A) × DNSQueryOptions → Bool)
    (loop : ℕ → S → List (RoutedRule F A) → S)
    (hl : ∀ n s rules,loop n s rules = match p.matchDNS rules options with
      | .default o => ask n s ([],o)
      | .route rule _ o rest =>
        if rule.rule.withAddressLimit && rejected n s (rule :: rest,o) then
          loop (n + 1) (ask n s (rule :: rest,o)) rest
        else ask n s (rule :: rest,o)
      | _ => s) (n : ℕ) (s : S) (rules : List (RoutedRule F A)) :
    ∃ rejects,loop n s rules = afterQueries ask n s (p.queries options rejects rules) := by
  induction hn : rules.length using Nat.strong_induction_on generalizing n s rules with
  | _ k ih =>
    rw [hl]
    cases hma : p.matchDNS rules options with
    | default o => exact ⟨[],by rw [queries,hma]; rfl⟩
    | reject rule drop => exact ⟨[],by rw [queries,hma]; rfl⟩
    | predefined rule rcode answer ns extra => exact ⟨[],by rw [queries,hma]; rfl⟩
    | route rule server o rest =>
      dsimp only
      split
      · rename_i hgo
        have hre : rest.length < k := by
          rw [← hn]
          exact p.router.matchDNS_rest hma
        obtain ⟨rejects,hr⟩ := ih rest.length hre (n + 1) (ask n s (rule :: rest,o)) rest rfl
        refine ⟨true :: rejects,hr.trans ?_⟩
        rw [queries.eq_def p options (true :: rejects) rules,hma]
        simp only [(Bool.and_eq_true_iff.mp hgo).1,List.headD_cons,Bool.true_and,if_true]
        rfl
      · refine ⟨[false],?_⟩
        rw [queries,hma]
        simp only [List.headD_cons,Bool.and_false,Bool.false_eq_true,if_false]
        rfl

end Pass

namespace Router

variable (r : Router F A) (metadata : InboundContext F A) (options : DNSQueryOptions)

/-- The loop of Exchange leaves the cache that the queries of the pass leave, made one after the other
on the server and with the check of their rules, for some pattern of rejected responses. -/
theorem exchangeFrom_queries (message : Query) (weather : ℕ → Weather A) (n : ℕ) (cache : Cache A)
    (rules : List (RoutedRule F A)) :
    let p : Pass F A := ⟨r,metadata,true,isAddressQuery message⟩
    ∃ rejects,(r.exchangeFrom metadata message options weather n cache rules).1 =
      Pass.afterQueries (fun n cache q => (r.client.exchange cache (weather n) (p.server q) message
        (r.withDefaultStrategy q.2) (p.check q)).1) n cache (p.queries options rejects rules) := by
  intro p
  refine p.loop_queries _ (fun n cache q => rejected (r.client.exchange cache (weather n)
    (p.server q) message (r.withDefaultStrategy q.2) (p.check q)).2)
    (fun n cache rules => (r.exchangeFrom metadata message options weather n cache rules).1)
    (fun n cache rules => ?_) n cache rules
  dsimp only
  rw [r.exchangeFrom_eq]
  change (r.exchangeTurn metadata message options weather n cache (p.matchDNS rules options)).1 = _
  cases hma : p.matchDNS rules options with
  | default o => rfl
  | reject rule drop => rfl
  | predefined rule rcode answer ns extra => rfl
  | route rule server o rest =>
    obtain rfl := p.server_of_route hma
    rw [exchangeTurn,p.isSome_addressLimitResponseCheck]
    exact apply_ite Prod.fst _ _ _

end Router

/-- A rule that turns the cache off, the rule for low addresses, and the default server. -/
def uncachingRule : RoutedRule Bool ℕ where
  rule := .default
    { items := [], sourceAddressItems := [], sourcePortItems := [], destinationAddressItems := []
      destinationIPCIDRItems := [], destinationPortItems := [], ruleSetItem := none, invert := false
      matchResponse := false }
  action := .routeOptions ⟨.asIS,true,none,none⟩

def uncachingPass : Pass Bool ℕ :=
  ⟨{ lowRouter false with rules := [uncachingRule,lowRule] },queryMetadata true,true,true⟩

end SingBoxAuth.DNSExchange
