import SingBoxAuth.Transitions

/-! The stub resolvers of the local, DHCP and resolved transports. A question becomes a list of
candidate names, which are tried one after the other or raced against each other. -/
namespace SingBoxAuth.StubResolver
open Transitions

abbrev Name := List Char

def avoidDNS (name : Name) : Bool :=
  if name.isEmpty then true
  else (".onion".toList).isSuffixOf (if name.getLast? == some '.' then name.dropLast else name)

def rooted (name : Name) : Bool := name.getLast? == some '.'

def nameList (ndots : ℕ) (search : List Name) (name : Name) : List Name :=
  if name.length > 254 || name.length == 254 && !rooted name then []
  else if rooted name then if avoidDNS name then [] else [name]
  else
    let hasNdots := decide (ndots ≤ name.count '.')
    let name := name ++ ['.']
    (if hasNdots && !avoidDNS name then [name] else []) ++
      (search.map fun suffix => name ++ suffix).filter
        (fun fqdn => !avoidDNS fqdn && decide (fqdn.length ≤ 254)) ++
      (if !hasNdots && !avoidDNS name then [name] else [])

/-- The library's test for a fully qualified name: a final dot that no backslash escapes. -/
def isFqdn (name : Name) : Bool :=
  match name.reverse with
  | '.' :: rest => (rest.takeWhile (· == '\\')).length % 2 == 0
  | _ => false

def fqdnToDomain (fqdn : Name) : Name := if isFqdn fqdn then fqdn.dropLast else fqdn

section Exchanges

variable {Server E R : Type}

structure TryError (E : Type) where
  cause : Option E
  fqdn : Name

/-- The inner loop of `tryOneName`, with the last error so far. -/
def tryServers (exchangeOne : Server → Except E R) :
    List Server → Option E → Except (Option E) R
  | [], lastErr => .error lastErr
  | server :: rest, lastErr =>
    match exchangeOne server with
    | .ok response => .ok response
    | .error err => tryServers exchangeOne rest (some err)

/-- The outer loop of `tryOneName`; `exchangeOne` may answer differently at each attempt. -/
def tryAttempts (exchangeOne : ℕ → Server → Except E R) (servers : List Server) :
    ℕ → ℕ → Option E → Except (Option E) R
  | 0, _, lastErr => .error lastErr
  | left + 1, i, lastErr =>
    match tryServers (exchangeOne i) servers lastErr with
    | .ok response => .ok response
    | .error lastErr => tryAttempts exchangeOne servers left (i + 1) lastErr

def tryOneName (exchangeOne : ℕ → Server → Name → Except E R) (servers : List Server)
    (attempts : ℕ) (fqdn : Name) : Except (TryError E) R :=
  match tryAttempts (fun i server => exchangeOne i server fqdn) servers attempts 0 none with
  | .ok response => .ok response
  | .error lastErr => .error ⟨lastErr,fqdn⟩

inductive StubError (E : Type)
  | one (err : TryError E)
  | all (errors : List (TryError E))
  | context

/-- A pair of results as the functions return it: either may be nil. -/
structure Reply (E R : Type) where
  response : Option R
  err : Option (StubError E)

def StubError.NonNil : StubError E → Prop
  | .one err => err.cause.isSome
  | .all errors => errors ≠ []
  | .context => True

def Reply.Answered (reply : Reply E R) : Prop :=
  reply.response.isSome ∨ ∃ err, reply.err = some err ∧ err.NonNil

def exchangeSingleRequest (tryName : Name → Except (TryError E) R) :
    List Name → Option (TryError E) → Reply E R
  | [], lastErr => ⟨none,lastErr.map .one⟩
  | fqdn :: rest, _ =>
    match tryName fqdn with
    | .ok response => ⟨some response,none⟩
    | .error err => exchangeSingleRequest tryName rest (some err)

/-- `exchangeParallel` while it runs: racers at work, racers with a result to hand over, and the
errors received. -/
structure Race (E R : Type) where
  running : List Name
  sending : List (Except (TryError E) R)
  errors : List (TryError E)
  returned : Option (Reply E R)

def Race.start (names : List Name) : Race E R := ⟨names,[],[],none⟩

inductive RaceEvent
  | finish
  | report
  | leave
  | contextDone

/-- The steps of the racers and of the loop that receives their results. -/
inductive RaceStep (tryName : Name → Except (TryError E) R) (nameCount : ℕ) :
    Race E R → RaceEvent → Race E R → Prop
  | finish {before after : List Name} {fqdn : Name} {sending : List (Except (TryError E) R)}
      {errors : List (TryError E)} {returned : Option (Reply E R)} :
      RaceStep tryName nameCount ⟨before ++ fqdn :: after,sending,errors,returned⟩ .finish
        ⟨before ++ after,tryName fqdn :: sending,errors,returned⟩
  | respond {running : List Name} {before after : List (Except (TryError E) R)} {response : R}
      {errors : List (TryError E)} :
      RaceStep tryName nameCount ⟨running,before ++ .ok response :: after,errors,none⟩ .report
        ⟨running,before ++ after,errors,some ⟨some response,none⟩⟩
  | fail {running : List Name} {before after : List (Except (TryError E) R)} {err : TryError E}
      {errors : List (TryError E)} :
      RaceStep tryName nameCount ⟨running,before ++ .error err :: after,errors,none⟩ .report
        ⟨running,before ++ after,errors ++ [err],if (errors ++ [err]).length = nameCount then
            some ⟨none,some (.all (errors ++ [err]))⟩
          else none⟩
  | leave {running : List Name} {before after : List (Except (TryError E) R)}
      {result : Except (TryError E) R} {errors : List (TryError E)} {reply : Reply E R} :
      RaceStep tryName nameCount ⟨running,before ++ result :: after,errors,some reply⟩ .leave
        ⟨running,before ++ after,errors,some reply⟩
  | contextDone {running : List Name} {sending : List (Except (TryError E) R)}
      {errors : List (TryError E)} :
      RaceStep tryName nameCount ⟨running,sending,errors,none⟩ .contextDone
        ⟨running,sending,errors,some ⟨none,some .context⟩⟩

/-- What `exchangeParallel` owes in every state: it has returned once every racer has reported, and
what it returns is a response or an error. -/
def Race.Settled (s : Race E R) : Prop :=
  (s.running = [] → s.sending = [] → s.returned.isSome) ∧
    ∀ reply, s.returned = some reply → reply.Answered

/-! One name. -/

lemma tryServers_cause {exchangeOne : Server → Except E R} {servers : List Server}
    {lastErr result : Option E} (hs : servers ≠ [] ∨ lastErr.isSome)
    (h : tryServers exchangeOne servers lastErr = .error result) : result.isSome := by
  induction servers generalizing lastErr with
  | nil =>
    simp only [tryServers,Except.error.injEq] at h
    subst h
    simpa using hs
  | cons server rest ih =>
    rw [tryServers] at h
    split at h
    · cases h
    · exact ih (.inr rfl) h

lemma tryAttempts_cause {exchangeOne : ℕ → Server → Except E R} {servers : List Server}
    (hs : servers ≠ []) {left i : ℕ} {lastErr result : Option E}
    (hso : 0 < left ∨ lastErr.isSome)
    (h : tryAttempts exchangeOne servers left i lastErr = .error result) : result.isSome := by
  induction left generalizing i lastErr with
  | zero =>
    simp only [tryAttempts,Except.error.injEq] at h
    subst h
    simpa using hso
  | succ left ih =>
    rw [tryAttempts] at h
    split at h
    · cases h
    · rename_i err he
      exact ih (.inr (tryServers_cause (.inl hs) he)) h

lemma tryOneName_cause {exchangeOne : ℕ → Server → Name → Except E R} {servers : List Server}
    (hs : servers ≠ []) {attempts : ℕ} (ha : 0 < attempts) {fqdn : Name}
    {err : TryError E} (h : tryOneName exchangeOne servers attempts fqdn = .error err) :
    err.cause.isSome := by
  rw [tryOneName] at h
  split at h
  · cases h
  · rename_i lastErr hl
    cases h
    exact tryAttempts_cause hs (.inl ha) hl

/-! All names. -/

def Caused (tryName : Name → Except (TryError E) R) : Prop :=
  ∀ fqdn err, tryName fqdn = .error err → err.cause.isSome

lemma exchangeSingleRequest_answered {tryName : Name → Except (TryError E) R}
    (hca : Caused tryName) {names : List Name} {lastErr : Option (TryError E)}
    (hs : names ≠ [] ∨ ∃ err,lastErr = some err ∧ err.cause.isSome) :
    (exchangeSingleRequest tryName names lastErr).Answered := by
  induction names generalizing lastErr with
  | nil =>
    rcases hs with hne | ⟨err,rfl,hcu⟩
    · exact absurd rfl hne
    · exact .inr ⟨.one err,rfl,hcu⟩
  | cons fqdn rest ih =>
    rw [exchangeSingleRequest]
    split
    · exact .inl rfl
    · rename_i err he
      exact ih (.inr ⟨err,rfl,hca fqdn err he⟩)

/-- Every racer is at work, waits with its result, or is counted among the errors; and the loop
returns with the last of them. -/
structure RaceInv (nameCount : ℕ) (s : Race E R) : Prop where
  count : s.returned = none → s.running.length + s.sending.length + s.errors.length = nameCount
  open_ : s.returned = none → s.errors.length < nameCount
  answered : ∀ reply, s.returned = some reply → reply.Answered

lemma raceInv_start {names : List Name} (h : names ≠ []) :
    RaceInv names.length (Race.start names : Race E R) where
  count := by simp [Race.start]
  open_ := by
    intro _
    exact List.length_pos_iff.mpr h
  answered := by simp [Race.start]

lemma raceInv_step {tryName : Name → Except (TryError E) R} {nameCount : ℕ} {s t : Race E R}
    {e : RaceEvent} (h : RaceInv nameCount s) (hs : RaceStep tryName nameCount s e t) :
    RaceInv nameCount t := by
  cases hs with
  | finish =>
    refine ⟨?_,h.open_,h.answered⟩
    intro hn
    have hco := h.count hn
    simp only [List.length_append,List.length_cons] at hco ⊢
    omega
  | respond => exact ⟨by simp,by simp,by rintro _ ⟨⟩; exact .inl rfl⟩
  | @fail running before after err errors =>
    have hco := h.count rfl
    have ho := h.open_ rfl
    simp only [List.length_append,List.length_cons,List.length_nil] at hco ho
    by_cases hl : (errors ++ [err]).length = nameCount
    · simp only [hl,if_true]
      refine ⟨by simp,by simp,?_⟩
      rintro _ ⟨⟩
      exact .inr ⟨_,rfl,by simp [StubError.NonNil]⟩
    · simp only [hl,if_false]
      simp only [List.length_append,List.length_cons,List.length_nil] at hl
      refine ⟨?_,?_,by simp⟩
      · intro _
        simp only [List.length_append,List.length_cons,List.length_nil]
        omega
      · intro _
        simp only [List.length_append,List.length_cons,List.length_nil]
        omega
  | leave => exact ⟨by simp,by simp,h.answered⟩
  | contextDone => exact ⟨by simp,by simp,by rintro _ ⟨⟩; exact .inr ⟨_,rfl,trivial⟩⟩

lemma settled_of_raceInv {nameCount : ℕ} {s : Race E R} (h : RaceInv nameCount s) : s.Settled := by
  refine ⟨?_,h.answered⟩
  intro hru hs
  cases hr : s.returned with
  | some reply => rfl
  | none =>
    have hco := h.count hr
    have ho := h.open_ hr
    rw [hru,hs] at hco
    simp only [List.length_nil] at hco
    omega

end Exchanges

/-! The three transports. -/

/-- The servers of a transport and how often they are tried, neither of which is ever empty. -/
structure StubServers (Server : Type) where
  servers : List Server
  attempts : ℕ
  ndots : ℕ
  servers_ne : servers ≠ []
  attempts_pos : 0 < attempts

structure LinkDomain where
  domain : Name
  routingOnly : Bool

inductive Stub (Server : Type)
  | localTransport (stub : StubServers Server) (search : List Name)
  | dhcpTransport (stub : StubServers Server) (search : List Name)
  | resolvedTransport (stub : StubServers Server) (domains : List LinkDomain)

namespace Stub

variable {Server : Type}

def servers : Stub Server → StubServers Server
  | .localTransport stub _ => stub
  | .dhcpTransport stub _ => stub
  | .resolvedTransport stub _ => stub

def search : Stub Server → List Name
  | .localTransport _ search => search
  | .dhcpTransport _ search => search
  | .resolvedTransport _ domains =>
    (domains.filter fun it => !it.routingOnly).map fun it => it.domain

/-- The name a question is looked up under: DHCP drops the final dot. -/
def domain : Stub Server → Name → Name
  | .localTransport _ _, name => name
  | .dhcpTransport _ _, name => fqdnToDomain name
  | .resolvedTransport _ _, name => name

def rotated (servers : List Server) (serverOffset : ℕ) : List Server :=
  (List.range servers.length).filterMap fun j =>
    servers[(serverOffset + j) % 2 ^ 32 % servers.length]?

/-- The order in which the servers are tried: DHCP has no offset. -/
def order (stub : Stub Server) (serverOffset : ℕ) : List Server :=
  match stub with
  | .localTransport s _ => rotated s.servers serverOffset
  | .dhcpTransport s _ => s.servers
  | .resolvedTransport s _ => rotated s.servers serverOffset

def names (stub : Stub Server) (name : Name) : List Name :=
  nameList stub.servers.ndots stub.search (stub.domain name)

/-- One name of a question, given what each exchange comes to and the offset each name starts
from. -/
def tryName {E R : Type} (stub : Stub Server) (exchangeOne : ℕ → Server → Name → Except E R)
    (serverOffset : Name → ℕ) (fqdn : Name) : Except (TryError E) R :=
  tryOneName exchangeOne (stub.order (serverOffset fqdn)) stub.servers.attempts fqdn

lemma rotated_ne_nil {servers : List Server} (h : servers ≠ []) (serverOffset : ℕ) :
    rotated servers serverOffset ≠ [] := by
  have hp : 0 < servers.length := List.length_pos_iff.mpr h
  have hlt : (serverOffset + 0) % 2 ^ 32 % servers.length < servers.length := Nat.mod_lt _ hp
  have hme : servers.get ⟨_,hlt⟩ ∈ rotated servers serverOffset := by
    rw [rotated,List.mem_filterMap]
    exact ⟨0,List.mem_range.mpr hp,List.getElem?_eq_getElem hlt⟩
  exact List.ne_nil_of_mem hme

lemma order_ne_nil (stub : Stub Server) (serverOffset : ℕ) : stub.order serverOffset ≠ [] := by
  cases stub with
  | localTransport s _ => exact rotated_ne_nil s.servers_ne serverOffset
  | dhcpTransport s _ => exact s.servers_ne
  | resolvedTransport s _ => exact rotated_ne_nil s.servers_ne serverOffset

lemma tryName_caused {E R : Type} (stub : Stub Server)
    (exchangeOne : ℕ → Server → Name → Except E R) (serverOffset : Name → ℕ) :
    Caused (stub.tryName exchangeOne serverOffset) := by
  intro fqdn err he
  exact tryOneName_cause (stub.order_ne_nil _) stub.servers.attempts_pos he

/-- The name is short enough and, itself or under a search suffix, not one to keep from DNS. -/
def hasCandidate (search : List Name) (name : Name) : Bool :=
  !(name.length > 254 || name.length == 254 && !rooted name) &&
    if rooted name then !avoidDNS name
    else !avoidDNS (name ++ ['.']) || search.any fun suffix =>
      !avoidDNS (name ++ ['.'] ++ suffix) && decide ((name ++ ['.'] ++ suffix).length ≤ 254)

lemma nameList_ne_nil_iff (ndots : ℕ) (search : List Name) (name : Name) :
    nameList ndots search name ≠ [] ↔ hasCandidate search name = true := by
  rw [nameList,hasCandidate]
  cases hlong : (decide (name.length > 254) || name.length == 254 && !rooted name) with
  | true => simp
  | false =>
    cases hr : rooted name with
    | true => cases avoidDNS name <;> simp
    | false =>
      -- the name itself comes before or after the search list
      have ho : ∀ hasNdots : Bool,
          ((if hasNdots && !avoidDNS (name ++ ['.']) then [name ++ ['.']] else []) ++
            (search.map fun suffix => name ++ ['.'] ++ suffix).filter
              (fun fqdn => !avoidDNS fqdn && decide (fqdn.length ≤ 254)) ++
            (if !hasNdots && !avoidDNS (name ++ ['.']) then [name ++ ['.']] else []) ≠ []) ↔
          (!avoidDNS (name ++ ['.']) || search.any fun suffix =>
            !avoidDNS (name ++ ['.'] ++ suffix) &&
              decide ((name ++ ['.'] ++ suffix).length ≤ 254)) = true := by
        intro hasNdots
        cases hasNdots <;> cases avoidDNS (name ++ ['.']) <;> simp [List.filter_eq_nil_iff]
      simpa using ho (decide (ndots ≤ name.count '.'))

/-- A query ends with a response or an error, tried name by name or raced, whatever the exchanges
come to, exactly when it has a candidate name. -/
theorem query_ends_iff (stub : Stub Server) (name : Name) :
    (∀ (E R : Type) (exchangeOne : ℕ → Server → Name → Except E R) (serverOffset : Name → ℕ),
      (exchangeSingleRequest (stub.tryName exchangeOne serverOffset) (stub.names name)
        none).Answered ∧
      ∀ s, Reaches (RaceStep (stub.tryName exchangeOne serverOffset) (stub.names name).length)
        anyStep (Race.start (stub.names name)) s → s.Settled) ↔
      hasCandidate stub.search (stub.domain name) = true := by
  rw [← nameList_ne_nil_iff stub.servers.ndots]
  constructor
  · intro h he
    have hn : stub.names name = [] := he
    have hs := (h Unit Unit (fun _ _ _ => .ok ()) (fun _ => 0)).1
    rw [hn] at hs
    rcases hs with hr | ⟨err,her,-⟩
    · cases hr
    · cases her
  · intro hne E R exchangeOne serverOffset
    have hca := stub.tryName_caused exchangeOne serverOffset
    refine ⟨exchangeSingleRequest_answered hca (.inl hne),?_⟩
    intro s hre
    have hi : RaceInv (stub.names name).length s :=
      hre.invariant (RaceInv (stub.names name).length) (raceInv_start hne)
        (fun _ _ _ h hst _ => raceInv_step h hst)
    exact settled_of_raceInv hi

def oneServer : StubServers Unit := ⟨[()],2,1,by simp,by decide⟩

/-- The question gets neither a response nor an error, and its race waits for racers that were
never started. -/
def NeverEnds (stub : Stub Unit) (name : List Char) : Prop :=
  exchangeSingleRequest (stub.tryName (fun _ _ _ => (.ok () : Except Unit Unit)) (fun _ => 0))
      (stub.names name) none = ⟨none,none⟩ ∧
    ¬ (Race.start (stub.names name) : Race Unit Unit).Settled

lemma neverEnds_of_names_eq_nil {stub : Stub Unit} {name : List Char}
    (h : stub.names name = []) : stub.NeverEnds name := by
  unfold NeverEnds
  rw [h]
  refine ⟨rfl,?_⟩
  rintro ⟨hr,-⟩
  cases hr rfl rfl

/-- So it is with a question for an onion name. -/
theorem onion_query_never_ends :
    (Stub.localTransport oneServer []).NeverEnds "example.onion.".toList ∧
      (Stub.dhcpTransport oneServer []).NeverEnds "example.onion.".toList ∧
      (Stub.resolvedTransport oneServer []).NeverEnds "example.onion.".toList :=
  ⟨neverEnds_of_names_eq_nil (by decide),neverEnds_of_names_eq_nil (by decide),
    neverEnds_of_names_eq_nil (by decide)⟩

end Stub

end SingBoxAuth.StubResolver
