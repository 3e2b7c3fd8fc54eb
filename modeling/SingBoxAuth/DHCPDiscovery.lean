import Mathlib.Algebra.Order.Ring.Int

/-! The DNS servers of a DHCP transport (dns/transport/dhcp/dhcp.go): which queries start a new
discovery. -/
namespace SingBoxAuth.DHCPDiscovery

variable {Server E : Type}

/-- An hour in nanoseconds. -/
def dhcpTTL : ℕ := 3600 * 10 ^ 9

/-- What updateServers meets: no interface, a discovery that fails (possibly after an offer was
stored), or an offer. -/
inductive Discovery (Server E : Type)
  | noInterface (err : E)
  | failed (err : E) (stored : Option (List Server))
  | offered (servers : List Server)

inductive FetchError (E : Type)
  | prepareInterface (cause : E)
  | fetchServers (cause : E)
  | emptyResponse
  | emptyServers

/-- The fields that are read and written under transportLock; the zero time is `none`. -/
structure Transport (Server E : Type) where
  updatedAt : Option ℕ
  lastError : Option (FetchError E)
  servers : List Server

def newTransport : Transport Server E := ⟨none,none,[]⟩

namespace Transport

def reset (t : Transport Server E) : Transport Server E :=
  { t with updatedAt := none, servers := [] }

def updateServers (t : Transport Server E) (now : ℕ) :
    Discovery Server E → Option (FetchError E) × Transport Server E
  | .noInterface err => (some (.prepareInterface err),t)
  | .failed err stored =>
    (some (.fetchServers err),⟨some now,some (.fetchServers err),stored.getD t.servers⟩)
  | .offered servers =>
    if servers.length = 0 then (some .emptyResponse,⟨some now,some .emptyResponse,servers⟩)
    else (none,⟨some now,none,servers⟩)

/-- Whether less than the lifetime has passed since the last update. -/
def fresh (t : Transport Server E) (now : ℕ) : Bool :=
  match t.updatedAt with
  | none => false
  | some updatedAt => decide (now - updatedAt < dhcpTTL)

end Transport

/-- What fetch returns, whether it has run updateServers, and the transport after it. -/
structure Fetched (Server E : Type) where
  servers : List Server
  err : Option (FetchError E)
  ran : Bool
  transport : Transport Server E

/-- A fetch at `now`, whose discovery, if it runs one, ends at `ended`. No other call comes between
the two looks at updatedAt. -/
def Transport.fetch (t : Transport Server E) (now ended : ℕ) (d : Discovery Server E) :
    Fetched Server E :=
  match t.lastError with
  | some err => ⟨[],some err,false,t⟩
  | none =>
    if t.fresh now then ⟨t.servers,none,false,t⟩
    else
      match t.updateServers ended d with
      | (some err,t') => ⟨t.servers,some err,true,t'⟩
      | (none,t') => ⟨t'.servers,none,true,t'⟩

def Fetched.exchange (f : Fetched Server E) : Except (FetchError E) (List Server) :=
  match f.err with
  | some err => .error err
  | none => if f.servers.length = 0 then .error .emptyServers else .ok f.servers

inductive Event (Server E : Type)
  | advance (time : ℕ)
  | query (took : ℕ) (d : Discovery Server E)
  | interfaceUpdated (took : ℕ) (d : Discovery Server E)
  | reset

/-- What happened to the transport: an attempt with the time of its end, or a Reset. -/
inductive Entry (Server E : Type)
  | attempt (ended : ℕ) (d : Discovery Server E)
  | reset

structure World (Server E : Type) where
  transport : Transport Server E
  now : ℕ
  history : List (Entry Server E)

namespace World

def fetch (w : World Server E) (took : ℕ) (d : Discovery Server E) : Fetched Server E :=
  w.transport.fetch w.now (w.now + took) d

def step (w : World Server E) : Event Server E → World Server E
  | .advance time => { w with now := w.now + time }
  | .query took d =>
    if (w.fetch took d).ran then
      ⟨(w.fetch took d).transport,w.now + took,.attempt (w.now + took) d :: w.history⟩
    else w
  | .interfaceUpdated took d =>
    ⟨(w.transport.updateServers (w.now + took) d).2,w.now + took,
      .attempt (w.now + took) d :: w.history⟩
  | .reset => ⟨w.transport.reset,w.now,.reset :: w.history⟩

def start : World Server E := ⟨newTransport,0,[]⟩

def run (events : List (Event Server E)) : World Server E := events.foldl step start

end World

/-! What the history says of the next query. -/

/-- The lifetime has passed since the last attempt, or the transport was reset after it. -/
def Due (now : ℕ) : List (Entry Server E) → Prop
  | .attempt ended _ :: _ => dhcpTTL ≤ now - ended
  | _ => True

/-- Whether the last discovery that had an interface failed or brought no server. -/
def lastFailed : List (Entry Server E) → Bool
  | [] => false
  | .reset :: history => lastFailed history
  | .attempt _ (.noInterface _) :: history => lastFailed history
  | .attempt _ (.failed _ _) :: _ => true
  | .attempt _ (.offered servers) :: _ => decide (servers.length = 0)

/-- The servers of the last discovery that had an interface, if they were not reset since. -/
def supplied : List (Entry Server E) → List Server
  | .attempt _ (.noInterface _) :: history => supplied history
  | .attempt _ (.offered servers) :: _ => servers
  | _ => []

structure Tracked (w : World Server E) : Prop where
  failed : w.transport.lastError.isSome = lastFailed w.history
  updated : ∀ updatedAt, w.transport.updatedAt = some updatedAt → updatedAt ≤ w.now ∧
    ∃ ended d rest, w.history = .attempt ended d :: rest ∧ updatedAt ≤ ended
  servers : supplied w.history ≠ [] → w.transport.servers = supplied w.history

lemma tracked_start : Tracked (World.start : World Server E) :=
  ⟨rfl,fun _ h => absurd h (Option.some_ne_none _).symm,fun h => absurd rfl h⟩

namespace Tracked

variable {w : World Server E}

lemma attempt (h : Tracked w) (took : ℕ) (d : Discovery Server E) :
    Tracked ⟨(w.transport.updateServers (w.now + took) d).2,w.now + took,
      .attempt (w.now + took) d :: w.history⟩ := by
  have hn : ∀ updatedAt,some (w.now + took) = some updatedAt →
      updatedAt ≤ w.now + took ∧ ∃ ended d' rest,Entry.attempt (w.now + took) d :: w.history =
        .attempt ended d' :: rest ∧ updatedAt ≤ ended := by
    intro updatedAt hu
    cases hu
    exact ⟨le_rfl,_,_,_,rfl,le_rfl⟩
  cases d with
  | noInterface err =>
    refine ⟨h.failed,fun u hu => ?_,h.servers⟩
    have hl : u ≤ w.now + took := Nat.le_trans (h.updated u hu).1 (Nat.le_add_right _ _)
    exact ⟨hl,_,_,_,rfl,hl⟩
  | failed err stored => exact ⟨rfl,hn,fun hs => absurd rfl hs⟩
  | offered servers =>
    rw [Transport.updateServers]
    by_cases hs : servers.length = 0
    · rw [if_pos hs]
      exact ⟨(decide_eq_true hs).symm,hn,fun _ => rfl⟩
    · rw [if_neg hs]
      exact ⟨(decide_eq_false hs).symm,hn,fun _ => rfl⟩

lemma not_fresh (h : Tracked w) (hd : Due w.now w.history) : w.transport.fresh w.now = false := by
  rw [Transport.fresh]
  cases hu : w.transport.updatedAt with
  | none => rfl
  | some updatedAt =>
    obtain ⟨-,ended,d,rest,he,hl⟩ := h.updated updatedAt hu
    rw [he] at hd
    have hp : dhcpTTL ≤ w.now - ended := hd
    exact decide_eq_false (by omega)

end Tracked

lemma ran_iff (t : Transport Server E) (now ended : ℕ) (d : Discovery Server E) :
    (t.fetch now ended d).ran = true ↔ t.lastError = none ∧ t.fresh now = false := by
  rw [Transport.fetch]
  cases t.lastError with
  | some err => simp
  | none =>
    cases t.fresh now with
    | true => simp
    | false =>
      obtain ⟨err,t'⟩ := t.updateServers ended d
      cases err <;> simp

lemma transport_of_ran {t : Transport Server E} {now ended : ℕ} {d : Discovery Server E}
    (h : (t.fetch now ended d).ran = true) :
    (t.fetch now ended d).transport = (t.updateServers ended d).2 := by
  obtain ⟨he,hf⟩ := (ran_iff t now ended d).mp h
  rw [Transport.fetch,he,hf]
  obtain ⟨err,t'⟩ := t.updateServers ended d
  cases err <;> rfl

lemma Tracked.step {w : World Server E} (h : Tracked w) (e : Event Server E) :
    Tracked (w.step e) := by
  cases e with
  | advance time =>
    refine ⟨h.failed,fun u hu => ?_,h.servers⟩
    exact ⟨Nat.le_trans (h.updated u hu).1 (Nat.le_add_right _ _),(h.updated u hu).2⟩
  | query took d =>
    rw [World.step]
    split_ifs with hr
    · rw [World.fetch,transport_of_ran hr]
      exact h.attempt took d
    · exact h
  | interfaceUpdated took d => exact h.attempt took d
  | reset =>
    exact ⟨h.failed,fun _ hu => absurd hu (Option.some_ne_none _).symm,fun hs => absurd rfl hs⟩

lemma tracked_run (events : List (Event Server E)) : Tracked (World.run events) := by
  rw [World.run]
  generalize hs : (World.start : World Server E) = w
  have h : Tracked w := hs ▸ tracked_start
  clear hs
  induction events generalizing w with
  | nil => exact h
  | cons e events ih => exact ih _ (h.step e)

/-- What is asked of a query: it starts a discovery when one is due, and uses the servers that its
own discovery, or else the last one, has brought. -/
structure Served (w : World Server E) (took : ℕ) (d : Discovery Server E) : Prop where
  retried : Due w.now w.history → (w.fetch took d).ran = true
  renewed : ∀ servers, (w.fetch took d).ran = true → d = .offered servers → servers ≠ [] →
    (w.fetch took d).exchange = .ok servers
  used : (w.fetch took d).ran = false → supplied w.history ≠ [] →
    (w.fetch took d).exchange = .ok (supplied w.history)

lemma exchange_renewed {w : World Server E} {took : ℕ} {servers : List Server}
    (hr : (w.fetch took (.offered servers)).ran = true) (hs : servers ≠ []) :
    (w.fetch took (.offered servers)).exchange = .ok servers := by
  obtain ⟨he,hf⟩ := (ran_iff _ _ _ _).mp hr
  have hl : servers.length ≠ 0 := fun h => hs (List.length_eq_zero_iff.mp h)
  simp [World.fetch,Transport.fetch,he,hf,Transport.updateServers,hl,Fetched.exchange]

lemma lastFailed_of_supplied {history : List (Entry Server E)} (h : supplied history ≠ []) :
    lastFailed history = false := by
  induction history with
  | nil => rfl
  | cons e rest ih =>
    match e with
    | .reset => exact absurd rfl h
    | .attempt _ (.noInterface _) => exact ih h
    | .attempt _ (.failed _ _) => exact absurd rfl h
    | .attempt _ (.offered servers) =>
      exact decide_eq_false fun hl => h (List.length_eq_zero_iff.mp hl)

lemma Tracked.exchange_used {w : World Server E} (h : Tracked w) {took : ℕ}
    {d : Discovery Server E} (hr : (w.fetch took d).ran = false) (hs : supplied w.history ≠ []) :
    (w.fetch took d).exchange = .ok (supplied w.history) := by
  have he : w.transport.lastError = none := by
    have hf := h.failed
    rw [lastFailed_of_supplied hs] at hf
    exact Option.isSome_eq_false_iff.mp hf |> Option.isNone_iff_eq_none.mp
  have hf : w.transport.fresh w.now = true := by
    cases hf : w.transport.fresh w.now with
    | true => rfl
    | false => rw [World.fetch,(ran_iff _ _ _ _).mpr ⟨he,hf⟩] at hr; cases hr
  have hl : (supplied w.history).length ≠ 0 := fun h => hs (List.length_eq_zero_iff.mp h)
  simp [World.fetch,Transport.fetch,he,hf,Fetched.exchange,h.servers hs,hl]

/-- After every run, a query is served as it should be exactly when no failed discovery stands in
the way of one that is due. -/
theorem query_served_iff (events : List (Event Server E)) (took : ℕ) (d : Discovery Server E) :
    Served (World.run events) took d ↔
      (Due (World.run events).now (World.run events).history →
        lastFailed (World.run events).history = false) := by
  have h := tracked_run events
  have he := h.failed
  constructor
  · intro hs hd
    have hr := (ran_iff _ _ _ _).mp (hs.retried hd)
    rw [← he,hr.1]
    rfl
  · intro hc
    refine ⟨fun hd => ?_,fun servers hr hd hs => ?_,fun hr hs => h.exchange_used hr hs⟩
    · rw [hc hd] at he
      exact (ran_iff _ _ _ _).mpr
        ⟨Option.isNone_iff_eq_none.mp (Option.isSome_eq_false_iff.mp he),h.not_fresh hd⟩
    · subst hd
      exact exchange_renewed hr hs

def Event.updatesInterface : Event Server E → Bool
  | .interfaceUpdated _ _ => true
  | _ => false

lemma lastError_kept {w : World Server E} {err : FetchError E}
    (h : w.transport.lastError = some err) {events : List (Event Server E)}
    (he : ∀ e ∈ events,e.updatesInterface = false) :
    (events.foldl World.step w).transport.lastError = some err := by
  induction events generalizing w with
  | nil => exact h
  | cons e events ih =>
    refine ih ?_ fun e' h' => he e' (List.mem_cons_of_mem _ h')
    cases e with
    | advance time => exact h
    | query took d =>
      have hr : (w.fetch took d).ran = false := by rw [World.fetch,Transport.fetch,h]
      rw [World.step,hr]
      exact h
    | interfaceUpdated took d => cases he _ List.mem_cons_self
    | reset => exact h

/-- Neither time nor a Reset helps after a failure: every later query fails with its error until
the interface is updated, whatever a discovery would bring. -/
theorem failed_discovery_kept :
    Due (World.run [.query 0 (.failed () none),.reset] : World ℕ Unit).now
      (World.run [.query 0 (.failed () none),.reset] : World ℕ Unit).history ∧
    ∀ events : List (Event ℕ Unit), (∀ e ∈ events, e.updatesInterface = false) → ∀ took d,
      ((World.run ([.query 0 (.failed () none),.reset] ++ events)).fetch took d).ran = false ∧
      ((World.run ([.query 0 (.failed () none),.reset] ++ events)).fetch took d).exchange =
        .error (.fetchServers ()) := by
  refine ⟨trivial,fun events he took d => ?_⟩
  have h : (World.run ([.query 0 (.failed () none),.reset] ++ events)).transport.lastError =
      some (.fetchServers ()) := by
    rw [World.run,List.foldl_append]
    exact lastError_kept rfl he
  rw [World.fetch,Transport.fetch,h]
  exact ⟨rfl,rfl⟩

end SingBoxAuth.DHCPDiscovery
