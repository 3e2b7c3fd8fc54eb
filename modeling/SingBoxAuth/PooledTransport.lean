import SingBoxAuth.ResourceOwnership
import SingBoxAuth.Transitions

/-! The DNS-over-TLS transport: exchanges that take connections from a pool or dial them and put
them back, under any interleaving with Reset and Close. -/
namespace SingBoxAuth.PooledTransport
open ResourceOwnership Transitions

inductive TransportState
  | new
  | started
  | closing
  | closed
  deriving DecidableEq

def TransportState.isClosing : TransportState → Bool
  | .new => false
  | .started => false
  | .closing => true
  | .closed => true

structure BaseTransport where
  state : TransportState
  inFlight : ℕ
  /-- The channel that Shutdown waits for is there. -/
  queriesComplete : Bool
  deriving DecidableEq

namespace BaseTransport

def setStarted (b : BaseTransport) : BaseTransport × Bool :=
  match b.state with
  | .new => ({ b with state := .started },true)
  | .started => (b,true)
  | _ => (b,false)

def beginQuery (b : BaseTransport) : BaseTransport × Bool :=
  if b.state ≠ .started then (b,false)
  else ({ b with inFlight := b.inFlight + 1 },true)

def endQuery (b : BaseTransport) : BaseTransport × Bool :=
  if b.inFlight - 1 = 0 ∧ b.queriesComplete = true then (⟨b.state,b.inFlight - 1,false⟩,true)
  else ({ b with inFlight := b.inFlight - 1 },false)

/-- The first locked part of Shutdown. The flag tells that it waits for the queries. -/
def shutdown (b : BaseTransport) : BaseTransport × Bool :=
  if b.state.isClosing then (b,false)
  else if b.state = .new then ({ b with state := .closed },false)
  else if b.inFlight = 0 then ({ b with state := .closed },false)
  else ({ b with
    state := .closing
    queriesComplete := true },true)

def setClosed (b : BaseTransport) : BaseTransport := { b with state := .closed }

end BaseTransport

/-- Where a call is: the next atomic step of it, or that it has returned. -/
inductive Call
  | setStarted
  | started
  | beginQuery
  | popFront
  /-- WriteMessage and ReadMessage on a connection, which may be one of the pool. -/
  | exchange (conn : ℕ) (pooled : Bool)
  | discard (conn : ℕ) (pooled : Bool)
  | dial
  /-- The state check and the push, under the lock. -/
  | pushBack (conn : ℕ)
  | closeLate (conn : ℕ)
  | endQuery
  | exchanged
  | drainReset
  | wasReset
  | drainClose
  | shutdown
  | await
  | setClosed
  | wasClosed
  deriving DecidableEq

namespace Call

def conn : Call → Option ℕ
  | .exchange conn _ => some conn
  | .discard conn _ => some conn
  | .pushBack conn => some conn
  | .closeLate conn => some conn
  | _ => none

def exchanging : Call → Bool
  | .beginQuery => true
  | .popFront => true
  | .exchange _ _ => true
  | .discard _ _ => true
  | .dial => true
  | .pushBack _ => true
  | .closeLate _ => true
  | .endQuery => true
  | _ => false

def shutting : Call → Bool
  | .await => true
  | .setClosed => true
  | .wasClosed => true
  | _ => false

end Call

inductive Op
  | start
  | exchange
  | reset
  | close
  deriving DecidableEq

def Op.first : Op → Call
  | .start => .setStarted
  | .exchange => .beginQuery
  | .reset => .drainReset
  | .close => .drainClose

/-- The transport with its calls. Connections are numbered in the order in which they are dialed. -/
structure TLSTransport where
  base : BaseTransport
  connections : List ℕ
  dialed : ℕ
  closed : List ℕ
  /-- The channel that Shutdown waits for is closed. -/
  complete : Bool
  calls : List Call
  deriving DecidableEq

def newTLS : TLSTransport := ⟨⟨.new,0,false⟩,[],0,[],false,[]⟩

namespace TLSTransport

/-- Close and Reset: every connection of the pool is closed, under the lock. -/
def drain (s : TLSTransport) : TLSTransport :=
  { s with
    connections := []
    closed := s.connections ++ s.closed }

def closeConn (s : TLSTransport) (conn : ℕ) : TLSTransport := { s with closed := conn :: s.closed }

/-- The next step of a call, and where it is then. Messages may fail to be exchanged, dials may
fail, and Shutdown may stop waiting when its time is over. -/
def advance (s : TLSTransport) (ok : Bool) : Call → Option (TLSTransport × Call)
  | .setStarted => some ({ s with base := s.base.setStarted.1 },.started)
  | .beginQuery =>
    some ({ s with base := s.base.beginQuery.1 },
      if s.base.beginQuery.2 then .popFront else .exchanged)
  | .popFront =>
    match s.connections with
    | [] => some (s,.dial)
    | conn :: rest => some ({ s with connections := rest },.exchange conn true)
  | .exchange conn pooled => some (s,if ok then .pushBack conn else .discard conn pooled)
  | .discard conn pooled => some (s.closeConn conn,if pooled then .dial else .endQuery)
  | .dial =>
    if ok then some ({ s with dialed := s.dialed + 1 },.exchange s.dialed false)
    else some (s,.endQuery)
  | .pushBack conn =>
    if s.base.state.isClosing then some (s,.closeLate conn)
    else some ({ s with connections := s.connections ++ [conn] },.endQuery)
  | .closeLate conn => some (s.closeConn conn,.endQuery)
  | .endQuery =>
    some ({ s with
      base := s.base.endQuery.1
      complete := s.complete || s.base.endQuery.2 },.exchanged)
  | .drainReset => some (s.drain,.wasReset)
  | .drainClose => some (s.drain,.shutdown)
  | .shutdown =>
    some ({ s with base := s.base.shutdown.1 },
      if s.base.shutdown.2 then .await else .wasClosed)
  | .await => if ok && !s.complete then none else some (s,.setClosed)
  | .setClosed => some ({ s with base := s.base.setClosed },.wasClosed)
  | .started => none
  | .exchanged => none
  | .wasReset => none
  | .wasClosed => none

end TLSTransport

inductive Event
  | call (op : Op)
  | run (t : ℕ) (ok : Bool)
  deriving DecidableEq

namespace TLSTransport

def perform (s : TLSTransport) : Event → Option TLSTransport
  | .call op => some { s with calls := s.calls ++ [op.first] }
  | .run t ok =>
    match s.calls[t]? with
    | none => none
    | some call => (s.advance ok call).map fun r => { r.1 with calls := s.calls.set t r.2 }

def step (s : TLSTransport) (e : Event) (s' : TLSTransport) : Prop := s.perform e = some s'

def use (s : TLSTransport) (t : ℕ) : Option ℕ := s.calls[t]?.bind Call.conn

def ledger (s : TLSTransport) : Ledger ℕ := ⟨s.dialed,s.use,s.connections,s.closed⟩

section moves

variable {s : TLSTransport} {t : ℕ} {call : Call}

lemma use_eq (h : s.calls[t]? = some call) : s.use t = call.conn := by
  rw [use,h]
  rfl

lemma ledger_set (h : s.calls[t]? = some call) (s' : TLSTransport) (call' : Call) :
    ({ s' with calls := s.calls.set t call' } : TLSTransport).ledger =
      ⟨s'.dialed,Function.update s.use t call'.conn,s'.connections,s'.closed⟩ := by
  have hus : ({ s' with calls := s.calls.set t call' } : TLSTransport).use =
      Function.update s.use t call'.conn := by
    funext u
    have hlt : t < s.calls.length := (List.getElem?_eq_some_iff.mp h).1
    by_cases hu : u = t
    · rw [hu,Function.update_self,use]
      simp [hlt]
    · rw [Function.update_of_ne hu,use,List.getElem?_set_ne (Ne.symm hu)]
      rfl
  rw [ledger,hus]

/-- What a step of a call does with the connections and with the state of the transport. -/
inductive Advanced (s : TLSTransport) : Call → TLSTransport → Call → Prop
  | quiet {call call' : Call} {s' : TLSTransport} (dialed : s'.dialed = s.dialed)
      (pool : s'.connections = s.connections) (closed : s'.closed = s.closed)
      (closing : s'.base.state.isClosing = s.base.state.isClosing)
      (conn : call'.conn = call.conn) (shutting : call'.shutting = call.shutting) :
      Advanced s call s' call'
  | shutdown {call call' : Call} {base : BaseTransport}
      (before : call = .shutdown ∨ call = .setClosed) (closing : base.state.isClosing = true)
      (conn : call'.conn = none) : Advanced s call { s with base := base } call'
  | take {conn : ℕ} {rest : List ℕ} (first : s.connections = conn :: rest) :
      Advanced s .popFront { s with connections := rest } (.exchange conn true)
  | dial : Advanced s .dial { s with dialed := s.dialed + 1 } (.exchange s.dialed false)
  | put {conn : ℕ} (started : s.base.state.isClosing = false) :
      Advanced s (.pushBack conn) { s with connections := s.connections ++ [conn] } .endQuery
  | close {call call' : Call} {conn : ℕ} (held : call.conn = some conn) (free : call'.conn = none)
      (shutting : call'.shutting = false) : Advanced s call (s.closeConn conn) call'
  | drain {call call' : Call} (before : call.conn = none) (free : call'.conn = none)
      (shutting : call'.shutting = false) : Advanced s call s.drain call'

lemma advance_cases {ok : Bool} {s' : TLSTransport} {call' : Call}
    (h : s.advance ok call = some (s',call')) : Advanced s call s' call' := by
  cases call with
  | setStarted =>
    cases h
    refine .quiet rfl rfl rfl ?_ rfl rfl
    dsimp only
    unfold BaseTransport.setStarted
    cases hs : s.base.state <;> simp [hs,TransportState.isClosing]
  | beginQuery =>
    cases h
    unfold BaseTransport.beginQuery
    split_ifs <;> exact .quiet rfl rfl rfl rfl rfl rfl
  | popFront =>
    rw [advance] at h
    split at h
    · cases h
      exact .quiet rfl rfl rfl rfl rfl rfl
    · rename_i conn rest hp
      cases h
      exact .take hp
  | exchange conn pooled =>
    cases h
    cases ok <;> exact .quiet rfl rfl rfl rfl rfl rfl
  | discard conn pooled =>
    cases h
    cases pooled <;> exact .close rfl rfl rfl
  | dial =>
    rw [advance] at h
    split_ifs at h
    · cases h
      exact .dial
    · cases h
      exact .quiet rfl rfl rfl rfl rfl rfl
  | pushBack conn =>
    rw [advance] at h
    split_ifs at h with hcl
    · cases h
      exact .quiet rfl rfl rfl rfl rfl rfl
    · cases h
      exact .put (by simpa using hcl)
  | closeLate conn =>
    cases h
    exact .close rfl rfl rfl
  | endQuery =>
    cases h
    refine .quiet rfl rfl rfl ?_ rfl rfl
    dsimp only
    unfold BaseTransport.endQuery
    split_ifs <;> rfl
  | drainReset =>
    cases h
    exact .drain rfl rfl rfl
  | drainClose =>
    cases h
    exact .drain rfl rfl rfl
  | shutdown =>
    cases h
    refine .shutdown (.inl rfl) ?_ ?_
    · unfold BaseTransport.shutdown
      split_ifs with hcl
      · exact hcl
      · rfl
      · rfl
      · rfl
    · split_ifs <;> rfl
  | await =>
    rw [advance] at h
    split_ifs at h
    cases h
    exact .quiet rfl rfl rfl rfl rfl rfl
  | setClosed =>
    cases h
    exact .shutdown (.inr rfl) rfl rfl
  | started => cases h
  | exchanged => cases h
  | wasReset => cases h
  | wasClosed => cases h

lemma move_advance (h : s.calls[t]? = some call) {s' : TLSTransport} {call' : Call}
    (ha : Advanced s call s' call') :
    Move s.ledger ({ s' with calls := s.calls.set t call' } : TLSTransport).ledger := by
  have hu := use_eq h
  rw [ledger_set h]
  cases ha with
  | quiet dialed pool closed closing conn shutting =>
    rw [dialed,pool,closed,conn,← hu,Function.update_eq_self]
    exact .rest
  | shutdown before closing conn =>
    have hn : call.conn = none := by obtain rfl | rfl := before <;> rfl
    rw [conn,← hn,← hu,Function.update_eq_self]
    exact .rest
  | take first => exact .take t _ _ hu first
  | dial => exact .make t hu
  | put started => exact .put t _ hu
  | close held free shutting =>
    rw [free]
    exact .release t _ (hu.trans held)
  | drain before free shutting =>
    rw [free,← before,← hu,Function.update_eq_self]
    exact .drain

lemma step_cases {e : Event} {s' : TLSTransport} (h : s.step e s') :
    (∃ op,e = .call op ∧ s' = { s with calls := s.calls ++ [op.first] }) ∨
    ∃ t ok call after call',e = .run t ok ∧ s.calls[t]? = some call ∧
      s.advance ok call = some (after,call') ∧
      s' = { after with calls := s.calls.set t call' } := by
  cases e with
  | call op =>
    cases h
    exact .inl ⟨op,rfl,rfl⟩
  | run t ok =>
    cases hca : s.calls[t]? with
    | none => simp [step,perform,hca] at h
    | some call =>
      simp only [step,perform,hca] at h
      obtain ⟨⟨after,call'⟩,ha,rfl⟩ := Option.map_eq_some_iff.mp h
      exact .inr ⟨t,ok,call,after,call',rfl,hca,ha,rfl⟩

lemma move_step {e : Event} {s' : TLSTransport} (h : s.step e s') : Move s.ledger s'.ledger := by
  obtain ⟨op,-,rfl⟩ | ⟨t,ok,call,after,call',-,hca,ha,rfl⟩ := step_cases h
  · have hus : ({ s with calls := s.calls ++ [op.first] } : TLSTransport).use = s.use := by
      funext u
      have hf : op.first.conn = none := by cases op <;> rfl
      unfold use
      rw [List.getElem?_append]
      split_ifs with hu
      · rfl
      · rw [List.getElem?_eq_none (Nat.not_lt.mp hu),List.getElem?_singleton]
        split_ifs
        · exact hf
        · rfl
    have hl : ({ s with calls := s.calls ++ [op.first] } : TLSTransport).ledger = s.ledger := by
      rw [ledger,hus]
      rfl
    rw [hl]
    exact .rest
  · exact move_advance hca (advance_cases ha)

lemma sound_of_reaches {cond : TLSTransport → Event → Prop} (h : Reaches step cond newTLS s) :
    Sound s.ledger := by
  refine h.invariant (fun s => Sound s.ledger) sound_empty ?_
  intro s e s' hs hst _
  exact hs.move (move_step hst)

end moves

def Exclusive (s : TLSTransport) : Prop :=
  ∀ t u conn, s.use t = some conn → s.use u = some conn → t = u

def Done (s : TLSTransport) : Prop :=
  .wasClosed ∈ s.calls ∧ ∀ call ∈ s.calls, call.exchanging = false

def AllClosed (s : TLSTransport) : Prop := ∀ conn < s.dialed, conn ∈ s.closed

/-- Where Shutdown changes the state, no connection was put back since Close drained the pool. -/
def Drained (s : TLSTransport) (e : Event) : Prop :=
  ∀ t ok, e = .run t ok → s.calls[t]? = some .shutdown → s.base.state.isClosing = false →
    s.connections = []

section closing

variable {s : TLSTransport}

/-- A Close that is behind the state change has made the transport closing. -/
def Shut (s : TLSTransport) : Prop :=
  ∀ call ∈ s.calls, call.shutting = true → s.base.state.isClosing = true

lemma isClosing_advance {call call' : Call} {s' : TLSTransport} (h : Advanced s call s' call')
    (hcl : s.base.state.isClosing = true) : s'.base.state.isClosing = true := by
  cases h with
  | quiet _ _ _ closing => rw [closing,hcl]
  | shutdown _ closing => exact closing
  | take => exact hcl
  | dial => exact hcl
  | put => exact hcl
  | close => exact hcl
  | drain => exact hcl

lemma shut_step {e : Event} {s' : TLSTransport} (hs : Shut s) (h : s.step e s') : Shut s' := by
  obtain ⟨op,-,rfl⟩ | ⟨t,ok,call,after,call',-,hca,had,rfl⟩ := step_cases h
  · intro call hme hsh
    obtain hme | hme := List.mem_append.mp hme
    · exact hs call hme hsh
    · rw [List.mem_singleton.mp hme] at hsh
      cases op <;> cases hsh
  · intro other hme hsh
    have ha := advance_cases had
    have hold : ∀ c ∈ s.calls,c.shutting = true → after.base.state.isClosing = true :=
      fun c hc hc' => isClosing_advance ha (hs c hc hc')
    obtain hme | rfl := List.mem_or_eq_of_mem_set hme
    · exact hold other hme hsh
    · cases ha with
      | quiet _ _ _ _ _ shutting =>
        exact hold call (List.mem_of_getElem? hca) (by rw [← shutting,hsh])
      | shutdown _ closing => exact closing
      | take => cases hsh
      | dial => cases hsh
      | put => cases hsh
      | close _ _ shutting =>
        rw [shutting] at hsh
        cases hsh
      | drain _ _ shutting =>
        rw [shutting] at hsh
        cases hsh

lemma shut_of_reaches {cond : TLSTransport → Event → Prop} (h : Reaches step cond newTLS s) :
    Shut s :=
  h.invariant Shut (fun call hca => by cases hca) fun _ _ _ hs hst _ => shut_step hs hst

lemma drained_step {e : Event} {s' : TLSTransport} (hsh : Shut s)
    (hs : s.base.state.isClosing = true → s.connections = []) (h : s.step e s')
    (hd : Drained s e) (hcl : s'.base.state.isClosing = true) :
    s'.connections = [] := by
  obtain ⟨op,-,rfl⟩ | ⟨t,ok,call,after,call',rfl,hca,ha,rfl⟩ := step_cases h
  · exact hs hcl
  · cases advance_cases ha with
    | quiet _ pool _ closing =>
      rw [closing] at hcl
      exact pool.trans (hs hcl)
    | shutdown before =>
      cases hst : s.base.state.isClosing with
      | true => exact hs hst
      | false =>
        obtain rfl | rfl := before
        · exact hd t ok rfl hca hst
        · rw [hsh _ (List.mem_of_getElem? hca) rfl] at hst
          cases hst
    | take first =>
      rw [hs hcl] at first
      cases first
    | dial => exact hs hcl
    | put started =>
      have hcl : s.base.state.isClosing = true := hcl
      rw [started] at hcl
      cases hcl
    | close => exact hs hcl
    | drain => rfl

lemma connections_of_drained (h : Reaches step Drained newTLS s)
    (hcl : s.base.state.isClosing = true) : s.connections = [] := by
  have hi := h.invariant (fun s => Shut s ∧ (s.base.state.isClosing = true → s.connections = []))
    ⟨fun call hca => (by cases hca),fun hn => by cases hn⟩
    fun _ _ _ hs hst hco => ⟨shut_step hs.1 hst,drained_step hs.1 hs.2 hst hco⟩
  exact hi.2 hcl

lemma use_of_done (h : s.Done) (t : ℕ) : s.use t = none := by
  cases hca : s.calls[t]? with
  | none => simp [use,hca]
  | some call =>
    rw [use_eq hca]
    have hi := h.2 call (List.mem_of_getElem? hca)
    cases call <;> first | rfl | cases hi

/-- In every state reached no connection is used by two exchanges at a time, and after Close and all
exchanges have returned the connections are closed except for those left in the pool. In every run in
which Shutdown changes the state only where the pool is still drained, all are closed then. -/
theorem pooled_connections_closed (s : TLSTransport) : (Reaches step anyStep newTLS s →
      s.Exclusive ∧ (s.Done → (s.AllClosed ↔ s.connections = []))) ∧
    (Reaches step Drained newTLS s → s.Done → s.AllClosed) := by
  have hp : Sound s.ledger → s.Done → ∀ conn < s.dialed, conn ∈ s.connections ∨ conn ∈ s.closed :=
    fun hs hd conn hco => hs.released_or_pooled (use_of_done hd) hco
  refine ⟨fun h => ⟨(sound_of_reaches h).exclusive,fun hd => ⟨fun ha => ?_,?_⟩⟩,?_⟩
  · have hs := sound_of_reaches h
    rw [List.eq_nil_iff_forall_not_mem]
    intro conn hco
    have hcl := ha conn (hs.made_of_place conn (List.mem_append_left _ hco))
    exact (List.nodup_append.mp hs.once).2.2 conn hco conn hcl rfl
  · intro hpo conn hco
    obtain hme | hme := hp (sound_of_reaches h) hd conn hco
    · rw [hpo] at hme
      cases hme
    · exact hme
  · intro h hd conn hco
    have hpo := connections_of_drained h (shut_of_reaches h _ hd.1 rfl)
    obtain hme | hme := hp (sound_of_reaches h) hd conn hco
    · rw [hpo] at hme
      cases hme
    · exact hme

end closing

section runs

def isDrained (s : TLSTransport) : Event → Bool
  | .call _ => true
  | .run t _ => s.calls[t]? ≠ some .shutdown || s.base.state.isClosing || s.connections = []

lemma drained_of_isDrained {s : TLSTransport} {e : Event} (h : s.isDrained e = true) :
    Drained s e := by
  rintro t ok rfl hca hcl
  simpa [isDrained,hca,hcl] using h

def oneExchange : List Event :=
  [.call .start,.run 0 true,.call .exchange,.run 1 true,.run 1 true,.run 1 true,.run 1 true]

def closeAfterwards : List Event :=
  oneExchange ++ [.run 1 true,.run 1 true,.call .close,.run 2 true,.run 2 true]

def closeBetween : List Event :=
  oneExchange ++ [.call .close,.run 2 true,.run 1 true,.run 1 true,.run 2 true]

def closedPool : TLSTransport :=
  ⟨⟨.closed,0,false⟩,[],1,[0],false,[.started,.exchanged,.wasClosed]⟩

def leftPool : TLSTransport :=
  ⟨⟨.closed,0,false⟩,[0],1,[],false,[.started,.exchanged,.wasClosed]⟩

theorem connection_closed_afterwards :
    Reaches step Drained newTLS closedPool ∧ closedPool.Done ∧ closedPool.AllClosed := by
  have hru : follow perform isDrained closeAfterwards newTLS = some closedPool := by decide
  have hr : Reaches step Drained newTLS closedPool :=
    (reaches_of_follow .start hru).mono fun _ _ => drained_of_isDrained
  have hd : closedPool.Done := by
    unfold Done
    decide
  exact ⟨hr,hd,(pooled_connections_closed closedPool).2 hr hd⟩

/-- A connection stays open in the pool of a closed transport. -/
theorem connection_left_in_pool :
    Reaches step anyStep newTLS leftPool ∧ leftPool.Done ∧ ¬ leftPool.AllClosed := by
  have hr : follow perform (fun _ _ => true) closeBetween newTLS = some leftPool := by decide
  refine ⟨(reaches_of_follow .start hr).mono fun _ _ _ => trivial,?_,fun ha => ?_⟩
  · unfold Done
    decide
  · cases ha 0 (by decide)

end runs

end TLSTransport

end SingBoxAuth.PooledTransport
