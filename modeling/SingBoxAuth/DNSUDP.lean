import Mathlib.Data.Fintype.Card
import SingBoxAuth.Transitions

/-! Queries over UDP: the table of query ids, the exchanges that wait for an answer, and the receive
loops that hand datagrams to them. -/
namespace SingBoxAuth.DNSUDP
open Transitions

abbrev QueryId := Fin 65536

structure Msg (M : Type) where
  id : QueryId
  content : M

inductive Failure
  | noAvailableQueryID
  | pack
  | write
  | connection
  | transportClosed
  | context

inductive Phase
  | fresh
  | connected
  | registered
  | packed
  | waiting
  | leaving
  | returned
deriving DecidableEq

def Phase.placed : Phase → Bool
  | .fresh => false
  | .connected => false
  | _ => true

def Phase.inFlight : Phase → Bool
  | .returned => false
  | phase => phase.placed

lemma Phase.placed_of_inFlight {phase : Phase} (h : phase.inFlight = true) : phase.placed = true := by
  cases phase <;> first | rfl | cases h

variable {M : Type}

/-- A call of `exchange` and its callback. What the receive loops hand to the callback is kept with
the number of its datagram, and so is how often the callback's channel was closed. -/
structure Exchange (M : Type) where
  phase : Phase
  originalId : QueryId
  conn : ℕ
  queryId : QueryId
  delivered : List (ℕ × Msg M)
  closes : ℕ
  response : Option (Msg M)
  outcome : Option (Except Failure (Msg M))

structure State (M : Type) where
  exchange : ℕ → Exchange M
  callbacks : QueryId → Option ℕ
  queryId : QueryId
  /-- The datagrams received so far. -/
  received : ℕ
  /-- What the loop of a connection has found: the exchange, the number of the datagram, and it. -/
  loops : ℕ → Option (ℕ × ℕ × Msg M)
  connDone : ℕ → Bool
  contextDone : ℕ → Bool
  closed : Bool

/-- The loop of `nextAvailableQueryId`, for a number of turns; without a result it goes on. -/
def nextAvailableQueryId (callbacks : QueryId → Option ℕ) (start : QueryId) :
    ℕ → QueryId → Option (QueryId × Option QueryId)
  | 0, _ => none
  | turns + 1, queryId =>
    if (callbacks (queryId + 1)).isNone then some (queryId + 1,some (queryId + 1))
    else if queryId + 1 = start then some (queryId + 1,none)
    else nextAvailableQueryId callbacks start turns (queryId + 1)

inductive Reason
  | done
  | connection
  | transportClosed
  | context

inductive Event (M : Type)
  | begin (i : ℕ) (originalId : QueryId) (conn : ℕ)
  | register (i : ℕ)
  | pack (i : ℕ) (ok : Bool)
  | write (i : ℕ) (ok : Bool)
  | select (i : ℕ) (reason : Reason)
  | remove (i : ℕ)
  | receive (conn : ℕ) (message : Msg M)
  | complete (conn : ℕ)
  | fail (conn : ℕ)
  | close
  | endContext (i : ℕ)

namespace State

variable (s : State M)

def set (i : ℕ) (e : Exchange M) : State M := { s with exchange := Function.update s.exchange i e }

/-- What a waiting exchange returns when it wakes up for a reason that holds. -/
def wakes (i : ℕ) : Reason → Option (Except Failure (Msg M))
  | .done =>
    if (s.exchange i).closes = 0 then none
    else (s.exchange i).response.map fun m => .ok { m with id := (s.exchange i).originalId }
  | .connection => if s.connDone (s.exchange i).conn then some (.error .connection) else none
  | .transportClosed => if s.closed then some (.error .transportClosed) else none
  | .context => if s.contextDone i then some (.error .context) else none

def leave (i : ℕ) (outcome : Except Failure (Msg M)) : State M :=
  s.set i { s.exchange i with phase := .leaving, outcome := some outcome }

def perform : Event M → Option (State M)
  | .begin i originalId conn =>
    if (s.exchange i).phase = .fresh then
      some (s.set i { s.exchange i with phase := .connected, originalId := originalId, conn := conn })
    else none
  | .register i =>
    if (s.exchange i).phase = .connected then
      match nextAvailableQueryId s.callbacks s.queryId 65536 s.queryId with
      | none => none
      | some (next,none) =>
        some { s.set i { s.exchange i with
            phase := .returned, outcome := some (.error .noAvailableQueryID) } with
          queryId := next }
      | some (next,some found) =>
        some { s.set i { s.exchange i with phase := .registered, queryId := found } with
          queryId := next
          callbacks := Function.update s.callbacks found (some i) }
    else none
  | .pack i ok =>
    if (s.exchange i).phase = .registered then
      if ok then some (s.set i { s.exchange i with phase := .packed })
      else some (s.leave i (.error .pack))
    else none
  | .write i ok =>
    if (s.exchange i).phase = .packed then
      if ok then some (s.set i { s.exchange i with phase := .waiting })
      else some { s.leave i (.error .write) with
        connDone := Function.update s.connDone (s.exchange i).conn true }
    else none
  | .select i reason =>
    if (s.exchange i).phase = .waiting then (s.wakes i reason).map (s.leave i) else none
  | .remove i =>
    if (s.exchange i).phase = .leaving then
      some { s.set i { s.exchange i with phase := .returned } with
        callbacks := Function.update s.callbacks (s.exchange i).queryId none }
    else none
  | .receive conn message =>
    match s.loops conn with
    | some _ => none
    | none =>
      some { s with
        received := s.received + 1
        loops := Function.update s.loops conn
          ((s.callbacks message.id).map fun i => (i,s.received,message)) }
  | .complete conn =>
    match s.loops conn with
    | none => none
    | some (i,n,message) =>
      let e := s.exchange i
      let e' : Exchange M :=
        if e.closes = 0 then { e with response := some message, closes := e.closes + 1 } else e
      some { s.set i { e' with delivered := e.delivered ++ [(n,message)] } with
        loops := Function.update s.loops conn none }
  | .fail conn => some { s with connDone := Function.update s.connDone conn true }
  | .close => some { s with closed := true }
  | .endContext i => some { s with contextDone := Function.update s.contextDone i true }

/-- A receive loop has found the exchange for a datagram, or has handed it over. -/
def Handed (n i : ℕ) (m : Msg M) : Prop :=
  (∃ conn, s.loops conn = some (i,n,m)) ∨ (n,m) ∈ (s.exchange i).delivered

end State

def initial : State M where
  exchange _ := ⟨.fresh,0,0,0,[],0,none,none⟩
  callbacks _ := none
  queryId := 0
  received := 0
  loops _ := none
  connDone _ := false
  contextDone _ := false
  closed := false

/-- The callback has the first message handed to it, its channel is closed at most once, and what
the exchange returns is that message with the caller's id. -/
structure Exchange.Sound (e : Exchange M) : Prop where
  closes : e.closes = if e.delivered = [] then 0 else 1
  response : e.response = e.delivered.head?.map Prod.snd
  early : e.phase ≠ .leaving → e.phase ≠ .returned → e.outcome = none
  answer : ∀ m, e.outcome = some (.ok m) →
    ∃ n first, e.delivered.head? = some (n,first) ∧ m = { first with id := e.originalId }

structure Inv (s : State M) : Prop where
  callbacks : ∀ q i, s.callbacks q = some i ↔
    (s.exchange i).phase.inFlight = true ∧ (s.exchange i).queryId = q
  sound : ∀ i, (s.exchange i).Sound
  addressed : ∀ n i m, s.Handed n i m →
    (s.exchange i).phase.placed = true ∧ (s.exchange i).queryId = m.id ∧ n < s.received
  once : ∀ n i j m m', s.Handed n i m → s.Handed n j m' → i = j

/-! The ids. -/

def QueryId.after (start : QueryId) (k : ℕ) : QueryId :=
  ⟨(start.val + k) % 65536,Nat.mod_lt _ (by decide)⟩

lemma QueryId.after_succ (start : QueryId) (k : ℕ) : start.after k + 1 = start.after (k + 1) := by
  apply Fin.ext
  simp only [after,Fin.val_add,Fin.val_one]
  omega

lemma QueryId.after_zero (start : QueryId) : start.after 0 = start :=
  Fin.ext (Nat.mod_eq_of_lt start.isLt)

lemma QueryId.exists_after (start q : QueryId) : ∃ j,0 < j ∧ j ≤ 65536 ∧ start.after j = q := by
  have hstart := start.isLt
  have hq := q.isLt
  by_cases hlt : start.val < q.val
  · refine ⟨q.val - start.val,by omega,by omega,Fin.ext ?_⟩
    simp only [after]
    omega
  · refine ⟨q.val + 65536 - start.val,by omega,by omega,Fin.ext ?_⟩
    simp only [after]
    omega

lemma nextAvailableQueryId_spec (callbacks : QueryId → Option ℕ) (start : QueryId) (turns : ℕ)
    {k : ℕ} (ht : k + turns = 65536) (hp : 0 < turns)
    (hs : ∀ j,0 < j → j ≤ k → (callbacks (start.after j)).isSome = true) :
    ∃ next found,nextAvailableQueryId callbacks start turns (start.after k) = some (next,found) ∧
      (∀ q,found = some q → callbacks q = none) ∧
      (found = none → ∀ q,(callbacks q).isSome = true) := by
  induction turns generalizing k with
  | zero => cases hp
  | succ turns ih =>
    rw [nextAvailableQueryId,QueryId.after_succ]
    by_cases hf : (callbacks (start.after (k + 1))).isNone = true
    · rw [if_pos hf]
      exact ⟨_,_,rfl,fun q hq => by cases hq; exact Option.isNone_iff_eq_none.mp hf,by simp⟩
    rw [if_neg hf]
    have hnext : ∀ j,0 < j → j ≤ k + 1 → (callbacks (start.after j)).isSome = true := by
      intro j hj hle
      rcases Nat.lt_or_ge k j with hlt | hge
      · have hj' : j = k + 1 := by omega
        rw [hj']
        simpa [Option.isSome_iff_ne_none,Option.isNone_iff_eq_none] using hf
      · exact hs j hj hge
    split_ifs with hstart
    · have hl : k + 1 = 65536 := by
        have hv := congrArg Fin.val hstart
        have hlt := start.isLt
        simp only [QueryId.after] at hv
        omega
      refine ⟨_,_,rfl,by simp,fun _ q => ?_⟩
      obtain ⟨j,hj,hle,rfl⟩ := start.exists_after q
      exact hnext j hj (by omega)
    · have hlt := start.isLt
      have ht' : 0 < turns := by
        by_contra hzero
        refine hstart (Fin.ext ?_)
        simp only [QueryId.after]
        omega
      exact ih (by omega) ht' hnext

lemma nextAvailableQueryId_start (callbacks : QueryId → Option ℕ) (start : QueryId) :
    ∃ next found,nextAvailableQueryId callbacks start 65536 start = some (next,found) ∧
      (∀ q,found = some q → callbacks q = none) ∧
      (found = none → ∀ q,(callbacks q).isSome = true) := by
  have hs := nextAvailableQueryId_spec callbacks start 65536 (k := 0) rfl (by decide)
    fun j hj hle => absurd hj (by omega)
  rwa [QueryId.after_zero] at hs

lemma nextAvailableQueryId_iff (callbacks : QueryId → Option ℕ) (start : QueryId) :
    (∃ next found,nextAvailableQueryId callbacks start 65536 start = some (next,some found)) ↔
      (Finset.univ.filter fun q => (callbacks q).isSome = true).card < 65536 := by
  obtain ⟨next,found,heq,hf,hfu⟩ := nextAvailableQueryId_start callbacks start
  rw [heq]
  have hca : Fintype.card QueryId = 65536 := Fintype.card_fin _
  cases found with
  | some q =>
    refine ⟨fun _ => ?_,fun _ => ⟨next,q,rfl⟩⟩
    refine (Finset.card_lt_univ_of_notMem (x := q) ?_).trans_eq hca
    simp [hf q rfl]
  | none =>
    refine ⟨?_,fun hlt => ?_⟩
    · rintro ⟨_,_,h⟩
      cases h
    · rw [Finset.filter_true_of_mem fun q _ => hfu rfl q,Finset.card_univ,hca] at hlt
      exact absurd hlt (lt_irrefl _)

/-! The exchanges. -/

section

variable {s t : State M}

lemma Inv.of_step (h : Inv s) (hca : ∀ q i,t.callbacks q = some i ↔
      (t.exchange i).phase.inFlight = true ∧ (t.exchange i).queryId = q)
    (hso : ∀ i,(t.exchange i).Sound)
    (hk : ∀ i,(s.exchange i).phase.placed = true →
      (t.exchange i).phase.placed = true ∧ (t.exchange i).queryId = (s.exchange i).queryId)
    (hr : s.received ≤ t.received)
    (hh : (∀ n i m,t.Handed n i m → s.Handed n i m) ∨
      ∃ message,s.received < t.received ∧ ∀ n i m,t.Handed n i m → s.Handed n i m ∨
        n = s.received ∧ m = message ∧ s.callbacks message.id = some i) : Inv t := by
  refine ⟨hca,hso,?_,?_⟩
  · intro n i m hm
    have hold : s.Handed n i m → (t.exchange i).phase.placed = true ∧
        (t.exchange i).queryId = m.id ∧ n < t.received := by
      intro hm
      obtain ⟨hp,hid,hlt⟩ := h.addressed n i m hm
      obtain ⟨hp',hid'⟩ := hk i hp
      exact ⟨hp',hid'.trans hid,hlt.trans_le hr⟩
    rcases hh with hs | ⟨message,hlt,hne⟩
    · exact hold (hs n i m hm)
    · rcases hne n i m hm with hm | ⟨rfl,rfl,hf⟩
      · exact hold hm
      · obtain ⟨hfl,hid⟩ := (h.callbacks _ _).mp hf
        obtain ⟨hp',hid'⟩ := hk i (Phase.placed_of_inFlight hfl)
        exact ⟨hp',hid'.trans hid,hlt⟩
  · intro n i j m m' hm hm'
    rcases hh with hs | ⟨message,hlt,hne⟩
    · exact h.once n i j m m' (hs _ _ _ hm) (hs _ _ _ hm')
    · rcases hne n i m hm with hm | ⟨rfl,rfl,hf⟩ <;> rcases hne _ j m' hm' with hm' | ⟨hn,-,hf'⟩
      · exact h.once n i j m m' hm hm'
      · exact absurd (h.addressed n i m hm).2.2 (by omega)
      · exact absurd (h.addressed _ j m' hm').2.2 (lt_irrefl _)
      · exact Option.some.inj (hf.symm.trans hf')

lemma Inv.update (h : Inv s) {i : ℕ} {e : Exchange M}
    (he : t.exchange = Function.update s.exchange i e) (hr : t.received = s.received)
    (hs : e.Sound)
    (hk : (s.exchange i).phase.placed = true →
      e.phase.placed = true ∧ e.queryId = (s.exchange i).queryId)
    (hse : ∀ q,t.callbacks q = some i ↔ e.phase.inFlight = true ∧ e.queryId = q)
    (hot : ∀ q j,j ≠ i → (t.callbacks q = some j ↔ s.callbacks q = some j))
    (hh : ∀ n j m,t.Handed n j m → s.Handed n j m) : Inv t := by
  have hi : t.exchange i = e := by rw [he,Function.update_self]
  have ho : ∀ j,j ≠ i → t.exchange j = s.exchange j := by
    intro j hj
    rw [he,Function.update_of_ne hj]
  refine h.of_step ?_ ?_ ?_ hr.ge (.inl hh)
  · intro q j
    by_cases hj : j = i
    · rw [hj,hi]
      exact hse q
    · rw [ho j hj,hot q j hj]
      exact h.callbacks q j
  · intro j
    by_cases hj : j = i
    · rw [hj,hi]
      exact hs
    · rw [ho j hj]
      exact h.sound j
  · intro j hp
    by_cases hj : j = i
    · subst hj
      rw [hi]
      exact hk hp
    · rw [ho j hj]
      exact ⟨hp,rfl⟩

lemma handed_of_delivered {i : ℕ} {e : Exchange M}
    (he : t.exchange = Function.update s.exchange i e) (hl : t.loops = s.loops)
    (hd : e.delivered = (s.exchange i).delivered) (n j : ℕ) (m : Msg M)
    (h : t.Handed n j m) : s.Handed n j m := by
  rw [State.Handed,he,hl] at h
  refine h.imp_right fun hm => ?_
  by_cases hj : j = i
  · subst hj
    rwa [Function.update_self,hd] at hm
  · rwa [Function.update_of_ne hj] at hm

lemma Inv.set (h : Inv s) {i : ℕ} {e : Exchange M}
    (hf : e.phase.inFlight = (s.exchange i).phase.inFlight)
    (hpl : (s.exchange i).phase.placed = true → e.phase.placed = true)
    (hid : e.queryId = (s.exchange i).queryId) (hd : e.delivered = (s.exchange i).delivered)
    (hs : e.Sound) : Inv (s.set i e) := by
  refine h.update rfl rfl hs (fun hp => ⟨hpl hp,hid⟩) (fun q => ?_) (fun _ _ _ => .rfl)
    (handed_of_delivered rfl rfl hd)
  rw [hf,hid]
  exact h.callbacks q i

lemma Inv.leave (h : Inv s) {i : ℕ} (hf : (s.exchange i).phase.inFlight = true)
    {outcome : Except Failure (Msg M)}
    (ha : ∀ m,outcome = .ok m → ∃ n first,(s.exchange i).delivered.head? = some (n,first) ∧
      m = { first with id := (s.exchange i).originalId }) : Inv (s.leave i outcome) := by
  refine h.set (by rw [hf]; rfl) (fun _ => rfl) rfl rfl
    ⟨(h.sound i).closes,(h.sound i).response,fun hp => absurd rfl hp,?_⟩
  intro m hm
  exact ha m (Option.some.inj hm)

lemma Inv.proceed (h : Inv s) {i : ℕ} {phase : Phase} (hb : (s.exchange i).outcome = none)
    (hf : phase.inFlight = (s.exchange i).phase.inFlight)
    (hp : (s.exchange i).phase.placed = true → phase.placed = true) :
    Inv (s.set i { s.exchange i with phase := phase }) :=
  h.set hf hp rfl rfl ⟨(h.sound i).closes,(h.sound i).response,fun _ _ => hb,(h.sound i).answer⟩

lemma Inv.register (h : Inv s) {i : ℕ} {found next : QueryId}
    (hp : (s.exchange i).phase = .connected) (hfr : s.callbacks found = none) :
    Inv { s.set i { s.exchange i with phase := .registered,queryId := found } with
      queryId := next
      callbacks := Function.update s.callbacks found (some i) } := by
  have hs := h.sound i
  have hn := hs.early (by simp [hp]) (by simp [hp])
  refine h.update rfl rfl ⟨hs.closes,hs.response,fun _ _ => hn,hs.answer⟩ ?_ ?_ ?_
    (handed_of_delivered rfl rfl rfl)
  · intro hpl
    rw [hp] at hpl
    cases hpl
  · intro q
    by_cases hq : q = found
    · simp [hq,Phase.inFlight,Phase.placed]
    · have hno : s.callbacks q ≠ some i := by
        rw [ne_eq,h.callbacks,hp]
        rintro ⟨hf,-⟩
        cases hf
      simp [Function.update_of_ne hq,hno,Ne.symm hq]
  · intro q j hj
    by_cases hq : q = found
    · simp [hq,hfr,Ne.symm hj]
    · simp [Function.update_of_ne hq]

lemma Inv.remove (h : Inv s) {i : ℕ} (hp : (s.exchange i).phase = .leaving) :
    Inv { s.set i { s.exchange i with phase := .returned } with
      callbacks := Function.update s.callbacks (s.exchange i).queryId none } := by
  have hs := h.sound i
  have he : s.callbacks (s.exchange i).queryId = some i :=
    (h.callbacks _ i).mpr ⟨by rw [hp]; rfl,rfl⟩
  refine h.update rfl rfl ⟨hs.closes,hs.response,fun _ hr => absurd rfl hr,hs.answer⟩
    (fun _ => ⟨rfl,rfl⟩) ?_ ?_ (handed_of_delivered rfl rfl rfl)
  · intro q
    by_cases hq : q = (s.exchange i).queryId
    · simp [hq,Phase.inFlight]
    · have hn : s.callbacks q ≠ some i := fun hso => hq ((h.callbacks q i).mp hso).2.symm
      simp [Function.update_of_ne hq,hn,Phase.inFlight]
  · intro q j hj
    by_cases hq : q = (s.exchange i).queryId
    · simp [hq,he,Ne.symm hj]
    · simp [Function.update_of_ne hq]

lemma Inv.receive (h : Inv s) (conn : ℕ) (message : Msg M) : Inv { s with
      received := s.received + 1
      loops := Function.update s.loops conn
        ((s.callbacks message.id).map fun i => (i,s.received,message)) } := by
  refine h.of_step h.callbacks h.sound (fun _ hi => ⟨hi,rfl⟩) (Nat.le_succ _)
    (.inr ⟨message,Nat.lt_succ_self _,?_⟩)
  rintro n i m (⟨other,hl⟩ | hm)
  · by_cases ho : other = conn
    · subst ho
      dsimp only at hl
      rw [Function.update_self] at hl
      obtain ⟨j,hj,heq⟩ := Option.map_eq_some_iff.mp hl
      cases heq
      exact .inr ⟨rfl,rfl,hj⟩
    · dsimp only at hl
      rw [Function.update_of_ne ho] at hl
      exact .inl (.inl ⟨other,hl⟩)
  · exact .inl (.inr hm)

def Exchange.deliver (e : Exchange M) (n : ℕ) (message : Msg M) : Exchange M :=
  { if e.closes = 0 then { e with response := some message, closes := e.closes + 1 } else e with
    delivered := e.delivered ++ [(n,message)] }

lemma Exchange.Sound.deliver {e : Exchange M} (h : e.Sound) (n : ℕ) (message : Msg M) :
    (e.deliver n message).Sound := by
  have hcl := h.closes
  cases hd : e.delivered with
  | nil =>
    rw [if_pos hd] at hcl
    rw [Exchange.deliver,if_pos hcl]
    refine ⟨by simp [hcl],by simp [hd],h.early,fun m hm => ?_⟩
    obtain ⟨_,_,hh,-⟩ := h.answer m hm
    simp [hd] at hh
  | cons first rest =>
    rw [if_neg (by simp [hd])] at hcl
    rw [Exchange.deliver,if_neg (by simp [hcl])]
    have hh : (e.delivered ++ [(n,message)]).head? = e.delivered.head? := by simp [hd]
    refine ⟨by simp [hcl],?_,h.early,?_⟩
    · rw [hh]
      exact h.response
    · rw [hh]
      exact h.answer

lemma Inv.complete (h : Inv s) {conn i n : ℕ} {message : Msg M}
    (hl : s.loops conn = some (i,n,message)) :
    Inv { s.set i ((s.exchange i).deliver n message) with
      loops := Function.update s.loops conn none } := by
  have hs : ((s.exchange i).deliver n message).phase = (s.exchange i).phase ∧
      ((s.exchange i).deliver n message).queryId = (s.exchange i).queryId := by
    rw [Exchange.deliver]
    split <;> exact ⟨rfl,rfl⟩
  refine h.update rfl rfl ((h.sound i).deliver n message) ?_ ?_ (fun _ _ _ => .rfl) ?_
  · rw [hs.1,hs.2]
    exact fun hp => ⟨hp,rfl⟩
  · rw [hs.1,hs.2]
    exact fun q => h.callbacks q i
  · rintro k j m (⟨other,ho⟩ | hm)
    · by_cases hco : other = conn
      · subst hco
        simp at ho
      · exact .inl ⟨other,by simpa [Function.update_of_ne hco] using ho⟩
    · by_cases hj : j = i
      · subst hj
        have hm' : (k,m) ∈ (s.exchange j).delivered ++ [(n,message)] := by
          simpa [State.set,Exchange.deliver] using hm
        rcases List.mem_append.mp hm' with hm' | hm'
        · exact .inr hm'
        · cases List.mem_singleton.mp hm'
          exact .inl ⟨conn,hl⟩
      · refine .inr ?_
        simpa [State.set,Function.update_of_ne hj] using hm

lemma answer_of_wakes (h : Inv s) {i : ℕ} {reason : Reason} {m : Msg M}
    (hw : s.wakes i reason = some (.ok m)) :
    ∃ n first,(s.exchange i).delivered.head? = some (n,first) ∧
      m = { first with id := (s.exchange i).originalId } := by
  cases reason with
  | done =>
    rw [State.wakes] at hw
    split_ifs at hw
    obtain ⟨first,hf,hm⟩ := Option.map_eq_some_iff.mp hw
    rw [(h.sound i).response] at hf
    obtain ⟨⟨n,first'⟩,hh,rfl⟩ := Option.map_eq_some_iff.mp hf
    cases hm
    exact ⟨n,first',hh,rfl⟩
  | connection | transportClosed | context =>
    rw [State.wakes] at hw
    split_ifs at hw
    cases hw

lemma inv_perform (h : Inv s) {e : Event M} (hp : s.perform e = some t) : Inv t := by
  cases e with
  | begin i originalId conn =>
    rw [State.perform] at hp
    split_ifs at hp with hph
    cases hp
    have hs := h.sound i
    have hn := hs.early (by simp [hph]) (by simp [hph])
    refine h.set (by rw [hph]; rfl) (fun hpl => ?_) rfl rfl
      ⟨hs.closes,hs.response,fun _ _ => hn,fun m hm => ?_⟩
    · rw [hph] at hpl
      cases hpl
    · cases hn.symm.trans hm
  | register i =>
    rw [State.perform] at hp
    split_ifs at hp with hph
    obtain ⟨next,found,heq,hf,-⟩ := nextAvailableQueryId_start s.callbacks s.queryId
    rw [heq] at hp
    cases found with
    | none =>
      cases hp
      have hset : Inv (s.set i { s.exchange i with
          phase := .returned,outcome := some (.error .noAvailableQueryID) }) := by
        refine h.set (by rw [hph]; rfl) (fun _ => rfl) rfl rfl ⟨(h.sound i).closes,
          (h.sound i).response,fun _ hr => absurd rfl hr,fun m hm => ?_⟩
        cases hm
      exact ⟨hset.callbacks,hset.sound,hset.addressed,hset.once⟩
    | some found =>
      cases hp
      exact h.register hph (hf found rfl)
  | pack i ok =>
    rw [State.perform] at hp
    split_ifs at hp with hph hok
    · cases hp
      exact h.proceed ((h.sound i).early (by simp [hph]) (by simp [hph]))
        (by rw [hph]; rfl) fun _ => rfl
    · cases hp
      exact h.leave (by rw [hph]; rfl) (by simp)
  | write i ok =>
    rw [State.perform] at hp
    split_ifs at hp with hph hok
    · cases hp
      exact h.proceed ((h.sound i).early (by simp [hph]) (by simp [hph]))
        (by rw [hph]; rfl) fun _ => rfl
    · cases hp
      have hl : Inv (s.leave i (.error .write)) := h.leave (by rw [hph]; rfl) (by simp)
      exact ⟨hl.callbacks,hl.sound,hl.addressed,hl.once⟩
  | select i reason =>
    rw [State.perform] at hp
    split_ifs at hp with hph
    obtain ⟨outcome,hw,rfl⟩ := Option.map_eq_some_iff.mp hp
    refine h.leave (by rw [hph]; rfl) fun m hm => ?_
    subst hm
    exact answer_of_wakes h hw
  | remove i =>
    rw [State.perform] at hp
    split_ifs at hp with hph
    cases hp
    exact h.remove hph
  | receive conn message =>
    rw [State.perform] at hp
    split at hp
    · cases hp
    · cases hp
      exact h.receive conn message
  | complete conn =>
    rw [State.perform] at hp
    split at hp
    · cases hp
    · rename_i i n message hlo
      cases hp
      exact h.complete hlo
  | fail conn | close | endContext i =>
    cases hp
    exact ⟨h.callbacks,h.sound,h.addressed,h.once⟩

lemma inv_initial : Inv (initial : State M) := by
  refine ⟨?_,fun i => ⟨rfl,rfl,fun _ _ => rfl,by simp [initial]⟩,?_,?_⟩
  · simp [initial,Phase.inFlight,Phase.placed]
  · simp [initial,State.Handed]
  · simp [initial,State.Handed]

end

/-- In every state of every run: the exchanges in flight have different ids; an id is found exactly
if fewer than 65536 are taken; a datagram closes the channel of at most one exchange, whose id it
carries; no channel is closed twice; no exchange that has returned is in the table; and an exchange
succeeds with the first message handed to it, with the caller's id. -/
theorem udp_answers {s : State M}
    (h : Reaches (fun s e t => s.perform e = some t) anyStep initial s) :
    (∀ i j, (s.exchange i).phase.inFlight = true → (s.exchange j).phase.inFlight = true →
      (s.exchange i).queryId = (s.exchange j).queryId → i = j) ∧
    ((∃ next found, nextAvailableQueryId s.callbacks s.queryId 65536 s.queryId =
        some (next,some found)) ↔
      (Finset.univ.filter fun q => (s.callbacks q).isSome = true).card < 65536) ∧
    (∀ n i m, (s.exchange i).delivered.head? = some (n,m) → m.id = (s.exchange i).queryId ∧
      ∀ j m', (s.exchange j).delivered.head? = some (n,m') → i = j) ∧
    (∀ i, (s.exchange i).closes ≤ 1) ∧
    (∀ q i, s.callbacks q = some i → (s.exchange i).phase ≠ .returned) ∧
    ∀ i m, (s.exchange i).outcome = some (.ok m) →
      ∃ n first, (s.exchange i).delivered.head? = some (n,first) ∧
        m = { first with id := (s.exchange i).originalId } := by
  have hin : Inv s := h.invariant _ inv_initial fun _ _ _ hs hst _ => inv_perform hs hst
  refine ⟨?_,nextAvailableQueryId_iff _ _,?_,?_,?_,fun i => (hin.sound i).answer⟩
  · intro i j hi hj heq
    have hi' := (hin.callbacks _ i).mpr ⟨hi,rfl⟩
    have hj' := (hin.callbacks _ j).mpr ⟨hj,heq.symm⟩
    exact Option.some.inj (hi'.symm.trans hj')
  · intro n i m hm
    have hh : s.Handed n i m := .inr (List.mem_of_mem_head? hm)
    refine ⟨(hin.addressed n i m hh).2.1.symm,fun j m' hm' => ?_⟩
    exact hin.once n i j m m' hh (.inr (List.mem_of_mem_head? hm'))
  · intro i
    rw [(hin.sound i).closes]
    split <;> omega
  · intro q i hq hr
    have hf := ((hin.callbacks q i).mp hq).1
    rw [hr] at hf
    cases hf

/-- A query with id 5 that is answered twice. -/
theorem udp_answers_twice :
    ∃ s : State Bool, (s.exchange 0).outcome = some (.ok ⟨5,true⟩) ∧ (s.exchange 0).closes ≤ 1 := by
  have hru : ∃ s : State Bool, follow State.perform (fun _ _ => true)
      [.begin 0 5 0,.register 0,.pack 0 true,.write 0 true,.receive 0 ⟨1,true⟩,.complete 0,
        .receive 0 ⟨1,false⟩,.complete 0,.select 0 .done] initial = some s ∧
      (s.exchange 0).outcome = some (.ok ⟨5,true⟩) := ⟨_,rfl,rfl⟩
  obtain ⟨s,hf,ho⟩ := hru
  have hr := (reaches_of_follow .start hf).mono fun _ _ _ => trivial
  exact ⟨s,ho,(udp_answers hr).2.2.2.1 0⟩

end SingBoxAuth.DNSUDP
