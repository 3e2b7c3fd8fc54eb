import SingBoxAuth.Transitions

/-! The lock of the router's rules. `Exchange` and `Lookup` read under it while their servers are
asked, and a server may look up an address with the same router; `Start` and `Close` write under
it. A writer that waits keeps new readers out. -/
namespace SingBoxAuth.DNSExchange.RulesAccess
open Transitions

inductive Reader
  | waiting
  | holding
  | returned
deriving DecidableEq

inductive Writer
  | queued
  | announced
  | holding
  | returned
deriving DecidableEq

/-- The calls, each with the call whose server makes it, and the calls of `Start` and `Close`, each
with whether it closes the router. -/
structure State where
  calls : List (Option ℕ)
  reader : ℕ → Reader
  updates : List Bool
  writer : ℕ → Writer
  closing : Bool

inductive Event
  | call (parent : Option ℕ)
  | update (closes : Bool)
  | finish (i : ℕ)
  | announce (w : ℕ)
  | acquire (w : ℕ)
  | unlock (w : ℕ)

namespace State

variable (s : State)

def writerPending : Bool :=
  (List.range s.updates.length).any fun w => s.writer w == .announced || s.writer w == .holding

def enter (parent : Option ℕ) : State :=
  { s with
    calls := s.calls ++ [parent]
    reader := Function.update s.reader s.calls.length
      (if s.writerPending then .waiting else .holding) }

def moveWriter (w : ℕ) (phase : Writer) : State :=
  { s with writer := Function.update s.writer w phase }

/-- All lookups that the servers of the call make have returned. -/
def lookupsReturned (i : ℕ) : Bool :=
  (List.range s.calls.length).all fun j => s.calls[j]? != some (some i) || s.reader j == .returned

def noReader : Bool := (List.range s.calls.length).all fun i => s.reader i != .holding

def perform : Event → Option State
  | .call none => some (s.enter none)
  | .call (some parent) =>
    if parent < s.calls.length ∧ s.reader parent = .holding ∧ s.closing = false then
      some (s.enter (some parent))
    else none
  | .update closes => some { s with
      updates := s.updates ++ [closes]
      writer := Function.update s.writer s.updates.length .queued }
  | .finish i =>
    if i < s.calls.length ∧ s.reader i = .holding ∧ s.lookupsReturned i then
      some { s with reader := Function.update s.reader i .returned }
    else none
  | .announce w =>
    if w < s.updates.length ∧ s.writer w = .queued ∧ s.writerPending = false then
      some (s.moveWriter w .announced)
    else none
  | .acquire w =>
    if w < s.updates.length ∧ s.writer w = .announced ∧ s.noReader then
      some (s.moveWriter w .holding)
    else none
  | .unlock w =>
    if w < s.updates.length ∧ s.writer w = .holding then
      -- the readers that wait are let in before the next writer
      some { s.moveWriter w .returned with
        closing := s.closing || s.updates[w]? == some true
        reader := fun i => if s.reader i = .waiting then .holding else s.reader i }
    else none

end State

def idle : State := ⟨[],fun _ => .waiting,[],fun _ => .queued,false⟩

def Event.goesOn : Event → Prop
  | .call _ => False
  | .update _ => False
  | _ => True

def LookupSafe (s : State) : Event → Prop
  | .call (some _) => s.writerPending = false
  | _ => True

def Done (s : State) : Prop :=
  (∀ i < s.calls.length, s.reader i = .returned) ∧ ∀ w < s.updates.length, s.writer w = .returned

structure Inv (s : State) : Prop where
  nested : ∀ (i parent : ℕ), s.calls[i]? = some (some parent) → parent < i ∧ s.reader i ≠ .waiting
  pending : ∀ i < s.calls.length, s.reader i = .waiting → s.writerPending = true

section

variable {s t : State}

lemma writerPending_iff : s.writerPending = true ↔
    ∃ w < s.updates.length,s.writer w = .announced ∨ s.writer w = .holding := by
  simp [State.writerPending]

lemma Inv.enter (h : Inv s) {parent : Option ℕ}
    (hpa : ∀ p,parent = some p → p < s.calls.length ∧ s.writerPending = false) :
    Inv (s.enter parent) := by
  constructor
  · intro i p hi
    rcases Nat.lt_trichotomy i s.calls.length with hlt | rfl | hgt
    · rw [State.enter] at hi ⊢
      rw [List.getElem?_append_left hlt] at hi
      simpa [Function.update_of_ne hlt.ne] using h.nested i p hi
    · have hp : parent = some p := by simpa [State.enter] using hi
      obtain ⟨hlt,hpe⟩ := hpa p hp
      exact ⟨hlt,by simp [State.enter,hpe]⟩
    · have hlt := (List.getElem?_eq_some_iff.mp hi).1
      simp only [State.enter,List.length_append,List.length_singleton] at hlt
      omega
  · intro i hi hw
    have hs : (s.enter parent).writerPending = s.writerPending := rfl
    rw [hs]
    by_cases hn : i = s.calls.length
    · subst hn
      by_contra hpe
      simp [State.enter,hpe] at hw
    · simp only [State.enter,Function.update_of_ne hn] at hw
      simp only [State.enter,List.length_append,List.length_singleton] at hi
      exact h.pending i (by omega) hw

lemma Inv.of_readers (h : Inv s) (hca : t.calls = s.calls)
    (hr : ∀ i,t.reader i = .waiting → s.reader i = .waiting)
    (hp : s.writerPending = true → t.writerPending = true ∨ ∀ i,t.reader i ≠ .waiting) : Inv t := by
  constructor
  · intro i parent hi
    rw [hca] at hi
    obtain ⟨hlt,hno⟩ := h.nested i parent hi
    exact ⟨hlt,fun hw => hno (hr i hw)⟩
  · intro i hi hw
    rw [hca] at hi
    rcases hp (h.pending i hi (hr i hw)) with hs | hn
    · exact hs
    · exact absurd hw (hn i)

lemma pending_moveWriter {w : ℕ} {phase : Writer} (hw : w < s.updates.length)
    (hp : phase = .announced ∨ phase = .holding) :
    (s.moveWriter w phase).writerPending = true :=
  writerPending_iff.mpr ⟨w,hw,by simpa [State.moveWriter] using hp⟩

lemma inv_perform (h : Inv s) {e : Event} (hs : LookupSafe s e) (hpe : s.perform e = some t) :
    Inv t := by
  cases e with
  | call parent =>
    cases parent with
    | none =>
      cases hpe
      exact h.enter (by simp)
    | some parent =>
      rw [State.perform] at hpe
      split_ifs at hpe with hpa
      cases hpe
      refine h.enter fun p hp => ?_
      cases hp
      exact ⟨hpa.1,hs⟩
  | update closes =>
    cases hpe
    refine h.of_readers rfl (fun _ hi => hi) fun hpn => .inl ?_
    obtain ⟨w,hw,hph⟩ := writerPending_iff.mp hpn
    refine writerPending_iff.mpr ⟨w,by simp; omega,?_⟩
    simpa [Function.update_of_ne hw.ne] using hph
  | finish i =>
    rw [State.perform] at hpe
    split_ifs at hpe
    cases hpe
    refine h.of_readers rfl (fun j hj => ?_) fun hpn => .inl hpn
    by_cases hji : j = i
    · subst hji
      simp at hj
    · simpa [Function.update_of_ne hji] using hj
  | announce w =>
    rw [State.perform] at hpe
    split_ifs at hpe with hw
    cases hpe
    exact h.of_readers rfl (fun _ hi => hi) fun _ => .inl (pending_moveWriter hw.1 (.inl rfl))
  | acquire w =>
    rw [State.perform] at hpe
    split_ifs at hpe with hw
    cases hpe
    exact h.of_readers rfl (fun _ hi => hi) fun _ => .inl (pending_moveWriter hw.1 (.inr rfl))
  | unlock w =>
    rw [State.perform] at hpe
    split_ifs at hpe with hw
    cases hpe
    refine h.of_readers rfl (fun i hi => ?_) fun _ => .inr fun i hi => ?_
    · dsimp only at hi
      split_ifs at hi
      exact hi
    · dsimp only at hi
      split_ifs at hi with hwa
      exact hwa hi

def Reader.weight : Reader → ℕ
  | .waiting => 2
  | .holding => 1
  | .returned => 0

def Writer.weight : Writer → ℕ
  | .queued => 3
  | .announced => 2
  | .holding => 1
  | .returned => 0

def State.measure (s : State) : ℕ :=
  ∑ i ∈ Finset.range s.calls.length, (s.reader i).weight +
    ∑ w ∈ Finset.range s.updates.length, (s.writer w).weight

lemma measure_perform {e : Event} (he : e.goesOn) (hp : s.perform e = some t) :
    t.measure < s.measure := by
  cases e with
  | call parent => cases he
  | update closes => cases he
  | finish i =>
    rw [State.perform] at hp
    split_ifs at hp with hi
    cases hp
    exact Nat.add_lt_add_right
      (sum_update_lt Reader.weight s.reader hi.1 (by rw [hi.2.1]; decide)) _
  | announce w | acquire w =>
    rw [State.perform] at hp
    split_ifs at hp with hw
    cases hp
    exact Nat.add_lt_add_left (sum_update_lt Writer.weight s.writer hw.1 (by rw [hw.2.1]; decide)) _
  | unlock w =>
    rw [State.perform] at hp
    split_ifs at hp with hw
    cases hp
    refine Nat.add_lt_add_of_le_of_lt (Finset.sum_le_sum fun i _ => ?_)
      (sum_update_lt Writer.weight s.writer hw.1 (by rw [hw.2]; decide))
    dsimp only
    split_ifs with hwa
    · rw [hwa]
      decide
    · exact le_rfl

def Stuck (s : State) : Prop := ∀ e, Event.goesOn e → s.perform e = none

lemma Stuck.not_holding (h : Stuck s) (hs : Inv s) {i : ℕ} (hi : i < s.calls.length) :
    s.reader i ≠ .holding := by
  intro hh
  obtain ⟨j,⟨hj,hr⟩,hl⟩ := exists_last
    (fun j (hj : j < s.calls.length ∧ s.reader j = .holding) => hj.1) ⟨hi,hh⟩
  have hn := h (.finish j) trivial
  rw [State.perform] at hn
  split_ifs at hn with hf
  refine hf ⟨hj,hr,?_⟩
  rw [State.lookupsReturned,List.all_eq_true]
  intro k hk
  by_contra hch
  rw [Bool.not_eq_true,Bool.or_eq_false_iff,bne_eq_false_iff_eq,beq_eq_false_iff_ne] at hch
  obtain ⟨hlt,hno⟩ := hs.nested k j hch.1
  have hk' : s.reader k = .holding := by
    cases hr' : s.reader k with
    | waiting => exact absurd hr' hno
    | holding => rfl
    | returned => exact absurd hr' hch.2
  exact absurd (hl k ⟨List.mem_range.mp hk,hk'⟩) (Nat.not_le.mpr hlt)

lemma Stuck.not_pending (h : Stuck s) (hs : Inv s) : s.writerPending = false := by
  by_contra hp
  obtain ⟨w,hw,ha | hh⟩ := writerPending_iff.mp (Bool.not_eq_false _ ▸ hp)
  · have hn := h (.acquire w) trivial
    rw [State.perform] at hn
    split_ifs at hn with hac
    refine hac ⟨hw,ha,?_⟩
    simp only [State.noReader,List.all_eq_true,List.mem_range,bne_iff_ne]
    exact fun i hi => h.not_holding hs hi
  · have hn := h (.unlock w) trivial
    rw [State.perform,if_pos ⟨hw,hh⟩] at hn
    cases hn

lemma Stuck.done (h : Stuck s) (hs : Inv s) : Done s := by
  have hp := h.not_pending hs
  constructor
  · intro i hi
    cases hr : s.reader i with
    | waiting => exact absurd (hs.pending i hi hr) (by simp [hp])
    | holding => exact absurd hr (h.not_holding hs hi)
    | returned => rfl
  · intro w hw
    cases hwr : s.writer w with
    | queued =>
      have hn := h (.announce w) trivial
      rw [State.perform,if_pos ⟨hw,hwr,hp⟩] at hn
      cases hn
    | announced | holding =>
      exact absurd (writerPending_iff.mpr ⟨w,hw,by simp [hwr]⟩) (by simp [hp])
    | returned => rfl

end

/-- In every run in which servers look up addresses only while no writer waits, all calls return,
whatever the order in which they go on. -/
theorem calls_return {s : State}
    (h : Reaches (fun s e t => s.perform e = some t) LookupSafe idle s) :
    Settles State.perform Event.goesOn Done s := by
  have hi : Inv s := h.invariant _ ⟨by simp [idle],by simp [idle]⟩ fun _ _ _ hs hst hsa =>
    inv_perform hs hsa hst
  refine settles_of_measure State.measure ?_ (fun s hs hsu => Stuck.done hsu hs) hi
  intro s e t hs he ht
  refine ⟨inv_perform hs ?_ ht,measure_perform he ht⟩
  cases e <;> trivial

/-- The server of a query looks up its address, then the router closes. -/
theorem calls_return_close : ∃ s : State, s.reader 1 = .holding ∧ s.writer 0 = .announced ∧
      Settles State.perform Event.goesOn Done s := by
  have hca : Reaches (fun s e t => State.perform s e = some t) LookupSafe idle
      ((idle.enter none).enter (some 0)) :=
    .step (.step .start (e := .call none) rfl trivial) (e := .call (some 0)) rfl rfl
  refine ⟨_,?_,?_,calls_return
    (.step (.step hca (e := .update true) rfl trivial) (e := .announce 0) rfl trivial)⟩
  · rfl
  · rfl

/-- A query, the router that closes and the lookup by the query's server wait for each other. -/
theorem lookup_waits_for_close : ∃ s, follow State.perform (fun _ _ => true)
        [.call none,.update true,.announce 0,.call (some 0)] idle = some s ∧
      s.reader 1 = .waiting ∧ ∀ e, Event.goesOn e → s.perform e = none := by
  refine ⟨_,rfl,rfl,?_⟩
  intro e he
  cases e with
  | call => cases he
  | update => cases he
  | finish i =>
    match i with
    | 0 => rfl
    | 1 => rfl
    | i + 2 =>
      rw [State.perform,if_neg]
      rintro ⟨hlt,-⟩
      exact absurd (show i + 2 < 2 from hlt) (by omega)
  | announce w | acquire w | unlock w =>
    match w with
    | 0 => rfl
    | w + 1 =>
      rw [State.perform,if_neg]
      rintro ⟨hlt,-⟩
      exact absurd (show w + 1 < 1 from hlt) (by omega)

end SingBoxAuth.DNSExchange.RulesAccess
