import Mathlib.Algebra.Order.BigOperators.Group.Finset
import Mathlib.Data.Fintype.Sum
import SingBoxAuth.Transitions

/-! Dials of several racers at the same time: the racers report over a channel without room, a timer
starts the second group, and the first success ends the call. -/
namespace SingBoxAuth.ParallelDials
open Transitions

/-- Where a racer stands. What it discards after the call has returned, it closes. -/
inductive Phase
  | notStarted
  | dialing
  | sending (ok : Bool)
  | delivered (ok : Bool)
  | discarded (ok : Bool)
  deriving DecidableEq

/-- There is none or it was received, it runs, or its value waits to be received. -/
inductive Timer
  | gone
  | armed
  | fired
  deriving DecidableEq

/-- A call: which racers are primary, whether the others wait for a timer, and when the racers that
have failed are all. -/
structure Dial (R : Type) where
  primary : R → Bool
  timed : Bool
  enough : List R → Bool
  enough_iff : ∀ failed, failed.Nodup → (enough failed = true ↔ ∀ r, r ∈ failed)

inductive Event (R : Type)
  /-- The dial of a racer returns. -/
  | dialed (r : R) (ok : Bool)
  /-- The call receives what a racer sends. If that makes it stop the timer, a value that waits is
  taken back, or stays, depending on the version of the timers. -/
  | receive (r : R) (takenBack : Bool)
  | fire
  | startFallbacks
  /-- The racer sees that the call has returned. -/
  | quit (r : R)

structure Race (R : Type) where
  phase : R → Phase
  starts : R → ℕ
  timer : Timer
  received : List (R × Bool)
  /-- The racer whose connection was returned, or the error. -/
  result : Option (Option R)

variable {R : Type} [DecidableEq R] (d : Dial R)

namespace Race

def atOnce (r : R) : Bool := d.primary r || !d.timed

def start [Fintype R] : Race R where
  phase r := if atOnce d r then .dialing else .notStarted
  starts r := if atOnce d r then 1 else 0
  timer := if ∀ r, atOnce d r = true then .gone else .armed
  received := []
  result := none

def go (s : Race R) (r : R) (p : Phase) : Race R := { s with phase := Function.update s.phase r p }

/-- Stop and, if it has stopped the timer, Reset(0). -/
def rearm (takenBack : Bool) : Timer → Timer
  | .gone => .gone
  | .armed => .armed
  | .fired => if takenBack then .armed else .fired

def receive (s : Race R) (r : R) (ok takenBack : Bool) : Race R :=
  let received := s.received ++ [(r,ok)]
  let s := { s.go r (.delivered ok) with received }
  if ok then { s with result := some (some r) }
  else if d.enough (received.map (·.1)) then { s with result := some none }
  else if d.primary r then { s with timer := rearm takenBack s.timer }
  else s

def startFallbacks (s : Race R) : Race R :=
  { s with
    phase := fun r => if d.primary r then s.phase r else .dialing
    starts := fun r => if d.primary r then s.starts r else s.starts r + 1
    timer := .gone }

def perform (s : Race R) : Event R → Option (Race R)
  | .dialed r ok => if s.phase r = .dialing then some (s.go r (.sending ok)) else none
  | .receive r takenBack =>
    match s.result, s.phase r with
    | none, .sending ok => some (s.receive d r ok takenBack)
    | _, _ => none
  | .fire => if s.result = none ∧ s.timer = .armed then some { s with timer := .fired } else none
  | .startFallbacks =>
    if s.result = none ∧ s.timer = .fired then some (s.startFallbacks d) else none
  | .quit r =>
    match s.result, s.phase r with
    | some _, .sending ok => some (s.go r (.discarded ok))
    | _, _ => none

end Race

structure Inv (s : Race R) : Prop where
  once : ∀ r, s.starts r = if s.phase r = .notStarted then 0 else 1
  waiting : ∀ r, s.phase r = .notStarted → d.primary r = false ∧ s.timer ≠ .gone
  unstarted : s.timer ≠ .gone → ∀ r, d.primary r = false → s.phase r = .notStarted
  nodup : (s.received.map (·.1)).Nodup
  delivered : ∀ r ok, (r,ok) ∈ s.received ↔ s.phase r = .delivered ok
  running : s.result = none → (∀ r ok, s.phase r ≠ .discarded ok) ∧
    (∀ p ∈ s.received, p.2 = false) ∧ d.enough (s.received.map (·.1)) = false
  first : ∀ r, s.result = some (some r) ↔ s.received.find? (·.2) = some (r,true)
  only : ∀ r, (r,true) ∈ s.received → s.result = some (some r)
  failed : s.result = some none → ∀ r, (r,false) ∈ s.received

section invariant

variable {d} {s s' : Race R} {r : R} {ok : Bool} {p : Phase}

def Phase.isDelivered : Phase → Bool
  | .delivered _ => true
  | _ => false

def Phase.isDiscarded : Phase → Bool
  | .discarded _ => true
  | _ => false

omit [DecidableEq R] in
lemma Inv.start [Fintype R] [Nonempty R] : Inv d (Race.start d) := by
  refine ⟨fun r => ?_,fun r => ?_,?_,List.nodup_nil,fun r ok => ?_,fun _ => ?_,
    fun r => by simp [Race.start],nofun,nofun⟩
  · by_cases h : Race.atOnce d r = true <;> simp [Race.start,h]
  · by_cases h : Race.atOnce d r = true
    · simp [Race.start,h]
    · have ht : ¬ ∀ r,Race.atOnce d r = true := fun hall => h (hall r)
      have hp : d.primary r = false := by
        simp only [Race.atOnce,Bool.or_eq_true,not_or,Bool.not_eq_true] at h
        exact h.1
      simp [Race.start,hp,ht]
  · intro ht r hp
    have hall : ¬ ∀ r,Race.atOnce d r = true := by
      intro hall
      simp [Race.start,hall] at ht
    have htimed : d.timed = true := by
      by_contra hn
      exact hall fun r => by simp [Race.atOnce,hn]
    simp [Race.start,Race.atOnce,hp,htimed]
  · by_cases h : Race.atOnce d r = true <;> simp [Race.start,h]
  · refine ⟨fun r ok => ?_,nofun,?_⟩
    · by_cases h : Race.atOnce d r = true <;> simp [Race.start,h]
    · have hnil : d.enough [] ≠ true := by
        rw [ne_eq,d.enough_iff _ List.nodup_nil]
        intro hall
        obtain ⟨r⟩ := ‹Nonempty R›
        exact absurd (hall r) List.not_mem_nil
      exact Bool.eq_false_iff.mpr hnil

lemma Inv.go (h : Inv d s) (h0 : s.phase r ≠ .notStarted) (hp0 : p ≠ .notStarted)
    (h1 : (s.phase r).isDelivered = false) (hp1 : p.isDelivered = false)
    (hp2 : s.result = none → p.isDiscarded = false) : Inv d (s.go r p) := by
  refine ⟨?_,?_,fun ht q hq => ?_,h.nodup,fun q ok => ?_,fun hn => ⟨?_,(h.running hn).2⟩,
    h.first,h.only,h.failed⟩
  · refine forall_place (f := fun q (x : Phase) => s.starts q = if x = .notStarted then 0 else 1) rfl
      ?_ fun q _ => h.once q
    rw [if_neg hp0,h.once r,if_neg h0]
  · exact forall_place
      (f := fun q (x : Phase) => x = .notStarted → d.primary q = false ∧ s.timer ≠ .gone) rfl
      (absurd · hp0) fun q _ => h.waiting q
  · have hs := h.unstarted ht q hq
    have hne : q ≠ r := by
      rintro rfl
      exact h0 hs
    rw [← hs]
    exact Function.update_of_ne hne ..
  · simp only [Race.go,Function.update_apply]
    split_ifs with hq
    · subst hq
      rw [h.delivered]
      constructor
      · intro he
        simp [he,Phase.isDelivered] at h1
      · intro he
        simp [he,Phase.isDelivered] at hp1
    · exact h.delivered q ok
  · refine forall_place (f := fun _ (x : Phase) => ∀ ok,x ≠ .discarded ok) rfl ?_
      fun q _ => (h.running hn).1 q
    intro ok he
    simpa [he,Phase.isDiscarded] using hp2 hn

omit [DecidableEq R] in
lemma find?_eq_none_of_running (h : Inv d s) (hn : s.result = none) :
    s.received.find? (·.2) = none := by
  rw [List.find?_eq_none]
  intro x hx
  simp [(h.running hn).2.1 x hx]

lemma Inv.receive (h : Inv d s) (hn : s.result = none) (hr : s.phase r = .sending ok)
    (hph : s'.phase = Function.update s.phase r (.delivered ok)) (hst : s'.starts = s.starts)
    (hti : s'.timer = .gone ↔ s.timer = .gone) (hre : s'.received = s.received ++ [(r,ok)])
    (hres : s'.result = if ok then some (some r)
      else if d.enough (s'.received.map (·.1)) then some none else none) : Inv d s' := by
  have hnew : r ∉ s.received.map (·.1) := by
    intro hm
    obtain ⟨⟨q,b⟩,hq,rfl⟩ := List.mem_map.mp hm
    have hd := (h.delivered q b).mp hq
    rw [hr] at hd
    cases hd
  have hnodup : (s'.received.map (·.1)).Nodup := by
    rw [hre,List.map_append,List.map_singleton,← List.concat_eq_append]
    exact h.nodup.concat hnew
  have hfind : s'.received.find? (·.2) = if ok then some (r,true) else none := by
    rw [hre,List.find?_append,find?_eq_none_of_running h hn]
    cases ok <;> rfl
  refine ⟨?_,?_,fun ht q hq => ?_,hnodup,fun q b => ?_,fun hn' => ⟨?_,?_,?_⟩,fun q => ?_,
    fun q hq => ?_,fun hf q => ?_⟩
  · rw [hst]
    refine forall_place (f := fun q (x : Phase) => s.starts q = if x = .notStarted then 0 else 1) hph
      ?_ fun q _ => h.once q
    rw [h.once r,hr]
    rfl
  · rw [ne_eq,hti]
    exact forall_place
      (f := fun q (x : Phase) => x = .notStarted → d.primary q = false ∧ ¬ s.timer = .gone) hph
      (by simp) fun q _ => h.waiting q
  · have hs := h.unstarted (mt hti.mpr ht) q hq
    have hne : q ≠ r := by
      rintro rfl
      rw [hr] at hs
      cases hs
    rw [hph,Function.update_of_ne hne]
    exact hs
  · rw [hre,hph,List.mem_append,List.mem_singleton,h.delivered,Function.update_apply]
    split_ifs with hq
    · subst hq
      simp [hr,eq_comm]
    · simp [hq]
  · rw [hph]
    refine forall_place (f := fun _ (x : Phase) => ∀ ok,x ≠ .discarded ok) rfl (by simp)
      fun q _ => (h.running hn).1 q
  · rw [hn'] at hres
    intro x hx
    rw [hre] at hx
    obtain hx | hx := List.mem_append.mp hx
    · exact (h.running hn).2.1 x hx
    · rw [List.mem_singleton.mp hx]
      cases ok with
      | true => simp at hres
      | false => rfl
  · rw [hn'] at hres
    by_contra he
    rw [Bool.not_eq_false] at he
    cases ok <;> simp [he] at hres
  · rw [hfind,hres]
    cases ok with
    | true => simp
    | false =>
      simp only [Bool.false_eq_true,if_false]
      split_ifs <;> simp
  · rw [hre] at hq
    obtain hq | hq := List.mem_append.mp hq
    · exact absurd ((h.running hn).2.1 _ hq) (by simp)
    · cases List.mem_singleton.mp hq
      exact hres
  · rw [hf] at hres
    cases ok with
    | true => simp at hres
    | false =>
      have he : d.enough (s'.received.map (·.1)) = true := by
        by_contra he
        simp [he] at hres
      obtain ⟨⟨q',b⟩,hm,hq⟩ := List.mem_map.mp ((d.enough_iff _ hnodup).mp he q)
      cases hq
      have hb : b = false := by
        rw [hre] at hm
        obtain hm | hm := List.mem_append.mp hm
        · exact (h.running hn).2.1 _ hm
        · exact congrArg Prod.snd (List.mem_singleton.mp hm)
      exact hb ▸ hm

omit [DecidableEq R] in
lemma Inv.startFallbacks (h : Inv d s) (ht : s.timer ≠ .gone) (hn : s.result = none) :
    Inv d (s.startFallbacks d) := by
  have hns (r : R) (hp : d.primary r = false) : s.phase r = .notStarted := h.unstarted ht r hp
  have hpr (r : R) (hp : d.primary r = true) : s.phase r ≠ .notStarted := by
    intro hs
    rw [(h.waiting r hs).1] at hp
    cases hp
  refine ⟨fun r => ?_,fun r => ?_,fun ht' => absurd rfl ht',h.nodup,fun r ok => ?_,
    fun _ => ⟨fun r ok => ?_,(h.running hn).2⟩,h.first,h.only,h.failed⟩
  · cases hp : d.primary r with
    | true => simp [Race.startFallbacks,hp,h.once r]
    | false => simp [Race.startFallbacks,hp,h.once r,hns r hp]
  · cases hp : d.primary r with
    | true => simp [Race.startFallbacks,hp,hpr r hp]
    | false => simp [Race.startFallbacks,hp]
  · refine (h.delivered r ok).trans ?_
    cases hp : d.primary r with
    | true => simp [Race.startFallbacks,hp]
    | false => simp [Race.startFallbacks,hp,hns r hp]
  · cases hp : d.primary r with
    | true => simpa [Race.startFallbacks,hp] using (h.running hn).1 r ok
    | false => simp [Race.startFallbacks,hp]

omit [DecidableEq R] in
lemma Inv.fire (h : Inv d s) (ht : s.timer = .armed) : Inv d { s with timer := .fired } := by
  refine ⟨h.once,fun r hr => ⟨(h.waiting r hr).1,nofun⟩,fun _ r => h.unstarted ?_ r,h.nodup,
    h.delivered,h.running,h.first,h.only,h.failed⟩
  rw [ht]
  nofun

lemma rearm_eq_gone (b : Bool) (t : Timer) : Race.rearm b t = .gone ↔ t = .gone := by
  cases t <;> cases b <;> decide

lemma receive_fields (s : Race R) (r : R) (ok b : Bool) :
    (s.receive d r ok b).phase = Function.update s.phase r (.delivered ok) ∧
      (s.receive d r ok b).starts = s.starts ∧
      ((s.receive d r ok b).timer = s.timer ∨ (s.receive d r ok b).timer = Race.rearm b s.timer) ∧
      (s.receive d r ok b).received = s.received ++ [(r,ok)] := by
  simp only [Race.receive]
  split_ifs
  · exact ⟨rfl,rfl,.inl rfl,rfl⟩
  · exact ⟨rfl,rfl,.inl rfl,rfl⟩
  · exact ⟨rfl,rfl,.inr rfl,rfl⟩
  · exact ⟨rfl,rfl,.inl rfl,rfl⟩

lemma Inv.perform {e : Event R} (h : Inv d s) (hp : s.perform d e = some s') : Inv d s' := by
  cases e with
  | dialed r ok =>
    rw [Race.perform] at hp
    split_ifs at hp with hr
    cases hp
    exact h.go (by simp [hr]) nofun (by simp [hr,Phase.isDelivered]) rfl fun _ => rfl
  | receive r b =>
    rw [Race.perform] at hp
    split at hp
    · next ok hn hr =>
      cases hp
      obtain ⟨h1,h2,h3,h4⟩ := receive_fields (d := d) s r ok b
      refine h.receive hn hr h1 h2 ?_ h4 ?_
      · obtain h3 | h3 := h3
        · rw [h3]
        · rw [h3,rearm_eq_gone]
      · rw [h4]
        simp only [Race.receive]
        split_ifs <;> first | rfl | exact hn
    · cases hp
  | fire =>
    rw [Race.perform] at hp
    split_ifs at hp with ht
    cases hp
    exact h.fire ht.2
  | startFallbacks =>
    rw [Race.perform] at hp
    split_ifs at hp with ht
    cases hp
    refine h.startFallbacks ?_ ht.1
    rw [ht.2]
    nofun
  | quit r =>
    rw [Race.perform] at hp
    split at hp
    · next x ok hn hr =>
      cases hp
      refine h.go (by simp [hr]) nofun (by simp [hr,Phase.isDelivered]) rfl ?_
      rw [hn]
      nofun
    · cases hp

end invariant

section ending

variable [Fintype R]

def Phase.left : Phase → ℕ
  | .notStarted => 3
  | .dialing => 2
  | .sending _ => 1
  | _ => 0

def Timer.left : Timer → ℕ
  | .gone => 0
  | .fired => 1
  | .armed => 2

/-- What is left to do; a timer that is armed again costs less than the result that made it so. -/
def Race.left (s : Race R) : ℕ := 3 * ∑ r, (s.phase r).left + s.timer.left

/-- The call has returned, and each racer has ended: it was not started, has closed what it dialed or
failed, or its connection was returned. -/
def Final (s : Race R) : Prop :=
  s.result ≠ none ∧ ∀ r, s.phase r = .notStarted ∨ (∃ ok, s.phase r = .discarded ok) ∨
    s.phase r = .delivered false ∨ s.phase r = .delivered true ∧ s.result = some (some r)

variable {d} {s s' : Race R} {r : R} {p : Phase}

lemma sum_left_update (hp : p.left < (s.phase r).left) :
    ∑ q,(Function.update s.phase r p q).left < ∑ q,(s.phase q).left := by
  refine Finset.sum_lt_sum (fun q _ => ?_) ⟨r,Finset.mem_univ r,by simpa using hp⟩
  by_cases hq : q = r
  · subst hq
    simpa using hp.le
  · rw [Function.update_of_ne hq]

omit [DecidableEq R] [Fintype R] in
lemma rearm_left (b : Bool) (t : Timer) : (Race.rearm b t).left ≤ t.left + 1 := by
  cases t <;> cases b <;> decide

lemma left_perform {e : Event R} (h : Inv d s) (hp : s.perform d e = some s') :
    s'.left < s.left := by
  cases e with
  | dialed r ok =>
    rw [Race.perform] at hp
    split_ifs at hp with hr
    cases hp
    have hlt : ∑ q,(Function.update s.phase r (.sending ok) q).left < ∑ q,(s.phase q).left :=
      sum_left_update (by simp [hr,Phase.left])
    simp only [Race.left,Race.go]
    omega
  | receive r b =>
    rw [Race.perform] at hp
    split at hp
    · next ok hn hr =>
      cases hp
      obtain ⟨h1,-,h3,-⟩ := receive_fields (d := d) s r ok b
      have hlt : ∑ q,(Function.update s.phase r (.delivered ok) q).left < ∑ q,(s.phase q).left :=
        sum_left_update (by simp [hr,Phase.left])
      have ht : (s.receive d r ok b).timer.left ≤ s.timer.left + 1 := by
        obtain h3 | h3 := h3
        · rw [h3]
          exact Nat.le_succ _
        · rw [h3]
          exact rearm_left b s.timer
      simp only [Race.left,h1]
      omega
    · cases hp
  | fire =>
    rw [Race.perform] at hp
    split_ifs at hp with ht
    cases hp
    simp [Race.left,ht.2,Timer.left]
  | startFallbacks =>
    rw [Race.perform] at hp
    split_ifs at hp with ht
    cases hp
    have hle : ∑ q,((s.startFallbacks d).phase q).left ≤ ∑ q,(s.phase q).left := by
      refine Finset.sum_le_sum fun q _ => ?_
      cases hq : d.primary q with
      | true => simp [Race.startFallbacks,hq]
      | false => simp [Race.startFallbacks,hq,Phase.left,h.unstarted (by simp [ht.2]) q hq]
    have hti : (s.startFallbacks d).timer.left = 0 := rfl
    have hto : s.timer.left = 1 := by
      rw [ht.2]
      rfl
    simp only [Race.left,hti,hto]
    omega
  | quit r =>
    rw [Race.perform] at hp
    split at hp
    · next x ok hn hr =>
      cases hp
      have hlt : ∑ q,(Function.update s.phase r (.discarded ok) q).left < ∑ q,(s.phase q).left :=
        sum_left_update (by simp [hr,Phase.left])
      simp only [Race.left,Race.go]
      omega
    · cases hp

omit [Fintype R] in
lemma final_of_stuck (h : Inv d s) (hst : ∀ e,s.perform d e = none) : Final s := by
  have hdial (r : R) : s.phase r ≠ .dialing := by
    intro hr
    have hp := hst (.dialed r true)
    simp [Race.perform,hr] at hp
  have hsend (r : R) (ok : Bool) : s.phase r ≠ .sending ok := by
    intro hr
    cases hres : s.result with
    | none =>
      have hp := hst (.receive r true)
      simp [Race.perform,hr,hres] at hp
    | some x =>
      have hp := hst (.quit r)
      simp [Race.perform,hr,hres] at hp
  have hdel (r : R) (hr : s.phase r = .delivered true) : s.result = some (some r) :=
    h.only r ((h.delivered r true).mpr hr)
  refine ⟨fun hres => ?_,fun r => ?_⟩
  · -- Without a result everyone has failed or waits for the timer, which can go on.
    obtain ⟨hdis,-,hen⟩ := h.running hres
    have hgone : s.timer = .gone := by
      cases ht : s.timer with
      | gone => rfl
      | armed =>
        have hp := hst .fire
        simp [Race.perform,hres,ht] at hp
      | fired =>
        have hp := hst .startFallbacks
        simp [Race.perform,hres,ht] at hp
    have hall (r : R) : r ∈ s.received.map (·.1) := by
      cases hr : s.phase r with
      | notStarted => exact absurd hgone (h.waiting r hr).2
      | dialing => exact absurd hr (hdial r)
      | sending ok => exact absurd hr (hsend r ok)
      | delivered ok => exact List.mem_map_of_mem ((h.delivered r ok).mpr hr)
      | discarded ok => exact absurd hr (hdis r ok)
    rw [(d.enough_iff _ h.nodup).mpr hall] at hen
    cases hen
  · cases hr : s.phase r with
    | notStarted => exact .inl rfl
    | dialing => exact absurd hr (hdial r)
    | sending ok => exact absurd hr (hsend r ok)
    | delivered ok =>
      cases ok with
      | true => exact .inr (.inr (.inr ⟨rfl,hdel r hr⟩))
      | false => exact .inr (.inr (.inl rfl))
    | discarded ok => exact .inr (.inl ⟨ok,rfl⟩)

variable (d) in
/-- In every state that a call reaches: the first success that was received is what it returns; with
an error, each racer was started once and has failed; and whatever happens next, it comes to an end
in which the call has returned and no racer is left. -/
def Correct : Prop :=
  ∀ s, Reaches (fun s e s' => Race.perform d s e = some s') anyStep (Race.start d) s →
    (∀ r, s.result = some (some r) ↔ s.received.find? (·.2) = some (r,true)) ∧
    (s.result = some none → ∀ r, s.starts r = 1 ∧ s.phase r = .delivered false) ∧
    Settles (Race.perform d) (fun _ => True) Final s

lemma correct [Nonempty R] (d : Dial R) : Correct d := by
  intro s hs
  have hi : Inv d s := by
    refine hs.invariant (Inv d) Inv.start ?_
    intro s e s' h hp _
    exact h.perform hp
  refine ⟨hi.first,fun hf r => ?_,?_⟩
  · have hr := (hi.delivered r false).mp (hi.failed hf r)
    refine ⟨?_,hr⟩
    rw [hi.once,hr]
    rfl
  · refine settles_of_measure Race.left (fun s e s' h _ hp => ⟨h.perform hp,left_perform h hp⟩)
      (fun s h hst => ?_) hi
    exact final_of_stuck h fun e => hst e trivial

end ending

section calls

/-- The racers of the two groups of interfaces; the call ends when it has as many errors as there are
interfaces. -/
def interfaceDial (timed : Bool) (primaries fallbacks : ℕ) : Dial (Fin primaries ⊕ Fin fallbacks) where
  primary := Sum.isLeft
  timed := timed
  enough failed := failed.length = primaries + fallbacks
  enough_iff failed hn := by
    have hcard : Fintype.card (Fin primaries ⊕ Fin fallbacks) = primaries + fallbacks := by simp
    rw [decide_eq_true_eq,← hcard,← List.toFinset_card_of_nodup hn,Finset.card_eq_iff_eq_univ,
      Finset.eq_univ_iff_forall]
    simp

def dialParallelInterface (primaries fallbacks : ℕ) := interfaceDial true primaries fallbacks

def dialParallelInterfaceFastFallback (primaries fallbacks : ℕ) :=
  interfaceDial false primaries fallbacks

/-- The racers of the two address families; the call ends when both are done. -/
def dialParallelNetwork : Dial Bool where
  primary := id
  timed := true
  enough failed := failed.any id && failed.any not
  enough_iff failed _ := by
    simp [Bool.forall_bool,and_comm]

/-- Parallel dialing over any interfaces, not both groups empty, and over two address families. -/
theorem parallel_dials_correct :
    (∀ primaries fallbacks, primaries + fallbacks ≠ 0 →
      Correct (dialParallelInterface primaries fallbacks) ∧
        Correct (dialParallelInterfaceFastFallback primaries fallbacks)) ∧
    Correct dialParallelNetwork := by
  refine ⟨fun primaries fallbacks hne => ?_,correct dialParallelNetwork⟩
  have hnonempty : Nonempty (Fin primaries ⊕ Fin fallbacks) := by
    rw [← Fintype.card_pos_iff,Fintype.card_sum,Fintype.card_fin,Fintype.card_fin]
    exact Nat.pos_of_ne_zero hne
  exact ⟨correct _,correct _⟩

theorem parallel_dials_correct_two : Correct (dialParallelInterface 1 1) :=
  (parallel_dials_correct.1 1 1 (by decide)).1

end calls
end SingBoxAuth.ParallelDials
