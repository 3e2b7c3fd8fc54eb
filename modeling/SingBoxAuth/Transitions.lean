import Mathlib.Algebra.Order.BigOperators.Group.Finset
import Mathlib.Data.Finset.Max
import Mathlib.Data.List.Basic
import Mathlib.Logic.Function.Basic

/-! Runs of a transition relation whose steps all meet a condition, and the rules for invariants and
for runs that come to an end. -/
namespace SingBoxAuth.Transitions

variable {S E : Type}

/-- The states that steps reach from a state, when each of them meets the condition in the state
before it. -/
inductive Reaches (step : S → E → S → Prop) (cond : S → E → Prop) (start : S) : S → Prop
  | start : Reaches step cond start start
  | step {s t : S} {e : E} : Reaches step cond start s → step s e t → cond s e →
      Reaches step cond start t

def anyStep : S → E → Prop := fun _ _ => True

/-- What holds at the start and survives each step holds in every state reached. -/
theorem Reaches.invariant {step : S → E → S → Prop} {cond : S → E → Prop} {start s : S}
    (h : Reaches step cond start s) (inv : S → Prop) (hstart : inv start)
    (hs : ∀ s e t,inv s → step s e t → cond s e → inv t) : inv s := by
  induction h with
  | start => exact hstart
  | step _ hst hco ih => exact hs _ _ _ ih hst hco

lemma Reaches.mono {step : S → E → S → Prop} {cond cond' : S → E → Prop} {start s : S}
    (h : Reaches step cond start s) (hco : ∀ s e,cond s e → cond' s e) :
    Reaches step cond' start s := by
  induction h with
  | start => exact .start
  | step _ hst hc ih => exact .step ih hst (hco _ _ hc)

lemma Reaches.of_step {step step' : S → E → S → Prop} {cond : S → E → Prop} {start s : S}
    (h : Reaches step cond start s) (hs : ∀ s e t,step s e t → step' s e t) :
    Reaches step' cond start s := by
  induction h with
  | start => exact .start
  | step _ hst hc ih => exact .step ih (hs _ _ _ hst) hc

/-- The state after some events of a step function, each of which has to pass the test. -/
def follow (perform : S → E → Option S) (test : S → E → Bool) : List E → S → Option S
  | [], s => some s
  | e :: rest, s =>
    if test s e then
      match perform s e with
      | none => none
      | some t => follow perform test rest t
    else none

/-- Events that can be followed are a run. -/
theorem reaches_of_follow {perform : S → E → Option S} {test : S → E → Bool} {events : List E}
    {start s t : S} (hs : Reaches (fun s e t => perform s e = some t) (fun s e => test s e = true)
      start s) (h : follow perform test events s = some t) :
    Reaches (fun s e t => perform s e = some t) (fun s e => test s e = true) start t := by
  induction events generalizing s with
  | nil =>
    cases h
    exact hs
  | cons e rest ih =>
    rw [follow] at h
    split_ifs at h with ht
    cases hp : perform s e with
    | none => simp [hp] at h
    | some s' =>
      rw [hp] at h
      exact ih (.step hs hp ht) h

/-- The moves come to an end, whichever are made, and end in a final state. -/
inductive Settles (perform : S → E → Option S) (moves : E → Prop) (final : S → Prop) : S → Prop
  | intro {s : S} (hnext : ∀ e t, moves e → perform s e = some t → Settles perform moves final t)
      (hstuck : (∀ e, moves e → perform s e = none) → final s) : Settles perform moves final s

/-- Moves that make a measure smaller settle, where a state without a move is final. -/
theorem settles_of_measure {perform : S → E → Option S} {moves : E → Prop} {final inv : S → Prop}
    (measure : S → ℕ)
    (hmo : ∀ s e t,inv s → moves e → perform s e = some t → inv t ∧ measure t < measure s)
    (hst : ∀ s,inv s → (∀ e,moves e → perform s e = none) → final s) {s : S} (hs : inv s) :
    Settles perform moves final s := by
  induction hn : measure s using Nat.strong_induction_on generalizing s with
  | _ n ih =>
    refine .intro (fun e t he ht => ?_) (hst s hs)
    obtain ⟨hi,hlt⟩ := hmo s e t hs he ht
    exact ih (measure t) (hn ▸ hlt) hi rfl

lemma sum_update_lt {P : Type} (weight : P → ℕ) (phase : ℕ → P) {n i : ℕ} {p : P} (hi : i < n)
    (hp : weight p < weight (phase i)) :
    ∑ j ∈ Finset.range n,weight (Function.update phase i p j) <
      ∑ j ∈ Finset.range n,weight (phase j) := by
  refine Finset.sum_lt_sum (fun j _ => ?_) ⟨i,Finset.mem_range.mpr hi,by simpa using hp⟩
  by_cases hj : j = i
  · subst hj
    simpa using hp.le
  · rw [Function.update_of_ne hj]

lemma exists_last {P : ℕ → Prop} {n i : ℕ} (hlt : ∀ j,P j → j < n) (hi : P i) :
    ∃ j,P j ∧ ∀ k,P k → k ≤ j := by
  classical
  obtain ⟨j,hj,hma⟩ := ((Finset.range n).filter P).exists_max_image id
    ⟨i,Finset.mem_filter.mpr ⟨Finset.mem_range.mpr (hlt i hi),hi⟩⟩
  refine ⟨j,(Finset.mem_filter.mp hj).2,fun k hk => ?_⟩
  exact hma k (Finset.mem_filter.mpr ⟨Finset.mem_range.mpr (hlt k hk),hk⟩)

section places

variable {T P : Type} [DecidableEq T] {pc pc' : T → P} {t : T} {p : P}

lemma forall_place {f : T → P → Prop} (hpc : pc' = Function.update pc t p) (ht : f t p)
    (ho : ∀ u,u ≠ t → f u (pc u)) : ∀ u,f u (pc' u) := by
  rw [hpc]
  exact (Function.forall_update_iff pc f).mpr ⟨ht,ho⟩

lemma exists_place {f : P → Prop} (hpc : pc' = Function.update pc t p) (ht : f (pc t) → f p)
    (h : ∃ u,f (pc u)) : ∃ u,f (pc' u) := by
  obtain ⟨u,hu⟩ := h
  rw [hpc,Function.exists_update_iff pc fun _ => f]
  by_cases he : u = t
  · exact .inl (ht (he ▸ hu))
  · exact .inr ⟨u,he,hu⟩

lemma owner_place {holds : P → Bool} {lock lock' : Option T}
    (ho : ∀ u,holds (pc u) = true → lock = some u) (hpc : pc' = Function.update pc t p)
    (hl : lock' = lock ∨ lock = none ∨ lock = some t) (hp : holds p = true → lock' = some t) :
    ∀ u,holds (pc' u) = true → lock' = some u := by
  refine forall_place (f := fun u q => holds q = true → lock' = some u) hpc hp fun u hne hu => ?_
  have hu := ho u hu
  obtain hl | hl | hl := hl
  · rw [hl,hu]
  · rw [hl] at hu
    cases hu
  · rw [hl] at hu
    exact absurd (Option.some.inj hu).symm hne

omit [DecidableEq T] in
lemma owner_unique {holds : P → Bool} {lock : Option T} {u : T}
    (ho : ∀ u,holds (pc u) = true → lock = some u) (ht : holds (pc t) = true)
    (hu : holds (pc u) = true) : u = t := by
  have hl := ho u hu
  rw [ho t ht] at hl
  exact (Option.some.inj hl).symm

end places

end SingBoxAuth.Transitions
