import Mathlib.Data.List.Nodup
import Mathlib.Logic.Function.Basic

/-! Resources that are made one after the other, are held by one holder at a time, wait in a pool,
and are released for good. Every resource has exactly one place, whatever the holders do. -/
namespace SingBoxAuth.ResourceOwnership

variable {H : Type}

/-- The resources are numbered in the order in which they are made. -/
structure Ledger (H : Type) where
  made : ℕ
  hold : H → Option ℕ
  pool : List ℕ
  released : List ℕ

def Ledger.empty : Ledger H := ⟨0,fun _ => none,[],[]⟩

inductive Move [DecidableEq H] (l : Ledger H) : Ledger H → Prop
  | rest : Move l l
  | make (h : H) (free : l.hold h = none) :
      Move l { l with
        made := l.made + 1
        hold := Function.update l.hold h (some l.made) }
  | take (h : H) (c : ℕ) (pool : List ℕ) (free : l.hold h = none) (first : l.pool = c :: pool) :
      Move l { l with
        hold := Function.update l.hold h (some c)
        pool := pool }
  | put (h : H) (c : ℕ) (held : l.hold h = some c) :
      Move l { l with
        hold := Function.update l.hold h none
        pool := l.pool ++ [c] }
  | release (h : H) (c : ℕ) (held : l.hold h = some c) :
      Move l { l with
        hold := Function.update l.hold h none
        released := c :: l.released }
  | drain :
      Move l { l with
        pool := []
        released := l.pool ++ l.released }

/-- Every resource that was made is held by one holder, or waits in the pool, or is released, once
and for good. -/
structure Sound (l : Ledger H) : Prop where
  exclusive : ∀ h h' c, l.hold h = some c → l.hold h' = some c → h = h'
  made_of_hold : ∀ h c, l.hold h = some c → c < l.made
  hold_apart : ∀ h c, l.hold h = some c → c ∉ l.pool ∧ c ∉ l.released
  made_of_place : ∀ c, c ∈ l.pool ++ l.released → c < l.made
  once : (l.pool ++ l.released).Nodup
  placed : ∀ c, c < l.made → c ∈ l.pool ++ l.released ∨ ∃ h, l.hold h = some c

lemma sound_empty : Sound (Ledger.empty : Ledger H) where
  exclusive h h' c hc := by cases hc
  made_of_hold h c hc := by cases hc
  hold_apart h c hc := by cases hc
  made_of_place c hc := by cases hc
  once := .nil
  placed c hc := by cases hc

namespace Sound

variable [DecidableEq H] {l l' : Ledger H}

lemma hold_update {h : H} {c : ℕ} (hl : Sound l) (hf : ∀ h',l.hold h' ≠ some c)
    (h₁ h₂ : H) (c' : ℕ) (h₁' : Function.update l.hold h (some c) h₁ = some c')
    (h₂' : Function.update l.hold h (some c) h₂ = some c') : h₁ = h₂ := by
  by_cases hh₁ : h₁ = h
  · by_cases hh₂ : h₂ = h
    · rw [hh₁,hh₂]
    · rw [hh₁,Function.update_self] at h₁'
      cases h₁'
      rw [Function.update_of_ne hh₂] at h₂'
      exact absurd h₂' (hf h₂)
  · rw [Function.update_of_ne hh₁] at h₁'
    by_cases hh₂ : h₂ = h
    · rw [hh₂,Function.update_self] at h₂'
      cases h₂'
      exact absurd h₁' (hf h₁)
    · rw [Function.update_of_ne hh₂] at h₂'
      exact hl.exclusive h₁ h₂ c' h₁' h₂'

lemma hold_of_cleared {h h' : H} {c : ℕ} (hc : Function.update l.hold h none h' = some c) :
    l.hold h' = some c ∧ h' ≠ h := by
  by_cases hh : h' = h
  · rw [hh,Function.update_self] at hc
    cases hc
  · rw [Function.update_of_ne hh] at hc
    exact ⟨hc,hh⟩

lemma hold_of_taken {h h' : H} {c c' : ℕ}
    (hc : Function.update l.hold h (some c) h' = some c') : c' = c ∨ l.hold h' = some c' := by
  by_cases hh : h' = h
  · rw [hh,Function.update_self] at hc
    cases hc
    exact .inl rfl
  · rw [Function.update_of_ne hh] at hc
    exact .inr hc

lemma make (hl : Sound l) {h : H} (free : l.hold h = none) : Sound { l with
      made := l.made + 1
      hold := Function.update l.hold h (some l.made) } where
  exclusive h₁ h₂ c := hl.hold_update (fun h' hh' => by
    have := hl.made_of_hold h' _ hh'
    omega) h₁ h₂ c
  made_of_hold h' c hc := by
    obtain rfl | hc := hold_of_taken hc
    · exact Nat.lt_succ_self _
    · have := hl.made_of_hold h' c hc
      exact Nat.lt_succ_of_lt this
  hold_apart h' c hc := by
    obtain rfl | hc := hold_of_taken hc
    · constructor
      · intro hme
        have := hl.made_of_place _ (List.mem_append_left _ hme)
        omega
      · intro hme
        have := hl.made_of_place _ (List.mem_append_right _ hme)
        omega
    · exact hl.hold_apart h' c hc
  made_of_place c hc := Nat.lt_succ_of_lt (hl.made_of_place c hc)
  once := hl.once
  placed c hc := by
    obtain hlt | rfl := Nat.lt_succ_iff_lt_or_eq.mp hc
    · obtain hp | ⟨h',hh'⟩ := hl.placed c hlt
      · exact .inl hp
      · have hne : h' ≠ h := by
          rintro rfl
          rw [free] at hh'
          cases hh'
        exact .inr ⟨h',(Function.update_of_ne hne _ _).trans hh'⟩
    · exact .inr ⟨h,Function.update_self ..⟩

lemma take (hl : Sound l) {h : H} {c : ℕ} {pool : List ℕ} (free : l.hold h = none)
    (first : l.pool = c :: pool) :
    Sound { l with
      hold := Function.update l.hold h (some c)
      pool := pool } := by
  have hn : ∀ h',l.hold h' ≠ some c := by
    intro h' hh'
    exact (hl.hold_apart h' c hh').1 (by rw [first]; exact List.mem_cons_self)
  have ho := hl.once
  rw [first,List.cons_append,List.nodup_cons] at ho
  have hs : ∀ {c'},c' ∈ pool ++ l.released → c' ∈ l.pool ++ l.released := by
    intro c' hc'
    rw [first]
    exact List.mem_cons_of_mem _ hc'
  refine ⟨hl.hold_update hn,?_,?_,fun c' hc' => hl.made_of_place c' (hs hc'),ho.2,?_⟩
  · intro h' c' hc'
    obtain rfl | hc' := hold_of_taken hc'
    · exact hl.made_of_place c' (by rw [first]; exact List.mem_cons_self)
    · exact hl.made_of_hold h' c' hc'
  · intro h' c' hc'
    obtain rfl | hc' := hold_of_taken hc'
    · rw [List.mem_append,not_or] at ho
      exact ho.1
    · obtain ⟨hpo,hr⟩ := hl.hold_apart h' c' hc'
      rw [first,List.mem_cons,not_or] at hpo
      exact ⟨hpo.2,hr⟩
  · intro c' hc'
    obtain hp | ⟨h',hh'⟩ := hl.placed c' hc'
    · rw [first,List.cons_append,List.mem_cons] at hp
      obtain rfl | hp := hp
      · exact .inr ⟨h,Function.update_self ..⟩
      · exact .inl hp
    · have hne : h' ≠ h := by
        rintro rfl
        rw [free] at hh'
        cases hh'
      exact .inr ⟨h',(Function.update_of_ne hne _ _).trans hh'⟩

lemma clear (hl : Sound l) {h : H} {c : ℕ} {pool released : List ℕ} (held : l.hold h = some c)
    (hp : (pool ++ released).Perm (c :: (l.pool ++ l.released))) :
    Sound { l with
      hold := Function.update l.hold h none
      pool := pool
      released := released } := by
  have hme : ∀ {c'},c' ∈ pool ++ released ↔ c' = c ∨ c' ∈ l.pool ++ l.released := by
    intro c'
    rw [hp.mem_iff,List.mem_cons]
  have hf : c ∉ l.pool ++ l.released := by
    rw [List.mem_append,not_or]
    exact hl.hold_apart h c held
  refine ⟨?_,?_,?_,?_,?_,?_⟩
  · intro h₁ h₂ c' h₁' h₂'
    exact hl.exclusive h₁ h₂ c' (hold_of_cleared h₁').1 (hold_of_cleared h₂').1
  · intro h' c' hc'
    exact hl.made_of_hold h' c' (hold_of_cleared hc').1
  · intro h' c' hc'
    obtain ⟨hc',hne⟩ := hold_of_cleared hc'
    have ho : c' ∉ pool ++ released := by
      rw [hme,not_or,List.mem_append,not_or]
      refine ⟨?_,hl.hold_apart h' c' hc'⟩
      rintro rfl
      exact hne (hl.exclusive h' h c' hc' held)
    rwa [List.mem_append,not_or] at ho
  · intro c' hc'
    obtain rfl | hc' := hme.mp hc'
    · exact hl.made_of_hold h c' held
    · exact hl.made_of_place c' hc'
  · rw [hp.nodup_iff,List.nodup_cons]
    exact ⟨hf,hl.once⟩
  · intro c' hc'
    obtain hpl | ⟨h',hh'⟩ := hl.placed c' hc'
    · exact .inl (hme.mpr (.inr hpl))
    · by_cases hh : h' = h
      · rw [hh,held] at hh'
        cases hh'
        exact .inl (hme.mpr (.inl rfl))
      · exact .inr ⟨h',(Function.update_of_ne hh _ _).trans hh'⟩

/-- Whatever a step does, every resource keeps exactly one place. -/
theorem move (hl : Sound l) (h : Move l l') : Sound l' := by
  cases h with
  | rest => exact hl
  | make h free => exact hl.make free
  | take h c pool free first => exact hl.take free first
  | put h c held =>
    refine hl.clear held ?_
    rw [List.append_assoc,List.singleton_append]
    exact List.perm_middle
  | release h c held => exact hl.clear held List.perm_middle
  | drain =>
    exact ⟨hl.exclusive,hl.made_of_hold,fun h c hc => ⟨by simp,by
      rw [List.mem_append,not_or]
      exact hl.hold_apart h c hc⟩,hl.made_of_place,hl.once,hl.placed⟩

omit [DecidableEq H] in
lemma released_or_pooled (hl : Sound l) (hn : ∀ h,l.hold h = none) {c : ℕ} (hc : c < l.made) :
    c ∈ l.pool ∨ c ∈ l.released := by
  obtain hp | ⟨h,hh⟩ := hl.placed c hc
  · exact List.mem_append.mp hp
  · rw [hn h] at hh
    cases hh

end Sound

end SingBoxAuth.ResourceOwnership
