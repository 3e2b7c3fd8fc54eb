import SingBoxAuth.Interleaving

/-! Programs that run alone: all the ways in which they can run, and rules for total
correctness, that a program returns and that what it returns meets a postcondition. -/
namespace SingBoxAuth.Interleaving

variable {Act : Type} {Res : Act → Type} {St α β : Type}

namespace Prog

/-- The results and final states of a program that nothing interrupts. -/
def runs (outcomes : Outcomes Act Res St) (t : ℕ) : Prog Act Res α → St → List (α × St)
  | .ret x, s => [(x,s)]
  | .act a next, s => (outcomes t a s).flatMap fun o => (next o.1).runs outcomes t o.2

/-- Run alone, the program never blocks, and it ends as the postcondition says. -/
def Ends (outcomes : Outcomes Act Res St) (t : ℕ) (Q : α → St → Prop) : Prog Act Res α → St → Prop
  | .ret x, s => Q x s
  | .act a next, s => outcomes t a s ≠ [] ∧
      ∀ r s', (r,s') ∈ outcomes t a s → (next r).Ends outcomes t Q s'

variable {outcomes : Outcomes Act Res St} {t : ℕ} {Q Q' : α → St → Prop} {s : St}

variable {p : Prog Act Res α}

lemma Ends.mono (h : p.Ends outcomes t Q s) (hQ : ∀ x s,Q x s → Q' x s) :
    p.Ends outcomes t Q' s := by
  induction p generalizing s with
  | ret x => exact hQ x s h
  | act a next ih => exact ⟨h.1,fun r s' hr => ih r (h.2 r s' hr)⟩

variable {f : β → Prog Act Res α}

lemma Ends.bind {p : Prog Act Res β} {R : β → St → Prop} (h : p.Ends outcomes t R s)
    (hf : ∀ x s,R x s → (f x).Ends outcomes t Q s) :
    (p >>= f).Ends outcomes t Q s := by
  induction p generalizing s with
  | ret x => exact hf x s h
  | act a next ih => exact ⟨h.1,fun r s' hr => ih r (h.2 r s' hr)⟩

lemma ends_act {a : Act} {f : Res a → Prog Act Res α} (hne : outcomes t a s ≠ [])
    (h : ∀ r s',(r,s') ∈ outcomes t a s → (f r).Ends outcomes t Q s') :
    (perform a >>= f).Ends outcomes t Q s := ⟨hne,h⟩

lemma ends_one {a : Act} {f : Res a → Prog Act Res α} {r : Res a} {z : St}
    (ho : outcomes t a s = [(r,z)]) (h : (f r).Ends outcomes t Q z) :
    (perform a >>= f).Ends outcomes t Q s := by
  refine ends_act (by rw [ho]; exact List.cons_ne_nil _ _) fun r' w hr => ?_
  rw [ho,List.mem_singleton,Prod.mk.injEq] at hr
  exact hr.1 ▸ hr.2 ▸ h

lemma ends_perform {a : Act} {Q : Res a → St → Prop} {r : Res a} {s' : St}
    (ho : outcomes t a s = [(r,s')]) (h : Q r s') : (perform a).Ends outcomes t Q s :=
  ends_one (f := .ret) ho h

lemma Ends.of_mem_runs (h : p.Ends outcomes t Q s) {x : α} {s' : St}
    (hx : (x,s') ∈ p.runs outcomes t s) : Q x s' := by
  induction p generalizing s with
  | ret y =>
    rw [runs,List.mem_singleton,Prod.mk.injEq] at hx
    exact hx.1 ▸ hx.2 ▸ h
  | act a next ih =>
    obtain ⟨o,ho,hx⟩ := List.mem_flatMap.mp hx
    exact ih o.1 (h.2 o.1 o.2 ho) hx

lemma Ends.exists_run (h : p.Ends outcomes t Q s) :
    ∃ x s',(x,s') ∈ p.runs outcomes t s ∧ Q x s' := by
  induction p generalizing s with
  | ret x => exact ⟨x,s,List.mem_singleton.mpr rfl,h⟩
  | act a next ih =>
    obtain ⟨o,ho⟩ := List.exists_mem_of_ne_nil _ h.1
    obtain ⟨x,s',hx,hQ⟩ := ih o.1 (h.2 o.1 o.2 ho)
    exact ⟨x,s',List.mem_flatMap.mpr ⟨o,ho,hx⟩,hQ⟩

lemma mem_runs_bind {p : Prog Act Res β} {o : α × St} : o ∈ (p >>= f).runs outcomes t s ↔
      ∃ x s',(x,s') ∈ p.runs outcomes t s ∧ o ∈ (f x).runs outcomes t s' := by
  induction p generalizing s with
  | ret x =>
    constructor
    · intro h
      exact ⟨x,s,List.mem_singleton.mpr rfl,h⟩
    · rintro ⟨y,s',hy,h⟩
      rw [runs,List.mem_singleton,Prod.mk.injEq] at hy
      exact hy.1 ▸ hy.2 ▸ h
  | act a next ih =>
    constructor
    · intro h
      obtain ⟨r,hr,ho⟩ := List.mem_flatMap.mp h
      obtain ⟨x,s',hx,ho⟩ := ih r.1 |>.mp ho
      exact ⟨x,s',List.mem_flatMap.mpr ⟨r,hr,hx⟩,ho⟩
    · rintro ⟨x,s',hx,ho⟩
      obtain ⟨r,hr,hx⟩ := List.mem_flatMap.mp hx
      exact List.mem_flatMap.mpr ⟨r,hr,(ih r.1).mpr ⟨x,s',hx,ho⟩⟩

variable {V V' : Type} {view : St → V} {view' : St → V'} {R : List (α × V)}

/-- What the runs of a program return and leave of the state, seen through a view: these
outcomes and no others. -/
def Results (outcomes : Outcomes Act Res St) (t : ℕ) (view : St → V) (p : Prog Act Res α) (s : St)
    (R : List (α × V)) : Prop :=
  ∀ o, o ∈ R ↔ ∃ x s', (x,s') ∈ p.runs outcomes t s ∧ o = (x,view s')

lemma results_ret {x : α} {v : V} (hv : view s = v) :
    Results outcomes t view (.ret x) s [(x,v)] := by
  intro o
  simp [runs,hv]

lemma Results.bind {p : Prog Act Res β} {R : List (β × V)} {F : β → V → List (α × V')}
    (hp : Results outcomes t view p s R)
    (hf : ∀ x s',(x,s') ∈ p.runs outcomes t s → Results outcomes t view' (f x) s' (F x (view s'))) :
    Results outcomes t view' (p >>= f) s (R.flatMap fun o => F o.1 o.2) := by
  intro o
  rw [List.mem_flatMap]
  constructor
  · rintro ⟨o',ho',ho⟩
    obtain ⟨x,s',hx,rfl⟩ := (hp o').mp ho'
    obtain ⟨y,s'',hy,rfl⟩ := (hf x s' hx o).mp ho
    exact ⟨y,s'',mem_runs_bind.mpr ⟨x,s',hx,hy⟩,rfl⟩
  · rintro ⟨y,s'',hy,rfl⟩
    obtain ⟨x,s',hx,hy⟩ := mem_runs_bind.mp hy
    exact ⟨(x,view s'),(hp _).mpr ⟨x,s',hx,rfl⟩,(hf x s' hx _).mpr ⟨y,s'',hy,rfl⟩⟩

lemma Ends.results {p : Prog Act Res β} {Q : β → St → Prop} (hp : p.Ends outcomes t Q s)
    (hf : ∀ x s',Q x s' → Results outcomes t view (f x) s' R) :
    Results outcomes t view (p >>= f) s R := by
  intro o
  constructor
  · intro ho
    obtain ⟨x,s',hx,hQ⟩ := hp.exists_run
    obtain ⟨y,s'',hy,rfl⟩ := (hf x s' hQ o).mp ho
    exact ⟨y,s'',mem_runs_bind.mpr ⟨x,s',hx,hy⟩,rfl⟩
  · rintro ⟨y,s'',hy,rfl⟩
    obtain ⟨x,s',hx,hy⟩ := mem_runs_bind.mp hy
    exact (hf x s' (hp.of_mem_runs hx) _).mpr ⟨y,s'',hy,rfl⟩

lemma Ends.single {x : α} {v : V} (hp : p.Ends outcomes t (fun y s' => y = x ∧ view s' = v) s) :
    Results outcomes t view p s [(x,v)] := by
  intro o
  rw [List.mem_singleton]
  constructor
  · rintro rfl
    obtain ⟨y,s',hy,rfl,rfl⟩ := hp.exists_run
    exact ⟨y,s',hy,rfl⟩
  · rintro ⟨y,s',hy,rfl⟩
    obtain ⟨rfl,rfl⟩ := hp.of_mem_runs hy
    rfl

lemma results_one {a : Act} {f : Res a → Prog Act Res α} {r : Res a} {s' : St}
    (ho : outcomes t a s = [(r,s')]) (h : Results outcomes t view (f r) s' R) :
    Results outcomes t view (perform a >>= f) s R :=
  Ends.results (Q := fun x w => x = r ∧ w = s') (ends_perform ho ⟨rfl,rfl⟩) fun _ _ hx =>
    hx.1 ▸ hx.2 ▸ h

lemma results_perform {a : Act} {r : Res a} {s' : St} {v : V} (ho : outcomes t a s = [(r,s')])
    (hv : view s' = v) : Results outcomes t view (perform a) s [(r,v)] :=
  results_one (f := .ret) ho (results_ret hv)

lemma results_two {a : Act} {f : Res a → Prog Act Res α} {r₁ r₂ : Res a} {s₁ s₂ : St}
    {R₁ R₂ : List (α × V)} (ho : outcomes t a s = [(r₁,s₁),(r₂,s₂)])
    (h₁ : Results outcomes t view (f r₁) s₁ R₁) (h₂ : Results outcomes t view (f r₂) s₂ R₂) :
    Results outcomes t view (perform a >>= f) s (R₁ ++ R₂) := by
  intro o
  have hr : (perform a >>= f).runs outcomes t s =
      (f r₁).runs outcomes t s₁ ++ (f r₂).runs outcomes t s₂ := by
    change (outcomes t a s).flatMap _ = _
    rw [ho,List.flatMap_cons,List.flatMap_cons,List.flatMap_nil,List.append_nil]
    rfl
  rw [List.mem_append,h₁ o,h₂ o,hr]
  simp only [List.mem_append,or_and_right,exists_or]

end Prog

end SingBoxAuth.Interleaving
