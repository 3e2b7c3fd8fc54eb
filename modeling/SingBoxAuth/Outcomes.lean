import Mathlib.Data.List.Basic

/-! Calls that return a value or an error, go out of the range of a list, or are still in a loop when
their fuel is used up; what such a call comes to when it gets enough fuel. -/
namespace SingBoxAuth.Outcomes

variable {E A B S : Type}

inductive Outcome (E A : Type)
  | ok (value : A)
  | error (e : E)
  | outOfRange
  | running
  deriving DecidableEq

namespace Outcome

def bind (x : Outcome E A) (f : A → Outcome E B) : Outcome E B :=
  match x with
  | .ok a => f a
  | .error e => .error e
  | .outOfRange => .outOfRange
  | .running => .running

instance : Monad (Outcome E) where
  pure := .ok
  bind := Outcome.bind

@[simp] lemma ok_bind (a : A) (f : A → Outcome E B) : (Outcome.ok a >>= f) = f a := rfl

@[simp] lemma error_bind (e : E) (f : A → Outcome E B) : (Outcome.error e >>= f) = .error e := rfl

@[simp] lemma outOfRange_bind (f : A → Outcome E B) :
    ((Outcome.outOfRange : Outcome E A) >>= f) = .outOfRange := rfl

@[simp] lemma running_bind (f : A → Outcome E B) :
    ((Outcome.running : Outcome E A) >>= f) = .running := rfl

def handle {F : Type} (x : Outcome E A) (onOk : A → Outcome F B) (onError : E → Outcome F B) :
    Outcome F B :=
  match x with
  | .ok a => onOk a
  | .error e => onError e
  | .outOfRange => .outOfRange
  | .running => .running

def Safe : Outcome E A → Prop
  | .ok _ => True
  | .error _ => True
  | .outOfRange => False
  | .running => False

lemma Safe.bind {x : Outcome E A} {f : A → Outcome E B} (hx : x.Safe)
    (hf : ∀ a,x = .ok a → (f a).Safe) : (x >>= f).Safe := by
  cases x with
  | ok a => exact hf a rfl
  | error e => trivial
  | outOfRange => exact hx
  | running => exact hx

end Outcome

open Outcome

section lists

variable {α : Type}

def index (xs : List α) (i : ℕ) : Outcome E α :=
  match xs[i]? with
  | some x => .ok x
  | none => .outOfRange

def sliceFrom (xs : List α) (low : ℕ) : Outcome E (List α) :=
  if low ≤ xs.length then .ok (xs.drop low) else .outOfRange

def slice (xs : List α) (low high : ℕ) : Outcome E (List α) :=
  if low ≤ high ∧ high ≤ xs.length then .ok ((xs.drop low).take (high - low)) else .outOfRange

lemma index_eq_getD {xs : List α} {i : ℕ} (h : i < xs.length) (default : α) :
    (index xs i : Outcome E α) = .ok (xs.getD i default) := by
  rw [index,List.getD_eq_getElem?_getD,List.getElem?_eq_getElem h]
  rfl

lemma sliceFrom_of_le {xs : List α} {low : ℕ} (h : low ≤ xs.length) :
    (sliceFrom xs low : Outcome E (List α)) = .ok (xs.drop low) := if_pos h

lemma slice_of_le {xs : List α} {low high : ℕ} (h : low ≤ high) (h' : high ≤ xs.length) :
    (slice xs low high : Outcome E (List α)) = .ok ((xs.drop low).take (high - low)) :=
  if_pos ⟨h,h'⟩

end lists

/-- A loop whose body goes on with another state or ends with a result. -/
def loop (body : S → Outcome E (S ⊕ A)) : ℕ → S → Outcome E A
  | 0, _ => .running
  | fuel + 1, s => body s >>= fun
    | .inl s' => loop body fuel s'
    | .inr a => .ok a

/-- What the call comes to with enough fuel; a call that runs for ever comes to running. -/
def Settles (f : ℕ → Outcome E A) (x : Outcome E A) : Prop := ∃ bound, ∀ fuel ≥ bound, f fuel = x

namespace Settles

variable {f : ℕ → Outcome E A} {x y : Outcome E A}

lemma unique (h : Settles f x) (h' : Settles f y) : x = y := by
  obtain ⟨n,hn⟩ := h
  obtain ⟨m,hm⟩ := h'
  exact (hn (n + m) (Nat.le_add_right n m)).symm.trans (hm (n + m) (Nat.le_add_left m n))

lemma const (x : Outcome E A) : Settles (fun _ => x) x := ⟨0,fun _ _ => rfl⟩

lemma bind {g : ℕ → A → Outcome E B} {k : A → Outcome E B} (h : Settles f x)
    (hg : ∀ a,x = .ok a → Settles (fun fuel => g fuel a) (k a)) :
    Settles (fun fuel => f fuel >>= g fuel) (x >>= k) := by
  obtain ⟨n,hn⟩ := h
  cases x with
  | ok a =>
    obtain ⟨m,hm⟩ := hg a rfl
    refine ⟨n + m,fun fuel hf => ?_⟩
    dsimp only
    rw [hn fuel (by omega)]
    exact hm fuel (by omega)
  | error e => exact ⟨n,fun fuel hf => congrArg (· >>= g fuel) (hn fuel hf)⟩
  | outOfRange => exact ⟨n,fun fuel hf => congrArg (· >>= g fuel) (hn fuel hf)⟩
  | running => exact ⟨n,fun fuel hf => congrArg (· >>= g fuel) (hn fuel hf)⟩

end Settles

def Returns (f : ℕ → Outcome E A) : Prop := ∃ x, Settles f x ∧ x.Safe

lemma Settles.returns_iff {f : ℕ → Outcome E A} {x : Outcome E A} (h : Settles f x) :
    Returns f ↔ x.Safe := by
  constructor
  · rintro ⟨y,hy,hs⟩
    exact h.unique hy ▸ hs
  · exact fun hs => ⟨x,h,hs⟩

section loops

variable {body : S → Outcome E (S ⊕ A)} {s s' : S}

lemma settles_loop_of_next (hb : body s = .ok (.inl s')) {x : Outcome E A}
    (h : Settles (fun fuel => loop body fuel s') x) : Settles (fun fuel => loop body fuel s) x := by
  obtain ⟨n,hn⟩ := h
  refine ⟨n + 1,fun fuel hf => ?_⟩
  obtain ⟨fuel,rfl⟩ : ∃ k,fuel = k + 1 := ⟨fuel - 1,by omega⟩
  simp only [loop,hb,ok_bind]
  exact hn fuel (by omega)

lemma settles_loop_of_end {x : Outcome E A} (hb : body s = x >>= fun a => .ok (.inr a)) :
    Settles (fun fuel => loop body fuel s) x := by
  refine ⟨1,fun fuel hf => ?_⟩
  obtain ⟨fuel,rfl⟩ : ∃ k,fuel = k + 1 := ⟨fuel - 1,by omega⟩
  cases x <;> simp only [loop,hb,ok_bind,error_bind,outOfRange_bind,running_bind]

end loops

end SingBoxAuth.Outcomes
