import Mathlib.Data.List.Basic
import Mathlib.Data.List.Range
import Mathlib.Logic.Function.Basic

/-! Slices as views of the beginning of shared arrays: an append goes into the array while there is
room and copies otherwise, a deletion moves what is behind it to the front in place. -/
namespace SingBoxAuth.SliceViews

variable {A : Type}

/-- The arrays made so far, with their capacities; a cell may be empty. -/
structure Heap (A : Type) where
  cells : ℕ → ℕ → Option A
  capacity : ℕ → ℕ
  next : ℕ

structure Slice where
  array : ℕ
  length : ℕ
  deriving DecidableEq

/-- One array without room, for the slice that is nil. -/
def Heap.empty : Heap A := ⟨fun _ _ => none,fun _ => 0,1⟩

def Slice.nil : Slice := ⟨0,0⟩

namespace Heap

def view (h : Heap A) (s : Slice) : List (Option A) := (List.range s.length).map (h.cells s.array)

def put (h : Heap A) (array i : ℕ) (a : A) : Heap A :=
  { h with cells := Function.update h.cells array (Function.update (h.cells array) i (some a)) }

/-- A new array that begins with the slice, and has room for one more and some to spare. -/
def grow (h : Heap A) (s : Slice) (spare : ℕ) : Heap A :=
  ⟨Function.update h.cells h.next fun i => if i < s.length then h.cells s.array i else none,
    Function.update h.capacity h.next (s.length + 1 + spare),h.next + 1⟩

def append (h : Heap A) (s : Slice) (spare : ℕ) (a : A) : Heap A × Slice :=
  if s.length < h.capacity s.array then
    (h.put s.array s.length a,⟨s.array,s.length + 1⟩)
  else ((h.grow s spare).put h.next s.length a,⟨h.next,s.length + 1⟩)

/-- The slice without the element at an index, by append of the rest to the beginning. -/
def delete (h : Heap A) (s : Slice) (i : ℕ) : Heap A × Slice :=
  let moved (j : ℕ) : Option A :=
    if i ≤ j ∧ j + 1 < s.length then h.cells s.array (j + 1) else h.cells s.array j
  ({ h with cells := Function.update h.cells s.array moved },⟨s.array,s.length - 1⟩)

/-- The array is one of those made, and the slice is not longer than it. -/
def Holds (h : Heap A) (s : Slice) : Prop := s.array < h.next ∧ s.length ≤ h.capacity s.array

variable {h : Heap A} {s t : Slice} {i : ℕ}

lemma view_congr {h' : Heap A} (hc : ∀ j < t.length,h'.cells t.array j = h.cells t.array j) :
    h'.view t = h.view t := by
  refine List.map_congr_left ?_
  intro j hj
  exact hc j (List.mem_range.mp hj)

lemma append_holds (hs : h.Holds s) (spare : ℕ) (a : A) :
    (h.append s spare a).1.Holds (h.append s spare a).2 := by
  rw [append]
  split_ifs with hr
  · exact ⟨hs.1,hr⟩
  · exact ⟨Nat.lt_succ_self _,by simp [put,grow]⟩

lemma view_append (spare : ℕ) (a : A) :
    (h.append s spare a).1.view (h.append s spare a).2 = h.view s ++ [some a] := by
  have hcells : ∀ j < s.length,(h.append s spare a).1.cells (h.append s spare a).2.array j =
      h.cells s.array j := by
    intro j hj
    rw [append]
    split_ifs with hr
    · simp [put,hj.ne]
    · simp [put,grow,hj.ne,hj]
  have hlast : (h.append s spare a).1.cells (h.append s spare a).2.array s.length = some a := by
    rw [append]
    split_ifs
    · simp [put]
    · simp [put]
  have hlength : (h.append s spare a).2.length = s.length + 1 := by
    rw [append]
    split_ifs
    · rfl
    · rfl
  rw [view,hlength,List.range_succ,List.map_append,List.map_singleton,hlast]
  congr 1
  refine List.map_congr_left ?_
  intro j hj
  exact hcells j (List.mem_range.mp hj)

lemma append_frame (ht : t.array < h.next) (hle : t.array = s.array → t.length ≤ s.length)
    (spare : ℕ) (a : A) : (h.append s spare a).1.view t = h.view t := by
  refine view_congr fun j hj => ?_
  rw [append]
  split_ifs with hr
  · by_cases he : t.array = s.array
    · have hne : j ≠ s.length := by
        have := hle he
        omega
      simp [put,he,hne]
    · simp [put,he]
  · simp [put,grow,ht.ne]

lemma delete_holds (hs : h.Holds s) : (h.delete s i).1.Holds (h.delete s i).2 :=
  ⟨hs.1,Nat.le_trans (Nat.sub_le _ _) hs.2⟩

lemma view_delete (hi : i < s.length) :
    (h.delete s i).1.view (h.delete s i).2 = (h.view s).eraseIdx i := by
  refine List.ext_getElem ?_ fun j hj hj' => ?_
  · simp [view,delete,List.length_eraseIdx,hi]
  · have hlt : j < s.length - 1 := by simpa [view,delete] using hj
    simp only [view,delete,List.getElem_map,List.getElem_range,Function.update_self,
      List.getElem_eraseIdx]
    split_ifs with h1 h2 h2
    · omega
    · rfl
    · rfl
    · omega

lemma delete_frame (hle : t.array = s.array → t.length ≤ i) :
    (h.delete s i).1.view t = h.view t := by
  refine view_congr fun j hj => ?_
  by_cases he : t.array = s.array
  · have hji : ¬ i ≤ j := by
      have := hle he
      omega
    simp [delete,he,hji]
  · simp [delete,he]

end Heap
end SingBoxAuth.SliceViews
