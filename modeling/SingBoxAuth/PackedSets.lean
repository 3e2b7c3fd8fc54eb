import Mathlib.Data.List.Basic
import Mathlib.Data.BitVec

/-! Sets of words packed into one wider word. A word of `m` bits belongs to the set when the bit
it numbers is set, so the whole set takes `2 ^ m` bits; loops run through all words in order.
The lemmas describe each operation by the words its result contains. -/
namespace SingBoxAuth

abbrev PackedSet (m : ℕ) := BitVec (2 ^ m)

namespace PackedSet

variable {m : ℕ}

/-- Every word of `m` bits, in the order a counting loop meets them. -/
def words (m : ℕ) : List (BitVec m) :=
  (List.range (2 ^ m)).map (BitVec.ofNat m)

def empty : PackedSet m :=
  0#(2 ^ m)

def single (x : BitVec m) : PackedSet m :=
  1#(2 ^ m) <<< x.toNat

def contains (s : PackedSet m) (x : BitVec m) : Bool :=
  s &&& single x != empty

def add (s : PackedSet m) (x : BitVec m) : PackedSet m :=
  s ||| single x

lemma mem_words (x : BitVec m) : x ∈ words m := by
  have hx : x.toNat ∈ List.range (2 ^ m) := List.mem_range.mpr x.isLt
  have hw : BitVec.ofNat m x.toNat = x := by simp
  exact List.mem_map.mpr ⟨x.toNat,hx,hw⟩

lemma getLsbD_single (x : BitVec m) (i : ℕ) : (single x).getLsbD i = decide (i = x.toNat) := by
  have hx := x.isLt
  have ho : single x = BitVec.twoPow (2 ^ m) x.toNat := (BitVec.twoPow_eq _ _).symm
  rw [ho,BitVec.getLsbD_twoPow]
  by_cases h : i = x.toNat
  · subst h
    simp [hx]
  · simp [h,Ne.symm h]

lemma contains_eq_getLsbD (s : PackedSet m) (x : BitVec m) : contains s x = s.getLsbD x.toNat := by
  rw [contains,Bool.eq_iff_iff,bne_iff_ne,ne_eq]
  constructor
  · intro h
    by_contra hb
    apply h
    apply BitVec.eq_of_getLsbD_eq
    intro i _
    rw [BitVec.getLsbD_and,getLsbD_single,empty]
    by_cases hi : i = x.toNat
    · subst hi
      simpa using hb
    · simp [hi]
  · intro hb h
    have hz := congrArg (fun t : PackedSet m => t.getLsbD x.toNat) h
    simp [getLsbD_single,hb,empty] at hz

@[simp]
lemma contains_empty (x : BitVec m) : contains empty x = false := by
  simp [contains_eq_getLsbD,empty]

@[simp]
lemma contains_single (x y : BitVec m) : contains (single x) y = decide (y = x) := by
  rw [contains_eq_getLsbD,getLsbD_single]
  simp [BitVec.toNat_inj]

@[simp]
lemma contains_or (s t : PackedSet m) (x : BitVec m) :
    contains (s ||| t) x = (contains s x || contains t x) := by
  simp [contains_eq_getLsbD]

@[simp]
lemma contains_add (s : PackedSet m) (x y : BitVec m) :
    contains (add s x) y = (contains s y || decide (y = x)) := by
  simp [add]

lemma ext_contains {s t : PackedSet m} (h : ∀ x,contains s x = contains t x) : s = t := by
  apply BitVec.eq_of_getLsbD_eq
  intro i hi
  have hx := h (BitVec.ofNat m i)
  rw [contains_eq_getLsbD,contains_eq_getLsbD,BitVec.toNat_ofNat,Nat.mod_eq_of_lt hi] at hx
  exact hx

lemma ext_contains_iff {s t : PackedSet m} (h : ∀ x,contains s x = true ↔ contains t x = true) :
    s = t :=
  ext_contains fun x => Bool.eq_iff_iff.mpr (h x)

lemma ne_empty_iff (s : PackedSet m) : s ≠ empty ↔ ∃ x,contains s x = true := by
  constructor
  · intro h
    by_contra hn
    apply h
    apply ext_contains
    intro x
    have hx : ¬ contains s x = true := fun hc => hn ⟨x,hc⟩
    simpa using hx
  · rintro ⟨x,hx⟩ rfl
    simp at hx

lemma contains_foldl {ι : Type} (body : PackedSet m → ι → PackedSet m) (adds : ι → BitVec m → Prop)
    (hb : ∀ acc i y,contains (body acc i) y = true ↔ contains acc y = true ∨ adds i y)
    (l : List ι) (acc : PackedSet m) (y : BitVec m) :
    contains (l.foldl body acc) y = true ↔ contains acc y = true ∨ ∃ i ∈ l,adds i y := by
  induction l generalizing acc with
  | nil => simp
  | cons i l ih =>
    rw [List.foldl_cons,ih,hb,or_assoc]
    simp

end PackedSet

end SingBoxAuth
