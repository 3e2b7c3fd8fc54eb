import Mathlib.Data.List.Basic
import Mathlib.Tactic.Positivity
import Mathlib.Tactic.Ring

/-! Readers of byte strings, and what it means that a reader reads back what was written. -/
namespace SingBoxAuth.ByteReaders

abbrev Bytes := List UInt8

variable {ε α β : Type}

def bigEndian : ℕ → ℕ → Bytes
  | 0, _ => []
  | k + 1, n => UInt8.ofNat (n / 256 ^ k) :: bigEndian k (n % 256 ^ k)

def ofBigEndian (acc : ℕ) (b : Bytes) : ℕ := b.foldl (fun acc x => acc * 256 + x.toNat) acc

lemma length_bigEndian (k n : ℕ) : (bigEndian k n).length = k := by
  induction k generalizing n with
  | zero => rfl
  | succ k ih => simp [bigEndian,ih]

lemma ofBigEndian_bigEndian (k n acc : ℕ) (h : n < 256 ^ k) :
    ofBigEndian acc (bigEndian k n) = acc * 256 ^ k + n := by
  induction k generalizing n acc with
  | zero =>
    obtain rfl : n = 0 := by simpa using h
    simp [bigEndian,ofBigEndian]
  | succ k ih =>
    have hp : 0 < 256 ^ k := by positivity
    have hd : n / 256 ^ k < 256 := by
      rw [Nat.div_lt_iff_lt_mul hp]
      rw [pow_succ] at h
      omega
    have hb : (UInt8.ofNat (n / 256 ^ k)).toNat = n / 256 ^ k := by simpa using Nat.mod_eq_of_lt hd
    have hr := ih (n % 256 ^ k) (acc * 256 + n / 256 ^ k) (Nat.mod_lt _ hp)
    calc ofBigEndian acc (bigEndian (k + 1) n)
        = ofBigEndian (acc * 256 + (UInt8.ofNat (n / 256 ^ k)).toNat)
            (bigEndian k (n % 256 ^ k)) := rfl
      _ = (acc * 256 + n / 256 ^ k) * 256 ^ k + n % 256 ^ k := by rw [hb,hr]
      _ = acc * 256 ^ (k + 1) + (256 ^ k * (n / 256 ^ k) + n % 256 ^ k) := by ring
      _ = acc * 256 ^ (k + 1) + n := by rw [Nat.div_add_mod]

end SingBoxAuth.ByteReaders
