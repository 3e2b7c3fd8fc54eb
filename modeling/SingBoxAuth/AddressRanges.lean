import Mathlib.Data.Nat.Bitwise
import Mathlib.Tactic.Ring

/-! Internet addresses of both families, their successors, and prefixes with or without host
bits. -/
namespace SingBoxAuth.AddressRanges

inductive Family
  | inet4
  | inet6
  deriving DecidableEq, Repr

def Family.bits : Family → ℕ
  | .inet4 => 32
  | .inet6 => 128

@[ext]
structure IP where
  family : Family
  value : ℕ
  fits : value < 2 ^ family.bits
  deriving DecidableEq

lemma ten_fits : 167772160 < 2 ^ Family.inet4.bits := by decide

abbrev Addr := Option IP

def IP.next (ip : IP) : Addr :=
  if h : ip.value + 1 < 2 ^ ip.family.bits then some ⟨ip.family,ip.value + 1,h⟩ else none

def nextAddr (address : Addr) : Addr := address.bind IP.next

/-- A valid prefix. Its address need not be the first one of the range. -/
structure Prefix where
  addr : IP
  bits : ℕ
  fits : bits ≤ addr.family.bits
  deriving DecidableEq

namespace Prefix

variable (p : Prefix)

def hostBits : ℕ := p.addr.family.bits - p.bits

def size : ℕ := 2 ^ p.hostBits

def network : ℕ := p.addr.value / p.size * p.size

def host : ℕ := p.addr.value % p.size

def last : ℕ := p.network + (p.size - 1)

def contains (ip : IP) : Bool :=
  ip.family = p.addr.family && (ip.value ^^^ p.addr.value) >>> p.hostBits == 0

lemma size_pos : 0 < p.size := Nat.two_pow_pos _

lemma network_add_host : p.network + p.host = p.addr.value := by
  rw [network,host,Nat.mul_comm]
  exact Nat.div_add_mod _ _

lemma contains_iff (ip : IP) : p.contains ip = true ↔
    ip.family = p.addr.family ∧ p.network ≤ ip.value ∧ ip.value ≤ p.last := by
  have hs := p.size_pos
  have hsa : (ip.value ^^^ p.addr.value) >>> p.hostBits = 0 ↔
      ip.value / p.size = p.addr.value / p.size := by
    rw [Nat.shiftRight_xor_distrib,Nat.xor_eq_zero_iff,Nat.shiftRight_eq_div_pow,
      Nat.shiftRight_eq_div_pow]
    rfl
  have hr : ip.value / p.size = p.addr.value / p.size ↔
      p.network ≤ ip.value ∧ ip.value ≤ p.last := by
    rw [Nat.div_eq_iff hs]
    unfold last network
    omega
  simp only [contains,Bool.and_eq_true,decide_eq_true_eq,beq_iff_eq,hsa,hr]

lemma last_lt : p.last < 2 ^ p.addr.family.bits := by
  have hs := p.size_pos
  have hp : 2 ^ p.addr.family.bits = 2 ^ p.bits * p.size := by
    rw [size,← pow_add,hostBits]
    congr 1
    have := p.fits
    omega
  have hlt : p.addr.value / p.size < 2 ^ p.bits := by
    rw [Nat.div_lt_iff_lt_mul hs,← hp]
    exact p.addr.fits
  have hle : (p.addr.value / p.size + 1) * p.size ≤ 2 ^ p.bits * p.size :=
    Nat.mul_le_mul_right _ hlt
  rw [Nat.succ_mul,← hp] at hle
  unfold last network
  omega

end Prefix

lemma IP.next_eq_some {ip next : IP} (h : ip.next = some next) :
    next.family = ip.family ∧ next.value = ip.value + 1 := by
  unfold IP.next at h
  split_ifs at h
  cases h
  exact ⟨rfl,rfl⟩

lemma IP.next_of_lt {ip : IP} (h : ip.value + 1 < 2 ^ ip.family.bits) :
    ip.next = some ⟨ip.family,ip.value + 1,h⟩ := dif_pos h

/-- Setting the lowest bits one after the other, from the highest of them on. -/
def setLowBits : ℕ → ℕ → ℕ
  | raw, 0 => raw
  | raw, n + 1 => setLowBits (raw ||| 2 ^ n) n

lemma setLowBits_eq_or (raw n : ℕ) : setLowBits raw n = raw ||| (2 ^ n - 1) := by
  induction n generalizing raw with
  | zero => simp [setLowBits]
  | succ n ih =>
    have hp := Nat.two_pow_pos n
    have ha : 2 ^ (n + 1) - 1 = 2 ^ n ||| (2 ^ n - 1) := by
      have hor := Nat.two_pow_add_eq_or_of_lt (by omega : 2 ^ n - 1 < 2 ^ n) 1
      rw [Nat.mul_one] at hor
      rw [← hor,pow_succ]
      omega
    rw [setLowBits,ih,ha,Nat.lor_assoc]

lemma setLowBits_eq (raw n : ℕ) : setLowBits raw n = raw / 2 ^ n * 2 ^ n + (2 ^ n - 1) := by
  have hp := Nat.two_pow_pos n
  have hd : setLowBits raw n / 2 ^ n = raw / 2 ^ n := by
    rw [setLowBits_eq_or,Nat.or_div_two_pow,Nat.div_eq_of_lt (by omega : 2 ^ n - 1 < 2 ^ n),
      Nat.or_zero]
  have hmo : setLowBits raw n % 2 ^ n = 2 ^ n - 1 := by
    rw [setLowBits_eq_or,Nat.or_mod_two_pow,Nat.mod_eq_of_lt (by omega : 2 ^ n - 1 < 2 ^ n)]
    have hle := Nat.right_le_or (n := raw % 2 ^ n) (m := 2 ^ n - 1)
    have hlt := Nat.or_lt_two_pow (Nat.mod_lt raw hp) (by omega : 2 ^ n - 1 < 2 ^ n)
    omega
  have := Nat.div_add_mod (setLowBits raw n) (2 ^ n)
  rw [hd,hmo,Nat.mul_comm] at this
  exact this.symm

end SingBoxAuth.AddressRanges
