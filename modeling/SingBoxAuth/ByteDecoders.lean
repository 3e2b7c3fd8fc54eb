import SingBoxAuth.BufferedReading
import SingBoxAuth.Outcomes

/-! Decoders that ask for one byte after the other and for memory of a length that they have read:
on a byte string, on the reads of a connection, and the lengths that they come to. -/
namespace SingBoxAuth.ByteDecoders
open ByteReaders BufferedReading Outcomes

variable {ε α β : Type}

/-- The conversion of a uint64 to an int of 64 bits. -/
def toInt (n : ℕ) : ℤ := if n < 2 ^ 63 then n else n - 2 ^ 64

inductive Fault (ε : Type)
  | eof
  | overflow
  | other (err : ε)
  deriving DecidableEq

inductive Decoder (ε α : Type)
  | done (a : α)
  | fail (err : Fault ε)
  | byte (next : UInt8 → Decoder ε α)
  | make (size : ℕ) (next : Decoder ε α)
  | running

namespace Decoder

def bind : Decoder ε α → (α → Decoder ε β) → Decoder ε β
  | .done a, f => f a
  | .fail err, _ => .fail err
  | .byte next, f => .byte fun x => (next x).bind f
  | .make size next, f => .make size (next.bind f)
  | .running, _ => .running

instance : Monad (Decoder ε) where
  pure := .done
  bind := Decoder.bind

/-- The outcome on a byte string, and what is left of it. Memory over the limit is a panic. -/
def parse (limit : ℕ) : Decoder ε α → Bytes → Outcome (Fault ε) α × Bytes
  | .done a, input => (.ok a,input)
  | .fail err, input => (.error err,input)
  | .byte _, [] => (.error .eof,[])
  | .byte next, x :: rest => (next x).parse limit rest
  | .make size next, input =>
    if size ≤ limit then next.parse limit input else (.outOfRange,input)
  | .running, input => (.running,input)

def run (limit : ℕ) : Decoder ε α → BufReader → Outcome (Fault ε) α × BufReader
  | .done a, r => (.ok a,r)
  | .fail err, r => (.error err,r)
  | .byte next, r =>
    match r.readByte with
    | none => (.error .eof,r)
    | some (x,r) => (next x).run limit r
  | .make size next, r => if size ≤ limit then next.run limit r else (.outOfRange,r)
  | .running, r => (.running,r)

/-- The lengths for which a decoder without a limit asks for memory. -/
def declared : Decoder ε α → Bytes → List ℕ
  | .done _, _ => []
  | .fail _, _ => []
  | .byte _, [] => []
  | .byte next, x :: rest => (next x).declared rest
  | .make size next, input => size :: next.declared input
  | .running, _ => []

/-- The decoder does not run out of fuel on so many bytes. -/
def Ends : Decoder ε α → ℕ → Prop
  | .done _, _ => True
  | .fail _, _ => True
  | .byte _, 0 => True
  | .byte next, n + 1 => ∀ x, (next x).Ends n
  | .make _ next, n => next.Ends n
  | .running, _ => False

/-- The decoder asks for bytes only. -/
def Plain : Decoder ε α → Prop
  | .done _ => True
  | .fail _ => True
  | .byte next => ∀ x, (next x).Plain
  | .make _ _ => False
  | .running => False

def readByte : Decoder ε UInt8 := .byte .done

def count (d : Decoder ε α) : ℕ → Decoder ε (List α)
  | 0 => .done []
  | n + 1 => do
    let a ← d
    let rest ← count d n
    .done (a :: rest)

def bytes (n : ℕ) : Decoder ε Bytes := count readByte n

def uvarintFrom : ℕ → ℕ → ℕ → Decoder ε ℕ
  | 0, _, _ => .fail .overflow
  | left + 1, shift, x => .byte fun b =>
    if b.toNat < 128 then
      if left = 0 ∧ 1 < b.toNat then .fail .overflow else .done (x + b.toNat * 2 ^ shift)
    else uvarintFrom left (shift + 7) (x + (b.toNat - 128) * 2 ^ shift)

def uvarint : Decoder ε ℕ := uvarintFrom 10 0 0

def putUvarintFrom : ℕ → ℕ → Bytes
  | 0, n => [UInt8.ofNat n]
  | k + 1, n =>
    if n < 128 then [UInt8.ofNat n] else UInt8.ofNat (n % 128 + 128) :: putUvarintFrom k (n / 128)

def putUvarint (n : ℕ) : Bytes := putUvarintFrom 9 n

lemma length_putUvarintFrom_le (k n : ℕ) : (putUvarintFrom k n).length ≤ k + 1 := by
  induction k generalizing n with
  | zero => exact Nat.le_refl _
  | succ k ih =>
    rw [putUvarintFrom]
    split
    · exact Nat.le_add_left 1 _
    · exact Nat.succ_le_succ (ih _)

section parse

variable {limit : ℕ} {d : Decoder ε α} {f : α → Decoder ε β} {input rest : Bytes} {a : α}

lemma parse_bind (d : Decoder ε α) (f : α → Decoder ε β) (input : Bytes) :
    (d >>= f).parse limit input =
      match d.parse limit input with
      | (.ok a,rest) => (f a).parse limit rest
      | (.error err,rest) => (.error err,rest)
      | (.outOfRange,rest) => (.outOfRange,rest)
      | (.running,rest) => (.running,rest) := by
  change (d.bind f).parse limit input = _
  induction d generalizing input with
  | done a => rfl
  | fail err => rfl
  | byte next ih =>
    cases input with
    | nil => rfl
    | cons x rest => exact ih x rest
  | make size next ih =>
    simp only [Decoder.bind,parse]
    split
    · exact ih input
    · rfl
  | running => rfl

lemma parse_bind_of_ok (h : d.parse limit input = (.ok a,rest)) :
    (d >>= f).parse limit input = (f a).parse limit rest := by
  rw [parse_bind,h]

lemma parse_count {encode : α → Bytes} {xs : List α}
    (h : ∀ x ∈ xs,∀ rest,d.parse limit (encode x ++ rest) = (.ok x,rest)) (rest : Bytes) :
    (count d xs.length).parse limit (xs.flatMap encode ++ rest) = (.ok xs,rest) := by
  induction xs with
  | nil => rfl
  | cons x xs ih =>
    rw [List.forall_mem_cons] at h
    rw [List.length_cons,count,List.flatMap_cons,List.append_assoc,parse_bind_of_ok (h.1 _),
      parse_bind_of_ok (ih h.2)]
    rfl

lemma parse_bytes (data rest : Bytes) :
    (bytes data.length : Decoder ε Bytes).parse limit (data ++ rest) = (.ok data,rest) := by
  have hc : (count readByte data.length : Decoder ε Bytes).parse limit
      (data.flatMap (fun x => [x]) ++ rest) = (.ok data,rest) := parse_count (fun _ _ _ => rfl) rest
  rwa [List.flatMap_singleton' data] at hc

lemma parse_uvarintFrom (k shift x n : ℕ) (h : n < 2 ^ (7 * k + 1)) (rest : Bytes) :
    (uvarintFrom (k + 1) shift x : Decoder ε ℕ).parse limit (putUvarintFrom k n ++ rest) =
      (.ok (x + n * 2 ^ shift),rest) := by
  induction k generalizing shift x n with
  | zero =>
    have hb : (UInt8.ofNat n).toNat = n := by
      rw [UInt8.toNat_ofNat']
      omega
    simp only [uvarintFrom,putUvarintFrom,List.cons_append,parse,hb]
    rw [if_pos (by omega),if_neg (by omega)]
    rfl
  | succ k ih =>
    by_cases hn : n < 128
    · have hb : (UInt8.ofNat n).toNat = n := by
        rw [UInt8.toNat_ofNat']
        omega
      rw [putUvarintFrom,if_pos hn]
      simp only [uvarintFrom,List.cons_append,parse,hb]
      rw [if_pos hn,if_neg (by omega)]
      rfl
    · have hb : (UInt8.ofNat (n % 128 + 128)).toNat = n % 128 + 128 := by
        rw [UInt8.toNat_ofNat']
        omega
      have hd : n / 128 < 2 ^ (7 * k + 1) := by
        rw [Nat.div_lt_iff_lt_mul (by decide)]
        calc n < 2 ^ (7 * (k + 1) + 1) := h
          _ = 2 ^ (7 * k + 1) * 128 := by ring
      have hs : x + (n % 128) * 2 ^ shift + n / 128 * 2 ^ (shift + 7) = x + n * 2 ^ shift := by
        calc x + (n % 128) * 2 ^ shift + n / 128 * 2 ^ (shift + 7)
            = x + (128 * (n / 128) + n % 128) * 2 ^ shift := by ring
          _ = x + n * 2 ^ shift := by rw [Nat.div_add_mod]
      rw [putUvarintFrom,if_neg hn,uvarintFrom,List.cons_append,parse,hb,if_neg (by omega),
        Nat.add_sub_cancel,ih _ _ _ hd,hs]

lemma parse_uvarint {n : ℕ} (h : n < 2 ^ 64) (rest : Bytes) :
    (uvarint : Decoder ε ℕ).parse limit (putUvarint n ++ rest) = (.ok n,rest) := by
  rw [uvarint,putUvarint,parse_uvarintFrom 9 0 0 n h rest]
  simp

lemma uvarintFrom_lt {left shift x v : ℕ} (hx : x < 2 ^ shift) (hs : shift + 7 * left = 70)
    (h : (uvarintFrom left shift x : Decoder ε ℕ).parse limit input = (.ok v,rest)) :
    v < 2 ^ 64 := by
  induction left generalizing shift x input with
  | zero => cases h
  | succ left ih =>
    cases input with
    | nil => cases h
    | cons b input =>
      have hb := UInt8.toNat_lt b
      simp only [uvarintFrom,parse] at h
      split_ifs at h with h1 h2
      · cases h
      · cases h
        by_cases hl : left = 0
        · have hp : shift = 63 := by omega
          subst hp
          omega
        · calc x + b.toNat * 2 ^ shift < 2 ^ shift + 127 * 2 ^ shift :=
                Nat.add_lt_add_of_lt_of_le hx (Nat.mul_le_mul_right _ (by omega))
            _ = 2 ^ (shift + 7) := by ring
            _ ≤ 2 ^ 64 := Nat.pow_le_pow_right (by decide) (by omega)
      · refine ih ?_ (by omega) h
        calc x + (b.toNat - 128) * 2 ^ shift < 2 ^ shift + 127 * 2 ^ shift :=
              Nat.add_lt_add_of_lt_of_le hx (Nat.mul_le_mul_right _ (by omega))
          _ = 2 ^ (shift + 7) := by ring

lemma uvarint_lt {v : ℕ} (h : (uvarint : Decoder ε ℕ).parse limit input = (.ok v,rest)) :
    v < 2 ^ 64 :=
  uvarintFrom_lt Nat.one_pos rfl h

lemma length_parse_le (limit : ℕ) (d : Decoder ε α) (input : Bytes) :
    (d.parse limit input).2.length ≤ input.length := by
  induction d generalizing input with
  | done a => exact Nat.le_refl _
  | fail err => exact Nat.le_refl _
  | byte next ih =>
    cases input with
    | nil => exact Nat.le_refl _
    | cons x rest => exact (ih x rest).trans (Nat.le_succ _)
  | make size next ih =>
    rw [parse]
    split
    · exact ih input
    · exact Nat.le_refl _
  | running => exact Nat.le_refl _

end parse

/-- However the input is cut into reads, the decoder comes to the same and leaves the same. -/
theorem run_eq_parse (limit : ℕ) (d : Decoder ε α) (r : BufReader) :
    (d.run limit r).1 = (d.parse limit r.content).1 ∧
      (d.run limit r).2.content = (d.parse limit r.content).2 := by
  induction d generalizing r with
  | done a => exact ⟨rfl,rfl⟩
  | fail err => exact ⟨rfl,rfl⟩
  | byte next ih =>
    cases hc : r.content with
    | nil =>
      rw [run,BufReader.readByte_of_nil hc]
      exact ⟨rfl,hc⟩
    | cons x input =>
      obtain ⟨r',hr,rfl⟩ := BufReader.readByte_of_cons hc
      rw [run,hr]
      exact ih x r'
  | make size next ih =>
    rw [run,parse]
    split
    · exact ih r
    · exact ⟨rfl,rfl⟩
  | running => exact ⟨rfl,rfl⟩

lemma run_of_parse {limit : ℕ} {d : Decoder ε α} {r : BufReader} {a : α} {rest : Bytes}
    (h : d.parse limit r.content = (.ok a,rest)) :
    ∃ r',d.run limit r = (.ok a,r') ∧ r'.content = rest := by
  have hr := run_eq_parse limit d r
  rw [h] at hr
  exact ⟨_,Prod.ext hr.1 rfl,hr.2⟩

lemma length_pending_run (limit : ℕ) (d : Decoder ε α) (r : BufReader) :
    (d.run limit r).2.pending.length ≤ r.pending.length := by
  induction d generalizing r with
  | done a => exact Nat.le_refl _
  | fail err => exact Nat.le_refl _
  | byte next ih =>
    cases hr : r.readByte with
    | none => simp [run,hr]
    | some p =>
      rw [run,hr]
      exact (ih p.1 p.2).trans (BufReader.pending_readByte hr).length_le
  | make size next ih =>
    rw [run]
    split
    · exact ih r
    · exact Nat.le_refl _
  | running => exact Nat.le_refl _

section ends

variable {d : Decoder ε α} {f : α → Decoder ε β} {n m : ℕ}

lemma Ends.mono (h : d.Ends n) (hm : m ≤ n) : d.Ends m := by
  induction d generalizing n m with
  | done a => trivial
  | fail err => trivial
  | byte next ih =>
    cases m with
    | zero => trivial
    | succ m =>
      obtain ⟨n,rfl⟩ : ∃ k,n = k + 1 := ⟨n - 1,by omega⟩
      exact fun x => ih x (h x) (by omega)
  | make size next ih =>
    rw [Ends] at h ⊢
    exact ih h hm
  | running =>
    rw [Ends] at h
    exact h.elim

lemma Ends.bind (h : d.Ends n) (hf : ∀ a,(f a).Ends n) : (d >>= f).Ends n := by
  change (d.bind f).Ends n
  induction d generalizing n with
  | done a => exact hf a
  | fail err => trivial
  | byte next ih =>
    cases n with
    | zero => trivial
    | succ n => exact fun x => ih x (h x) fun a => (hf a).mono (Nat.le_succ n)
  | make size next ih =>
    rw [Ends] at h
    rw [Decoder.bind,Ends]
    exact ih h hf
  | running =>
    rw [Ends] at h
    exact h.elim

lemma ends_count (h : d.Ends n) (k : ℕ) : (count d k).Ends n := by
  induction k with
  | zero => trivial
  | succ k ih => exact h.bind fun _ => ih.bind fun _ => trivial

/-- A decoder that does not run out of fuel returns exactly if all lengths it comes to are allowed. -/
theorem safe_iff {limit : ℕ} {input : Bytes} (h : d.Ends input.length) :
    (d.parse limit input).1.Safe ↔ ∀ n ∈ d.declared input,n ≤ limit := by
  induction d generalizing input with
  | done a => simp [parse,declared,Outcome.Safe]
  | fail err => simp [parse,declared,Outcome.Safe]
  | byte next ih =>
    cases input with
    | nil => simp [parse,declared,Outcome.Safe]
    | cons x rest => exact ih x (h x)
  | make size next ih =>
    rw [Ends] at h
    rw [declared,List.forall_mem_cons,← ih h,parse]
    split
    · simp_all
    · simp_all [Outcome.Safe]
  | running =>
    rw [Ends] at h
    exact h.elim

lemma Plain.bind (h : d.Plain) (hf : ∀ a,(f a).Plain) : (d >>= f).Plain := by
  change (d.bind f).Plain
  induction d with
  | done a => exact hf a
  | fail err => trivial
  | byte next ih => exact fun x => ih x (h x)
  | make size next ih => exact h.elim
  | running => exact h.elim

lemma plain_count (h : d.Plain) (k : ℕ) : (count d k).Plain := by
  induction k with
  | zero => trivial
  | succ k ih => exact h.bind fun _ => ih.bind fun _ => trivial

lemma plain_bytes (k : ℕ) : (bytes k : Decoder ε Bytes).Plain :=
  plain_count (d := readByte) (fun _ => trivial) k

lemma plain_uvarintFrom (left shift x : ℕ) : (uvarintFrom left shift x : Decoder ε ℕ).Plain := by
  induction left generalizing shift x with
  | zero => trivial
  | succ left ih =>
    intro b
    dsimp only
    split
    · split <;> trivial
    · exact ih _ _

lemma Plain.ends (h : d.Plain) (n : ℕ) : d.Ends n := by
  induction d generalizing n with
  | done a => trivial
  | fail err => trivial
  | byte next ih =>
    cases n with
    | zero => trivial
    | succ n => exact fun x => ih x (h x) n
  | make size next ih => exact h.elim
  | running => exact h.elim

lemma Plain.safe (h : d.Plain) (limit : ℕ) (input : Bytes) : (d.parse limit input).1.Safe := by
  induction d generalizing input with
  | done a => trivial
  | fail err => trivial
  | byte next ih =>
    cases input with
    | nil => trivial
    | cons x rest => exact ih x (h x) rest
  | make size next ih => exact h.elim
  | running => exact h.elim

end ends

end Decoder

end SingBoxAuth.ByteDecoders
