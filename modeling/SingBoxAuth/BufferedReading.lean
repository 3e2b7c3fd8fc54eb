import SingBoxAuth.ByteReaders

/-! Readers that take their input from a connection read by read and keep what they have not used,
and parsers that ask for one byte after the other. -/
namespace SingBoxAuth.BufferedReading
open ByteReaders

variable {ε α : Type}

/-- What was read and not yet used, and what the further reads of the connection will yield. -/
structure BufReader where
  buffered : Bytes
  pending : List Bytes

namespace BufReader

def content (r : BufReader) : Bytes := r.buffered ++ r.pending.flatten

/-- The next byte; the connection is read only when nothing is left. -/
def readByteFrom : Bytes → List Bytes → Option (UInt8 × BufReader)
  | x :: rest, pending => some (x,⟨rest,pending⟩)
  | [], [] => none
  | [], chunk :: pending => readByteFrom chunk pending

def readByte (r : BufReader) : Option (UInt8 × BufReader) := readByteFrom r.buffered r.pending

def readFull : ℕ → BufReader → Option (Bytes × BufReader)
  | 0, r => some ([],r)
  | k + 1, r =>
    match r.readByte with
    | none => none
    | some (x,r) => (readFull k r).map fun p => (x :: p.1,p.2)

lemma readByteFrom_eq (buffered : Bytes) (pending : List Bytes) :
    (readByteFrom buffered pending).map (fun p => (p.1,p.2.content)) =
      match buffered ++ pending.flatten with
      | [] => none
      | x :: rest => some (x,rest) := by
  induction pending generalizing buffered with
  | nil =>
    cases buffered with
    | nil => rfl
    | cons x rest => rfl
  | cons chunk pending ih =>
    cases buffered with
    | nil => exact ih chunk
    | cons x rest => rfl

lemma readByte_of_nil {r : BufReader} (h : r.content = []) : r.readByte = none := by
  have heq := readByteFrom_eq r.buffered r.pending
  rw [← content,h] at heq
  exact Option.map_eq_none_iff.mp heq

lemma readByte_of_cons {r : BufReader} {x : UInt8} {rest : Bytes} (h : r.content = x :: rest) :
    ∃ r',r.readByte = some (x,r') ∧ r'.content = rest := by
  have heq := readByteFrom_eq r.buffered r.pending
  rw [← content,h] at heq
  obtain ⟨⟨y,r'⟩,hr,hp⟩ := Option.map_eq_some_iff.mp heq
  cases hp
  exact ⟨r',hr,rfl⟩

/-- The reader has got the first `k` of the reads; what is left in it is the end of the last one
of them, of which it has used something. -/
def Within (reads : List Bytes) (r : BufReader) : Prop :=
  ∃ k, r.pending = reads.drop k ∧
    (r.buffered ≠ [] → ∀ j < k, r.content.length < (reads.drop j).flatten.length)

lemma within_start (reads : List Bytes) : Within reads ⟨[],reads⟩ :=
  ⟨0,rfl,fun h => absurd rfl h⟩

lemma length_flatten_drop_le (reads : List Bytes) {j k : ℕ} (h : j ≤ k) :
    (reads.drop k).flatten.length ≤ (reads.drop j).flatten.length := by
  have hs : reads.drop k <:+ reads.drop j := by
    obtain ⟨d,rfl⟩ := Nat.exists_eq_add_of_le h
    rw [← List.drop_drop]
    exact List.drop_suffix ..
  obtain ⟨before,hb⟩ := hs
  rw [← hb,List.flatten_append,List.length_append]
  omega

lemma within_readByteFrom {reads : List Bytes} {buffered : Bytes} {pending : List Bytes}
    {x : UInt8} {r' : BufReader} (k : ℕ) (hp : pending = reads.drop k)
    (hb : ∀ j < k,(buffered ++ pending.flatten).length ≤ (reads.drop j).flatten.length)
    (h : readByteFrom buffered pending = some (x,r')) : Within reads r' := by
  induction pending generalizing buffered k with
  | nil =>
    cases buffered with
    | nil => cases h
    | cons y rest =>
      cases h
      refine ⟨k,hp,fun _ j hj => ?_⟩
      have hle := hb j hj
      simp only [List.cons_append,List.length_cons] at hle
      exact hle
  | cons chunk pending ih =>
    cases buffered with
    | nil =>
      have hd : pending = reads.drop (k + 1) := by
        rw [← List.drop_drop,← hp]
        rfl
      refine ih (k + 1) hd (fun j hj => ?_) h
      have hmo := length_flatten_drop_le reads (Nat.lt_succ_iff.mp hj)
      rw [← hp] at hmo
      exact hmo
    | cons y rest =>
      cases h
      refine ⟨k,hp,fun _ j hj => ?_⟩
      have hle := hb j hj
      simp only [List.cons_append,List.length_cons] at hle
      exact hle

lemma Within.readByte {reads : List Bytes} {r r' : BufReader} {x : UInt8} (h : Within reads r)
    (hr : r.readByte = some (x,r')) : Within reads r' := by
  obtain ⟨k,hp,hb⟩ := h
  refine within_readByteFrom k hp (fun j hj => ?_) hr
  by_cases he : r.buffered = []
  · rw [he,List.nil_append,hp]
    exact length_flatten_drop_le reads hj.le
  · exact (hb he j hj).le

lemma Within.buffered_eq_nil_iff {reads : List Bytes} {r : BufReader} (h : Within reads r) :
    r.buffered = [] ↔ ∃ k,(reads.drop k).flatten = r.content := by
  obtain ⟨k,hp,hb⟩ := h
  constructor
  · intro he
    exact ⟨k,by rw [content,he,List.nil_append,hp]⟩
  · rintro ⟨j,hj⟩
    by_contra hne
    have hl := congrArg List.length hj
    rcases Nat.lt_or_ge j k with hlt | hge
    · have hls := hb hne j hlt
      omega
    · have hle := length_flatten_drop_le reads hge
      have hpo := List.length_pos_iff.mpr hne
      rw [content,List.length_append,hp] at hl
      omega

section reads

variable {n : ℕ} {r r' : BufReader} {data : Bytes}

/-- One read: of what is left, or of the connection. -/
def readInto (n : ℕ) (r : BufReader) : Option (Bytes × BufReader) :=
  if n = 0 then some ([],r)
  else if r.buffered ≠ [] then some (r.buffered.take n,⟨r.buffered.drop n,r.pending⟩)
  else
    match r.pending with
    | [] => none
    | chunk :: pending => some (chunk.take n,⟨chunk.drop n,pending⟩)

/-- What the reads still have to yield: bytes, and reads of the connection. -/
def size (r : BufReader) : ℕ := r.content.length + r.pending.length

lemma readInto_some (h : readInto n r = some (data,r')) :
    data ++ r'.content = r.content ∧ data.length ≤ n ∧ size r' + min n 1 ≤ size r ∧
      r'.pending <:+ r.pending := by
  unfold readInto at h
  split_ifs at h with hn hb
  · cases h
    simp [hn]
  · cases h
    have hl := List.length_pos_iff.mpr hb
    simp [size,content,← List.append_assoc]
    omega
  · rw [not_not] at hb
    cases hp : r.pending with
    | nil => simp [hp] at h
    | cons chunk pending =>
      simp only [hp,Option.some.injEq,Prod.mk.injEq] at h
      obtain ⟨rfl,rfl⟩ := h
      simp [size,content,hp,hb,← List.append_assoc]
      omega

lemma readInto_none (h : readInto n r = none) : n ≠ 0 ∧ r.content = [] := by
  unfold readInto at h
  split_ifs at h with hn hb
  rw [not_not] at hb
  cases hp : r.pending with
  | nil => exact ⟨hn,by simp [content,hb,hp]⟩
  | cons chunk pending => simp [hp] at h

lemma pending_readByteFrom {buffered : Bytes} {pending : List Bytes} {x : UInt8}
    (h : readByteFrom buffered pending = some (x,r)) : r.pending <:+ pending := by
  induction pending generalizing buffered with
  | nil =>
    cases buffered with
    | nil => cases h
    | cons y rest =>
      cases h
      exact List.suffix_rfl
  | cons chunk pending ih =>
    cases buffered with
    | nil => exact (ih h).trans (List.suffix_cons ..)
    | cons y rest =>
      cases h
      exact List.suffix_rfl

lemma pending_readByte {x : UInt8} (h : r.readByte = some (x,r')) : r'.pending <:+ r.pending :=
  pending_readByteFrom h

lemma readFull_append {rest : Bytes} (h : r.content = data ++ rest) :
    ∃ r',r.readFull data.length = some (data,r') ∧ r'.content = rest ∧
      r'.pending <:+ r.pending := by
  induction data generalizing r with
  | nil => exact ⟨r,rfl,h,List.suffix_rfl⟩
  | cons x data ih =>
    obtain ⟨r₁,hr,hco⟩ := readByte_of_cons h
    obtain ⟨r₂,hf,hre,hs⟩ := ih hco
    refine ⟨r₂,?_,hre,hs.trans (pending_readByte hr)⟩
    simp only [List.length_cons,readFull,hr,hf,Option.map_some]

lemma readFull_none (h : r.content.length < n) : r.readFull n = none := by
  induction n generalizing r with
  | zero => omega
  | succ n ih =>
    cases hc : r.content with
    | nil =>
      rw [readFull,readByte_of_nil hc]
    | cons x rest =>
      obtain ⟨r',hr,rfl⟩ := readByte_of_cons hc
      rw [hc,List.length_cons] at h
      simp only [readFull,hr,ih (Nat.lt_of_succ_lt_succ h),Option.map_none]

end reads

end BufReader

/-- A parser that asks for its input byte by byte and knows when it has seen enough. -/
inductive Demand (ε α : Type)
  | done (a : α)
  | fail (err : ε)
  | byte (eof : ε) (next : UInt8 → Demand ε α)

namespace Demand

def parse : Demand ε α → Bytes → Except ε (α × Bytes)
  | .done a, input => .ok (a,input)
  | .fail err, _ => .error err
  | .byte eof _, [] => .error eof
  | .byte _ next, x :: rest => (next x).parse rest

def run : Demand ε α → BufReader → Except ε (α × BufReader)
  | .done a, r => .ok (a,r)
  | .fail err, _ => .error err
  | .byte eof next, r =>
    match r.readByte with
    | none => .error eof
    | some (x,r) => (next x).run r

/-- However the input is cut into reads, the parser finds the same and leaves the same. -/
theorem run_of_parse {p : Demand ε α} {r : BufReader} {reads : List Bytes} {a : α} {rest : Bytes}
    (hw : r.Within reads) (h : p.parse r.content = .ok (a,rest)) :
    ∃ r',p.run r = .ok (a,r') ∧ r'.content = rest ∧ r'.Within reads := by
  induction p generalizing r with
  | done b =>
    cases h
    exact ⟨r,rfl,rfl,hw⟩
  | fail err => cases h
  | byte eof next ih =>
    cases hco : r.content with
    | nil =>
      rw [hco] at h
      cases h
    | cons x input =>
      obtain ⟨r',hr,hre⟩ := BufReader.readByte_of_cons hco
      rw [hco,parse,← hre] at h
      rw [run,hr]
      exact ih x (hw.readByte hr) h

lemma run_eq_parse (p : Demand ε α) (r : BufReader) :
    (p.run r).map Prod.fst = (p.parse r.content).map Prod.fst := by
  induction p generalizing r with
  | done a => rfl
  | fail err => rfl
  | byte eof next ih =>
    cases hc : r.content with
    | nil =>
      rw [run,BufReader.readByte_of_nil hc]
      rfl
    | cons x input =>
      obtain ⟨r',hr,rfl⟩ := BufReader.readByte_of_cons hc
      rw [run,hr]
      exact ih x r'

/-- The error of the parser at the end of the input, wherever that is. -/
def Asks (err : ε) : Demand ε α → Prop
  | .done _ => True
  | .fail _ => True
  | .byte eof next => eof = err ∧ ∀ x, (next x).Asks err

lemma parse_beginning {p : Demand ε α} {err : ε} (hp : p.Asks err) {input more rest : Bytes} {a : α}
    (h : p.parse (input ++ more) = .ok (a,rest)) :
    (∃ rest',p.parse input = .ok (a,rest')) ∨ p.parse input = .error err := by
  induction p generalizing input with
  | done b =>
    cases h
    exact .inl ⟨input,rfl⟩
  | fail err => cases h
  | byte eof next ih =>
    cases input with
    | nil => exact .inr (congrArg _ hp.1)
    | cons x input => exact ih x (hp.2 x) h

end Demand

end SingBoxAuth.BufferedReading
