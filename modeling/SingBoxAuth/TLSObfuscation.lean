import SingBoxAuth.BufferedReading

/-! The reader of obfuscated streams: a preamble and records, of which the reads return the payload
in parts. -/
namespace SingBoxAuth.TLSObfuscation
open ByteReaders BufferedReading BufReader

/-- The bytes that a read returns, and whether it returns an error with them. -/
structure Reply where
  data : Bytes
  failed : Bool
  deriving DecidableEq

structure TLSObfs where
  conn : BufReader
  remain : ℕ
  firstResponse : Bool

def newTLSObfs (reads : List Bytes) : TLSObfs := ⟨⟨[],reads⟩,0,true⟩

/-- io.ReadFull, which also returns what it got before an error. -/
def readFullReply (n : ℕ) (r : BufReader) : Reply × BufReader :=
  match r.readFull n with
  | some (data,r) => (⟨data,false⟩,r)
  | none => (⟨r.content,true⟩,⟨[],[]⟩)

namespace TLSObfs

def readBody (c : TLSObfs) (b length : ℕ) : Reply × TLSObfs :=
  if b < length then
    match readInto b c.conn with
    | none => (⟨[],true⟩,c)
    | some (data,conn) => (⟨data,false⟩,{ c with conn := conn, remain := length - data.length })
  else
    let body := readFullReply length c.conn
    (body.1,{ c with conn := body.2 })

def readRecord (c : TLSObfs) (b discardN : ℕ) : Reply × TLSObfs :=
  let head := readFullReply discardN c.conn
  if head.1.failed then (⟨[],true⟩,{ c with conn := head.2 })
  else
    let sizeBuf := readFullReply 2 head.2
    -- the error is dropped here
    if sizeBuf.1.failed then (⟨[],false⟩,{ c with conn := sizeBuf.2 })
    else { c with conn := sizeBuf.2 }.readBody b (ofBigEndian 0 sizeBuf.1.data)

def read (c : TLSObfs) (b : ℕ) : Reply × TLSObfs :=
  if 0 < c.remain then
    let body := readFullReply (min c.remain b) c.conn
    (body.1,{ c with conn := body.2, remain := c.remain - body.1.data.length })
  else if c.firstResponse then { c with firstResponse := false }.readRecord b 105
  else c.readRecord b 3

def replies : List ℕ → TLSObfs → List Reply
  | [], _ => []
  | b :: sizes, c =>
    (c.read b).1 :: if (c.read b).1.failed then [] else replies sizes (c.read b).2

end TLSObfs

/-- A record with what comes before its length: the preamble, or the type and version. -/
structure Record where
  header : Bytes
  payload : Bytes

namespace Record

def bytes (r : Record) : Bytes := r.header ++ bigEndian 2 r.payload.length ++ r.payload

end Record

def skip (first : Bool) : ℕ := if first then 105 else 3

/-- The first record stands behind the preamble, the others behind type and version. -/
def WellFormed : Bool → List Record → Prop
  | _, [] => True
  | first, r :: rs => r.header.length = skip first ∧ r.payload.length < 65536 ∧ WellFormed false rs

def stream (rs : List Record) : Bytes := rs.flatMap Record.bytes

def payloads (rs : List Record) : Bytes := rs.flatMap Record.payload

/-- The stream is not cut off right before or inside a length, and no record whose length is there
is empty. -/
def CutWell : ℕ → List Record → Prop
  | _, [] => True
  | k, r :: rs => k < r.header.length ∨ r.header.length + 2 ≤ k ∧ r.payload ≠ [] ∧
    CutWell (k - r.bytes.length) rs

/-- The reads return the payload of a stream that ends after so many bytes, then an error, and
never nothing without one. -/
def Decodes (rs : List Record) (k : ℕ) : Prop :=
  ∀ reads : List Bytes, reads.flatten = (stream rs).take k → (∀ chunk ∈ reads, chunk ≠ []) →
    ∀ sizes : List ℕ, (∀ b ∈ sizes, 0 < b) →
      (∀ reply ∈ (newTLSObfs reads).replies sizes, reply.failed = true ∨ reply.data ≠ []) ∧
      ((newTLSObfs reads).replies sizes).flatMap Reply.data <+: payloads rs ∧
      ((stream rs).length < sizes.length →
        (∃ reply ∈ (newTLSObfs reads).replies sizes, reply.failed = true) ∧
        ((stream rs).length ≤ k →
          ((newTLSObfs reads).replies sizes).flatMap Reply.data = payloads rs))

section parts

variable {c : TLSObfs} {n b k : ℕ} {r : BufReader} {part rest data : Bytes}

lemma readFullReply_append (h : r.content = data ++ rest) :
    ∃ r',readFullReply data.length r = (⟨data,false⟩,r') ∧ r'.content = rest ∧
      r'.pending <:+ r.pending := by
  obtain ⟨r',hr,hc,hs⟩ := readFull_append h
  exact ⟨r',by rw [readFullReply,hr],hc,hs⟩

lemma readFullReply_short (h : r.content.length < n) :
    readFullReply n r = (⟨r.content,true⟩,⟨[],[]⟩) := by
  rw [readFullReply,readFull_none h]

/-- What a read of a part of the payload comes to: the end of the stream, or some of the part. -/
def PartRead (part rest : Bytes) (k : ℕ) (c : TLSObfs) (result : Reply × TLSObfs) : Prop :=
  (result.1.failed = true ∧ result.1.data <+: part ∧ k < part.length) ∨
    ∃ m, 0 < m ∧ m ≤ part.length ∧ m ≤ k ∧ result.1 = ⟨part.take m,false⟩ ∧
      result.2.remain = (part.drop m).length ∧ result.2.firstResponse = c.firstResponse ∧
      result.2.conn.content = (part.drop m ++ rest).take (k - m) ∧
      result.2.conn.pending <:+ c.conn.pending

lemma readFullReply_part (hc : r.content = (part ++ rest).take k) (hn : n ≤ part.length) :
    (k < n ∧ readFullReply n r = (⟨part.take k,true⟩,⟨[],[]⟩)) ∨
      n ≤ k ∧ ∃ r',readFullReply n r = (⟨part.take n,false⟩,r') ∧
        r'.content = (part.drop n ++ rest).take (k - n) ∧ r'.pending <:+ r.pending := by
  rcases Nat.lt_or_ge k n with hk | hk
  · have hp : r.content = part.take k := by
      rw [hc,List.take_append_of_le_length (by omega)]
    refine .inl ⟨hk,?_⟩
    rw [readFullReply_short,hp]
    rw [hp,List.length_take]
    omega
  · have hs : r.content = part.take n ++ (part.drop n ++ rest).take (k - n) := by
      calc r.content = (part.take n ++ (part.drop n ++ rest)).take k := by
            rw [hc,← List.append_assoc,List.take_append_drop]
        _ = part.take n ++ (part.drop n ++ rest).take (k - n) := by
            rw [List.take_append,List.take_of_length_le (by simp; omega),List.length_take,
              Nat.min_eq_left hn]
    obtain ⟨r',hr,hx⟩ := readFullReply_append hs
    rw [List.length_take,Nat.min_eq_left hn] at hr
    exact .inr ⟨hk,r',hr,hx⟩

lemma readInto_ne_nil {r' : BufReader} (h : readInto n r = some (data,r')) (hn : 0 < n)
    (hp : ∀ chunk ∈ r.pending,chunk ≠ []) : data ≠ [] := by
  unfold readInto at h
  split_ifs at h with h0 hb
  · omega
  · cases h
    simp [hb,h0]
  · cases hr : r.pending with
    | nil => simp [hr] at h
    | cons chunk pending =>
      simp only [hr,Option.some.injEq,Prod.mk.injEq] at h
      simp [← h.1,hp chunk (by simp [hr]),h0]

lemma readBody_part (hc : c.conn.content = (part ++ rest).take k) (h0 : c.remain = 0)
    (hp : ∀ chunk ∈ c.conn.pending,chunk ≠ []) (hb : 0 < b) (hn : part ≠ []) :
    PartRead part rest k c (c.readBody b part.length) := by
  have hl := List.length_pos_iff.mpr hn
  unfold TLSObfs.readBody
  split_ifs with h
  · cases hr : readInto b c.conn with
    | none =>
      have he := (readInto_none hr).2
      rw [hc,List.take_eq_nil_iff] at he
      refine .inl ⟨rfl,List.nil_prefix,?_⟩
      obtain rfl | he := he
      · exact hl
      · exact absurd (List.append_eq_nil_iff.mp he).1 hn
    | some p =>
      obtain ⟨h1,h2,-,h4⟩ := readInto_some hr
      have hd := List.length_pos_iff.mpr (readInto_ne_nil hr hb hp)
      rw [hc] at h1
      have hm : p.1.length ≤ k := by
        have hx := congrArg List.length h1
        rw [List.length_append,List.length_take] at hx
        omega
      have ht : p.1 = part.take p.1.length := by
        have hx := congrArg (List.take p.1.length) h1
        rw [List.take_left,List.take_take,Nat.min_eq_left hm,
          List.take_append_of_le_length (by omega)] at hx
        exact hx
      refine .inr ⟨p.1.length,hd,by omega,hm,by rw [← ht],by simp,rfl,?_,h4⟩
      have hx := congrArg (List.drop p.1.length) h1
      rwa [List.drop_left,List.drop_take,List.drop_append_of_le_length (by omega)] at hx
  · obtain ⟨hk,hr⟩ | ⟨hk,r',hr,h1,h2⟩ := readFullReply_part hc (Nat.le_refl _)
    · rw [hr]
      exact .inl ⟨rfl,List.take_prefix ..,hk⟩
    · rw [hr]
      exact .inr ⟨part.length,hl,Nat.le_refl _,hk,rfl,by simp [h0],rfl,h1,h2⟩

lemma read_part (hc : c.conn.content = (part ++ rest).take k) (hr : c.remain = part.length)
    (hb : 0 < b) (hn : part ≠ []) : PartRead part rest k c (c.read b) := by
  have hl := List.length_pos_iff.mpr hn
  rw [TLSObfs.read,if_pos (by omega),hr]
  obtain ⟨hk,hx⟩ | ⟨hk,r',hx,h1,h2⟩ := readFullReply_part hc (Nat.min_le_left part.length b)
  · dsimp only
    rw [hx]
    exact .inl ⟨rfl,List.take_prefix ..,by omega⟩
  · dsimp only
    rw [hx]
    exact .inr ⟨min part.length b,by omega,Nat.min_le_left ..,hk,rfl,by simp,rfl,h1,h2⟩

lemma read_record (h : c.remain = 0) (b : ℕ) :
    c.read b = { c with firstResponse := false }.readRecord b (skip c.firstResponse) := by
  rw [TLSObfs.read,if_neg (by omega)]
  obtain ⟨conn,remain,first⟩ := c
  cases first <;> rfl

lemma readRecord_cut (h : c.conn.content.length < n) (b : ℕ) :
    (c.readRecord b n).1 = ⟨[],true⟩ := by
  rw [TLSObfs.readRecord,readFullReply_short h]
  rfl

/-- The defect: a stream that ends where a length should be is answered with success. -/
lemma readRecord_noLength {header : Bytes} (hc : c.conn.content = header ++ rest)
    (hl : rest.length < 2) (b : ℕ) : (c.readRecord b header.length).1 = ⟨[],false⟩ := by
  obtain ⟨r',hr,h1,-⟩ := readFullReply_append hc
  rw [TLSObfs.readRecord,hr]
  simp only
  rw [if_neg (by simp),readFullReply_short (by rwa [h1])]
  rfl

lemma readRecord_body {header : Bytes} (hn : n < 65536)
    (hc : c.conn.content = header ++ bigEndian 2 n ++ rest) (b : ℕ) :
    ∃ conn,conn.content = rest ∧ conn.pending <:+ c.conn.pending ∧
      c.readRecord b header.length = { c with conn := conn }.readBody b n := by
  rw [List.append_assoc] at hc
  obtain ⟨r₁,hr₁,h1,s1⟩ := readFullReply_append hc
  obtain ⟨r₂,hr₂,h2,s2⟩ := readFullReply_append h1
  rw [length_bigEndian] at hr₂
  refine ⟨r₂,h2,s2.trans s1,?_⟩
  rw [TLSObfs.readRecord,hr₁]
  simp only
  rw [if_neg (by simp),hr₂]
  simp only
  rw [if_neg (by simp),ofBigEndian_bigEndian 2 n 0 hn,Nat.zero_mul,Nat.zero_add]

end parts

section runs

variable {c : TLSObfs} {b k : ℕ} {part : Bytes} {rs : List Record}

/-- Between two reads: what is left of a payload, the records behind it, and where all ends. -/
structure Holds (c : TLSObfs) (part : Bytes) (rs : List Record) (k : ℕ) : Prop where
  content : c.conn.content = (part ++ stream rs).take k
  remain : c.remain = part.length
  formed : WellFormed c.firstResponse rs
  cut : CutWell (k - part.length) rs
  chunks : ∀ chunk ∈ c.conn.pending, chunk ≠ []

lemma take_header (r : Record) (rest : Bytes) (h : r.header.length ≤ k) : (r.bytes ++ rest).take k =
      r.header ++ (bigEndian 2 r.payload.length ++ (r.payload ++ rest)).take (k - r.header.length) := by
  rw [Record.bytes,List.append_assoc,List.append_assoc,List.take_append,List.take_of_length_le h]

lemma take_record (r : Record) (rest : Bytes) (h : r.header.length + 2 ≤ k) :
    (r.bytes ++ rest).take k = r.header ++ bigEndian 2 r.payload.length ++
        (r.payload ++ rest).take (k - (r.header.length + 2)) := by
  have hl : (bigEndian 2 r.payload.length).length ≤ k - r.header.length := by
    rw [length_bigEndian]
    omega
  rw [take_header r rest (by omega),List.take_append,List.take_of_length_le hl,
    length_bigEndian,Nat.sub_sub,List.append_assoc]

lemma Record.length_bytes (r : Record) :
    r.bytes.length = r.header.length + 2 + r.payload.length := by
  simp only [Record.bytes,List.length_append,length_bigEndian]

lemma PartRead.step {result : Reply × TLSObfs} (h : PartRead part (stream rs) k c result)
    (hw : WellFormed c.firstResponse rs) (hk : CutWell (k - part.length) rs)
    (hp : ∀ chunk ∈ c.conn.pending,chunk ≠ []) :
    (result.1.failed = true ∧ result.1.data <+: part ∧ k < part.length) ∨
      (result.1.failed = false ∧ result.1.data ≠ [] ∧ ∃ part' k',Holds result.2 part' rs k' ∧
        part = result.1.data ++ part' ∧ part'.length < part.length ∧
        k' + part.length = k + part'.length) := by
  obtain h | ⟨m,h0,hm,hmk,h1,h2,h3,h4,h5⟩ := h
  · exact .inl h
  · refine .inr ⟨by rw [h1],?_,part.drop m,k - m,⟨h4,h2,by rwa [h3],?_,?_⟩,?_,?_,?_⟩
    · have hl : 0 < (part.take m).length := by
        rw [List.length_take]
        omega
      rw [h1]
      exact List.ne_nil_of_length_pos hl
    · have he : k - m - (part.drop m).length = k - part.length := by
        rw [List.length_drop]
        omega
      rwa [he]
    · exact fun chunk hc => hp chunk (h5.subset hc)
    · rw [h1,List.take_append_drop]
    · rw [List.length_drop]
      omega
    · rw [List.length_drop]
      omega

lemma Holds.step (h : Holds c part rs k) (hb : 0 < b) :
    ((c.read b).1.failed = true ∧ (c.read b).1.data <+: part ++ payloads rs ∧
      ((part ++ stream rs).length ≤ k → (c.read b).1.data = part ++ payloads rs)) ∨
    ((c.read b).1.failed = false ∧ (c.read b).1.data ≠ [] ∧ ∃ part' rs' k',
      Holds (c.read b).2 part' rs' k' ∧
      part ++ payloads rs = (c.read b).1.data ++ (part' ++ payloads rs') ∧
      (part' ++ stream rs').length < (part ++ stream rs).length ∧
      ((part ++ stream rs).length ≤ k → (part' ++ stream rs').length ≤ k')) := by
  simp only [List.length_append]
  by_cases hn : part = []
  · subst hn
    rw [read_record h.remain]
    cases rs with
    | nil =>
      have hc : c.conn.content = [] := by simpa [stream] using h.content
      have hl : c.conn.content.length < skip c.firstResponse := by
        rw [hc]
        cases c.firstResponse <;> decide
      rw [readRecord_cut (c := { c with firstResponse := false }) hl]
      exact .inl ⟨rfl,List.nil_prefix,fun _ => rfl⟩
    | cons r rs =>
      obtain ⟨hh,hp,hw⟩ := h.formed
      have hc := h.content
      have hl := r.length_bytes
      rw [List.nil_append,stream,List.flatMap_cons,← stream] at hc
      obtain hk | ⟨hk,hne,hx⟩ := h.cut
      · rw [List.length_nil,Nat.sub_zero] at hk
        have hs : c.conn.content.length < skip c.firstResponse := by
          rw [hc,List.length_take]
          omega
        rw [readRecord_cut (c := { c with firstResponse := false }) hs]
        refine .inl ⟨rfl,List.nil_prefix,fun hle => ?_⟩
        simp only [stream,List.flatMap_cons,List.length_append] at hle
        omega
      · rw [List.length_nil,Nat.sub_zero] at hk hx
        rw [take_record r _ hk] at hc
        obtain ⟨conn,h1,h2,h3⟩ := readRecord_body (c := { c with firstResponse := false }) hp hc b
        rw [← hh,h3]
        have hb := readBody_part (c := ⟨conn,c.remain,false⟩) h1 h.remain
          (fun chunk hm => h.chunks chunk (h2.subset hm)) hb hne
        have hd : k - (r.header.length + 2) - r.payload.length = k - r.bytes.length := by omega
        rw [← hd] at hx
        have hs := hb.step hw hx fun chunk hm => h.chunks chunk (h2.subset hm)
        simp only [payloads,stream,List.flatMap_cons,List.length_append]
        obtain ⟨f1,f2,f3⟩ | ⟨f1,f2,part',k',f3,f4,f5,f6⟩ := hs
        · refine .inl ⟨f1,f2.trans (List.prefix_append ..),fun hle => ?_⟩
          omega
        · refine .inr ⟨f1,f2,part',rs,k',f3,?_,?_,fun hle => ?_⟩
          · rw [List.nil_append,← List.append_assoc,← f4]
          · simp only [List.length_nil]
            omega
          · simp only [List.length_nil] at hle
            omega
  · have hs := (read_part h.content h.remain hb hn).step h.formed h.cut h.chunks
    obtain ⟨f1,f2,f3⟩ | ⟨f1,f2,part',k',f3,f4,f5,f6⟩ := hs
    · refine .inl ⟨f1,f2.trans (List.prefix_append ..),fun hle => ?_⟩
      omega
    · refine .inr ⟨f1,f2,part',rs,k',f3,?_,by omega,fun hle => by omega⟩
      rw [← List.append_assoc,← f4]

lemma Holds.replies (h : Holds c part rs k) {sizes : List ℕ} (hs : ∀ b ∈ sizes,0 < b) :
    (∀ reply ∈ c.replies sizes,reply.failed = true ∨ reply.data ≠ []) ∧
      (c.replies sizes).flatMap Reply.data <+: part ++ payloads rs ∧
      ((part ++ stream rs).length < sizes.length → (∃ reply ∈ c.replies sizes,reply.failed = true) ∧
        ((part ++ stream rs).length ≤ k →
          (c.replies sizes).flatMap Reply.data = part ++ payloads rs)) := by
  induction sizes generalizing c part rs k with
  | nil => simp [TLSObfs.replies]
  | cons b sizes ih =>
    rw [List.forall_mem_cons] at hs
    obtain ⟨f1,f2,f3⟩ | ⟨f1,f2,part',rs',k',f3,f4,f5,f6⟩ := h.step hs.1
    · simp only [TLSObfs.replies,f1,if_true,List.mem_singleton,List.flatMap_singleton]
      exact ⟨fun reply hr => .inl (hr ▸ f1),f2,fun _ => ⟨⟨_,rfl,f1⟩,f3⟩⟩
    · obtain ⟨i1,i2,i3⟩ := ih f3 hs.2
      simp only [TLSObfs.replies,f1,Bool.false_eq_true,if_false,List.forall_mem_cons,
        List.flatMap_cons,List.length_cons]
      rw [f4]
      refine ⟨⟨.inr f2,i1⟩,(List.prefix_append_right_inj _).mpr i2,fun hl => ?_⟩
      obtain ⟨⟨reply,hm,hf⟩,h2⟩ := i3 (by omega)
      exact ⟨⟨reply,List.mem_cons_of_mem _ hm,hf⟩,fun hle => by rw [h2 (f6 hle)]⟩

end runs

section converse

variable {c : TLSObfs} {k : ℕ} {rs : List Record}

def NoEmpty (c : TLSObfs) : Prop :=
  ∀ sizes : List ℕ, (∀ b ∈ sizes, 0 < b) →
    ∀ reply ∈ c.replies sizes, reply.failed = true ∨ reply.data ≠ []

lemma NoEmpty.read {b : ℕ} (h : NoEmpty c) (hb : 0 < b) :
    (c.read b).1 ≠ ⟨[],false⟩ ∧ ((c.read b).1.failed = false → NoEmpty (c.read b).2) := by
  constructor
  · intro he
    have hx := h [b] (by simpa using hb) (c.read b).1 (by simp [TLSObfs.replies])
    rw [he] at hx
    simp at hx
  · intro hf sizes hs reply hr
    refine h (b :: sizes) (List.forall_mem_cons.mpr ⟨hb,hs⟩) reply ?_
    simp only [TLSObfs.replies,hf,Bool.false_eq_true,if_false]
    exact List.mem_cons_of_mem _ hr

lemma cutWell_zero {first : Bool} (hw : WellFormed first rs) : CutWell 0 rs := by
  cases rs with
  | nil => trivial
  | cons r rs =>
    refine .inl ?_
    rw [hw.1]
    cases first <;> decide

lemma NoEmpty.cutWell (h : NoEmpty c) (hc : c.conn.content = (stream rs).take k)
    (h0 : c.remain = 0) (hw : WellFormed c.firstResponse rs) : CutWell k rs := by
  induction rs generalizing c k with
  | nil => trivial
  | cons r rs ih =>
    obtain ⟨hh,hp,hw⟩ := hw
    obtain ⟨hne,hnext⟩ := h.read (b := 65536) (by decide)
    rw [read_record h0,← hh] at hne hnext
    rw [stream,List.flatMap_cons,← stream] at hc
    rcases Nat.lt_or_ge k r.header.length with hk | hk
    · exact .inl hk
    · have h2 : r.header.length + 2 ≤ k := by
        by_contra hk2
        rw [take_header r _ hk] at hc
        refine hne (readRecord_noLength (c := { c with firstResponse := false }) hc ?_ _)
        rw [List.length_take]
        omega
      rw [take_record r _ h2] at hc
      obtain ⟨conn,h1,-,h3⟩ :=
        readRecord_body (c := { c with firstResponse := false }) hp hc 65536
      rw [h3,TLSObfs.readBody,if_neg (by omega)] at hne hnext
      have hl := r.length_bytes
      obtain ⟨hk',hr⟩ | ⟨hk',r',hr,h4,-⟩ := readFullReply_part h1 (Nat.le_refl _)
      · have hpos : 0 < r.payload.length := by omega
        have hz : k - r.bytes.length = 0 := by omega
        refine .inr ⟨h2,List.ne_nil_of_length_pos hpos,?_⟩
        rw [hz]
        exact cutWell_zero hw
      · have hd : k - (r.header.length + 2) - r.payload.length = k - r.bytes.length := by omega
        rw [List.drop_length,List.nil_append,hd] at h4
        simp only [hr,List.take_length] at hne hnext
        refine .inr ⟨h2,fun he => hne (by rw [he]),?_⟩
        exact ih (hnext trivial) h4 h0 hw

end converse

/-- The reader decodes a stream that ends after so many bytes exactly if it does not end where a
length should be, and no record up to there is empty. -/
theorem decodes_iff (rs : List Record) (h : WellFormed true rs) (k : ℕ) :
    Decodes rs k ↔ CutWell k rs := by
  constructor
  · intro hd
    obtain ⟨reads,hr,hc⟩ : ∃ reads : List Bytes, reads.flatten = (stream rs).take k ∧
        ∀ chunk ∈ reads, chunk ≠ [] := by
      by_cases he : (stream rs).take k = []
      · exact ⟨[],he.symm,by simp⟩
      · exact ⟨[(stream rs).take k],List.flatten_singleton ..,by simpa using he⟩
    have hn : NoEmpty (newTLSObfs reads) := fun sizes hs => (hd reads hr hc sizes hs).1
    exact hn.cutWell hr rfl h
  · intro hw reads hr hc sizes hs
    have hh : Holds (newTLSObfs reads) [] rs k := ⟨hr,rfl,h,hw,hc⟩
    exact hh.replies hs

def twoRecords : List Record := [⟨List.replicate 105 0,[1,2,3]⟩,⟨[23,3,3],[4]⟩]

/-- A stream of two records, whole and cut inside the type and version of the second. -/
theorem twoRecords_decoded : Decodes twoRecords 116 ∧ Decodes twoRecords 112 := by
  have hw : WellFormed true twoRecords := ⟨rfl,by decide,rfl,by decide,trivial⟩
  refine ⟨(decodes_iff twoRecords hw 116).mpr ?_,(decodes_iff twoRecords hw 112).mpr ?_⟩
  · exact .inr ⟨by decide,by decide,.inr ⟨by decide,by decide,trivial⟩⟩
  · exact .inr ⟨by decide,by decide,.inl (by decide)⟩

/-- A stream that ends behind the type and version of the second record. -/
theorem ends_before_length : ¬ Decodes twoRecords 113 := by
  intro h
  have hx := (h [(stream twoRecords).take 113] (List.flatten_singleton ..) (by decide) [9,9]
    (by decide)).1 ⟨[],false⟩ (by decide)
  simp at hx

end SingBoxAuth.TLSObfuscation
