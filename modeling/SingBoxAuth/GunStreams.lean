import SingBoxAuth.ByteDecoders
import SingBoxAuth.QuotaPackets

/-! The stream of the gRPC-lite transport: frames with a length of variable size, written one after
the other and read in parts of any size. -/
namespace SingBoxAuth.GunStream
open ByteReaders BufferedReading BufReader ByteDecoders Outcomes
open TrafficQuota (PacketBuffer)

abbrev ReadError := Fault Empty

structure GunConn where
  reader : BufReader
  readRemaining : ℤ

def newGunConn (reads : List Bytes) : GunConn := ⟨⟨[],reads⟩,0⟩

def frameHeader : Decoder Empty ℕ := do
  let _ ← Decoder.bytes 6
  Decoder.uvarint

namespace GunConn

/-- The last lines of both branches. -/
def readPart (n : ℕ) (c : GunConn) : Outcome ReadError Bytes × GunConn :=
  match readInto n c.reader with
  | some (data,reader) => (.ok data,⟨reader,c.readRemaining - data.length⟩)
  | none => (.error .eof,c)

def read (b : ℕ) (c : GunConn) : Outcome ReadError Bytes × GunConn :=
  if 0 < c.readRemaining then
    readPart (if c.readRemaining < b then c.readRemaining.toNat else b) c
  else
    match frameHeader.run 0 c.reader with
    | (.ok dataLen,reader) =>
      let readLen := toInt dataLen
      let c := ⟨reader,readLen⟩
      if readLen < b then
        if readLen < 0 then (.outOfRange,c) else readPart readLen.toNat c
      else readPart b c
    | (.error err,reader) => (.error err,⟨reader,c.readRemaining⟩)
    | (.outOfRange,reader) => (.outOfRange,⟨reader,c.readRemaining⟩)
    | (.running,reader) => (.running,⟨reader,c.readRemaining⟩)

end GunConn

def writeHeader (dataLen : ℕ) : Bytes :=
  let varLen := (Decoder.putUvarint dataLen).length
  [0] ++ bigEndian 4 ((1 + varLen + dataLen) % 2 ^ 32) ++ [10] ++ Decoder.putUvarint dataLen

inductive Call
  | write (b : Bytes)
  | writeBuffer (buffer : PacketBuffer)

namespace Call

def payload : Call → Bytes
  | .write b => b
  | .writeBuffer buffer => buffer.bytes

/-- What is handed to the writer; a buffer without room for the header panics. -/
def sent : Call → Option Bytes
  | .write b => some (writeHeader b.length ++ b)
  | .writeBuffer buffer => (buffer.extendHeader (writeHeader buffer.len)).map (·.bytes)

/-- Less than 2^31 bytes, and for a buffer the room that `FrontHeadroom` asks for. -/
def Allowed : Call → Prop
  | .write b => b.length < 2 ^ 31
  | .writeBuffer buffer => buffer.len < 2 ^ 31 ∧ 16 ≤ buffer.headroom

end Call

section reading

variable {n b : ℕ} {r r' : BufReader} {c : GunConn} {data left : Bytes}

lemma readPart_cases (n : ℕ) (c : GunConn) :
    (∃ data r',GunConn.readPart n c = (.ok data,⟨r',c.readRemaining - data.length⟩) ∧
      data ++ r'.content = c.reader.content ∧ data.length ≤ n ∧
      size r' + min n 1 ≤ size c.reader) ∨
    (GunConn.readPart n c = (.error .eof,c) ∧ n ≠ 0 ∧ c.reader.content = []) := by
  unfold GunConn.readPart
  cases hr : readInto n c.reader with
  | none => exact .inr ⟨rfl,readInto_none hr⟩
  | some p =>
    obtain ⟨h1,h2,h3,-⟩ := readInto_some hr
    exact .inl ⟨p.1,p.2,rfl,h1,h2,h3⟩

lemma plain_frameHeader : frameHeader.Plain :=
  (Decoder.plain_bytes 6).bind fun _ => Decoder.plain_uvarintFrom 10 0 0

lemma frameHeader_cases (r : BufReader) :
    ∃ r',size r' + (r.content.length - r'.content.length) ≤ size r ∧
      ((∃ n,frameHeader.run 0 r = (.ok n,r') ∧ frameHeader.parse 0 r.content = (.ok n,r'.content)) ∨
      ∃ err,frameHeader.run 0 r = (.error err,r') ∧
        frameHeader.parse 0 r.content = (.error err,r'.content)) := by
  have hs := plain_frameHeader.safe 0 r.content
  have hl := Decoder.length_parse_le 0 frameHeader r.content
  obtain ⟨h1,h2⟩ := Decoder.run_eq_parse 0 frameHeader r
  refine ⟨(frameHeader.run 0 r).2,?_,?_⟩
  · have hp := Decoder.length_pending_run 0 frameHeader r
    rw [← h2] at hl
    simp only [size]
    omega
  · rw [h2]
    cases hx : (frameHeader.parse 0 r.content).1 with
    | ok n => exact .inl ⟨n,Prod.ext (h1.trans hx) rfl,Prod.ext hx rfl⟩
    | error err => exact .inr ⟨err,Prod.ext (h1.trans hx) rfl,Prod.ext hx rfl⟩
    | outOfRange =>
      rw [hx] at hs
      exact hs.elim
    | running =>
      rw [hx] at hs
      exact hs.elim

lemma frameHeader_lt {input rest : Bytes} (h : frameHeader.parse 0 input = (.ok n,rest)) :
    n < 2 ^ 64 := by
  rw [frameHeader,Decoder.parse_bind] at h
  split at h
  · exact Decoder.uvarint_lt h
  all_goals cases h

lemma read_of_remaining (h : 0 < c.readRemaining) (b : ℕ) :
    c.read b = c.readPart (min b c.readRemaining.toNat) := by
  rw [GunConn.read,if_pos h]
  congr 1
  split <;> omega

lemma read_of_header (h : c.readRemaining = 0) (hr : frameHeader.run 0 c.reader = (.ok n,r'))
    (hn : n < 2 ^ 63) (b : ℕ) : c.read b = GunConn.readPart (min b n) ⟨r',n⟩ := by
  rw [GunConn.read,if_neg (by omega),hr]
  simp only [toInt,if_pos hn]
  split_ifs with h1 h2
  · omega
  · rw [Int.toNat_natCast,Nat.min_eq_right (by omega)]
  · rw [Nat.min_eq_left (by omega)]

lemma read_of_error {err : ReadError} (h : c.readRemaining = 0)
    (hr : frameHeader.run 0 c.reader = (.error err,r')) (b : ℕ) :
    c.read b = (.error err,⟨r',0⟩) := by
  rw [GunConn.read,if_neg (by omega),hr,h]

end reading

section roundTrip

variable {b : ℕ} {c : GunConn} {left : Bytes}

def frame (payload : Bytes) : Bytes := writeHeader payload.length ++ payload

/-- Between two reads: what is left of a payload, with its length, and whole frames behind it. -/
def Holds (c : GunConn) (left : Bytes) : Prop :=
  ∃ (part : Bytes) (payloads : List Bytes), c.readRemaining = part.length ∧
    c.reader.content = part ++ payloads.flatMap frame ∧ left = part ++ payloads.flatten ∧
    ∀ p ∈ payloads, p.length < 2 ^ 31

def received : List ℕ → GunConn → Bytes
  | [], _ => []
  | b :: sizes, c =>
    match c.read b with
    | (.ok data,c) => data ++ received sizes c
    | (_,c) => received sizes c

lemma parse_writeHeader {n : ℕ} (h : n < 2 ^ 31) (rest : Bytes) :
    frameHeader.parse 0 (writeHeader n ++ rest) = (.ok n,rest) := by
  have hb (start : Bytes) (hs : start.length = 6) : (Decoder.bytes 6 : Decoder Empty Bytes).parse 0
      (start ++ (Decoder.putUvarint n ++ rest)) = (.ok start,Decoder.putUvarint n ++ rest) := by
    rw [← hs]
    exact Decoder.parse_bytes start _
  rw [frameHeader,writeHeader,List.append_assoc,
    Decoder.parse_bind_of_ok (hb _ (by simp [length_bigEndian]))]
  exact Decoder.parse_uvarint (h.trans (by decide)) rest

lemma readPart_of_part {n : ℕ} {part rest : Bytes} (hm : c.readRemaining = part.length)
    (hc : c.reader.content = part ++ rest) (hn : n ≤ part.length) :
    ∃ data part' c',c.readPart n = (.ok data,c') ∧ part = data ++ part' ∧
      c'.readRemaining = part'.length ∧ c'.reader.content = part' ++ rest ∧
      size c'.reader + min n 1 ≤ size c.reader := by
  obtain ⟨data,r',he,hd,hl,hs⟩ | ⟨-,h0,he⟩ := readPart_cases n c
  · obtain ⟨part',rfl⟩ : data <+: part := by
      refine List.prefix_of_prefix_length_le ⟨r'.content,hd⟩ ?_ (hl.trans hn)
      exact ⟨rest,hc.symm⟩
    rw [hc,List.append_assoc] at hd
    refine ⟨data,part',_,he,rfl,?_,List.append_cancel_left hd,hs⟩
    simp [hm]
  · have hp : part.length = 0 := by
      rw [hc,List.append_eq_nil_iff] at he
      simp [he.1]
    omega

lemma Holds.read (h : Holds c left) (b : ℕ) :
    ∃ data left',left = data ++ left' ∧ Holds (c.read b).2 left' ∧
      ((c.read b).1 = .ok data ∨ (∃ err,(c.read b).1 = .error err) ∧ data = []) ∧
      (size (c.read b).2.reader + min b 1 ≤ size c.reader ∨ left = []) := by
  obtain ⟨part,payloads,hm,hc,rfl,hp⟩ := h
  by_cases h0 : part = []
  · subst h0
    obtain ⟨r',hs,⟨n,hr,hx⟩ | ⟨err,hr,hx⟩⟩ := frameHeader_cases c.reader
    all_goals rw [hc,List.nil_append] at hx
    · cases payloads with
      | nil => cases hx
      | cons p payloads =>
        rw [List.forall_mem_cons] at hp
        rw [List.flatMap_cons,frame,List.append_assoc,parse_writeHeader hp.1] at hx
        obtain ⟨rfl,hd⟩ : p.length = n ∧ p ++ payloads.flatMap frame = r'.content := by
          simpa using hx
        obtain ⟨data,part',c',he,rfl,hm',hc',hs'⟩ := readPart_of_part (c := ⟨r',p.length⟩)
          rfl hd.symm (Nat.min_le_right b p.length)
        rw [read_of_header hm hr (hp.1.trans (by decide)),he]
        refine ⟨data,part' ++ payloads.flatten,by simp,⟨part',payloads,hm',hc',rfl,hp.2⟩,
          .inl rfl,.inl ?_⟩
        have hh : c.reader.content.length = (writeHeader (data ++ part').length).length +
            r'.content.length := by
          rw [hc,← hd]
          simp [frame]
        have h1 : 1 ≤ (writeHeader (data ++ part').length).length := by simp [writeHeader]
        dsimp only at hs' ⊢
        omega
    · cases payloads with
      | nil =>
        rw [read_of_error hm hr]
        have hn : r'.content = [] := (Prod.mk.inj hx).2.symm
        exact ⟨[],[],rfl,⟨[],[],rfl,hn,rfl,by simp⟩,.inr ⟨⟨err,rfl⟩,rfl⟩,.inr rfl⟩
      | cons p payloads =>
        rw [List.flatMap_cons,frame,List.append_assoc,parse_writeHeader (hp p (by simp))] at hx
        cases hx
  · have hl := List.length_pos_iff.mpr h0
    obtain ⟨data,part',c',he,rfl,hm',hc',hs'⟩ := readPart_of_part hm hc
      (Nat.min_le_right b part.length)
    rw [read_of_remaining (by omega),hm,Int.toNat_natCast,he]
    refine ⟨data,part' ++ payloads.flatten,by simp,⟨part',payloads,hm',hc',rfl,hp⟩,.inl rfl,.inl ?_⟩
    dsimp only
    omega

lemma Holds.received (h : Holds c left) (sizes : List ℕ) : received sizes c <+: left ∧
      (size c.reader ≤ (sizes.filter (0 < ·)).length → received sizes c = left) := by
  induction sizes generalizing c left with
  | nil =>
    refine ⟨List.nil_prefix,fun hs => ?_⟩
    obtain ⟨part,payloads,-,hc,rfl,-⟩ := h
    have hn : c.reader.content = [] := List.length_eq_zero_iff.mp (by
      simp only [size,List.filter_nil,List.length_nil] at hs
      omega)
    rw [hc,List.append_eq_nil_iff,List.flatMap_eq_nil_iff] at hn
    rw [hn.1,List.nil_append]
    refine (List.flatten_eq_nil_iff.mpr fun p hp => ?_).symm
    exact (List.append_eq_nil_iff.mp (hn.2 p hp)).2
  | cons b sizes ih =>
    obtain ⟨data,left',rfl,hh,hx,hs⟩ := h.read b
    have he : GunStream.received (b :: sizes) c =
        data ++ GunStream.received sizes (c.read b).2 := by
      rw [GunStream.received]
      obtain hx | ⟨⟨err,hx⟩,rfl⟩ := hx
      · rw [← Prod.mk.eta (p := c.read b),hx]
      · rw [← Prod.mk.eta (p := c.read b),hx]
        rfl
    obtain ⟨h1,h2⟩ := ih hh
    rw [he]
    refine ⟨(List.prefix_append_right_inj data).mpr h1,fun hle => ?_⟩
    obtain hs | hn := hs
    · rw [h2]
      by_cases hb : 0 < b
      · simp only [hb,decide_true,List.filter_cons_of_pos,List.length_cons] at hle
        omega
      · simp only [hb,decide_false,Bool.false_eq_true,not_false_eq_true,
          List.filter_cons_of_neg] at hle
        omega
    · obtain ⟨rfl,rfl⟩ := List.append_eq_nil_iff.mp hn
      rw [List.prefix_nil.mp h1]

lemma Call.sent_eq {call : Call} (h : call.Allowed) : call.sent = some (frame call.payload) := by
  cases call with
  | write b => rfl
  | writeBuffer buffer =>
    have hl : (writeHeader buffer.len).length ≤ buffer.headroom := by
      have hu := Decoder.length_putUvarintFrom_le 9 buffer.len
      simp only [writeHeader,List.length_append,length_bigEndian,List.length_singleton]
      exact (Nat.add_le_add_left hu 6).trans h.2
    rw [Call.sent,PacketBuffer.extendHeader,if_pos hl]
    rfl

lemma Call.length_payload_lt {call : Call} (h : call.Allowed) : call.payload.length < 2 ^ 31 := by
  cases call with
  | write b => exact h
  | writeBuffer buffer => exact h.1

/-- The reads of the other side return what was written: never anything else, and all of it after
as many reads into non-empty buffers as there are bytes and reads of the connection. -/
theorem stream_roundTrips (calls : List Call) (h : ∀ call ∈ calls, call.Allowed) :
    ∃ wire, calls.mapM Call.sent = some wire ∧
      ∀ reads : List Bytes, reads.flatten = wire.flatten → ∀ sizes : List ℕ,
        received sizes (newGunConn reads) <+: calls.flatMap Call.payload ∧
        (wire.flatten.length + reads.length ≤ (sizes.filter (0 < ·)).length →
          received sizes (newGunConn reads) = calls.flatMap Call.payload) := by
  have hw : calls.mapM Call.sent = some (calls.map fun call => frame call.payload) := by
    induction calls with
    | nil => rfl
    | cons call calls ih =>
      rw [List.forall_mem_cons] at h
      rw [List.mapM_cons,Call.sent_eq h.1,ih h.2]
      rfl
  refine ⟨_,hw,fun reads hr sizes => ?_⟩
  have hh : Holds (newGunConn reads) (calls.flatMap Call.payload) := by
    refine ⟨[],calls.map Call.payload,rfl,?_,by simp [List.flatMap],?_⟩
    · rw [newGunConn,BufReader.content,List.nil_append,List.nil_append,hr,List.flatMap_map,
        List.flatMap_def]
    · rw [List.forall_mem_map]
      exact fun call hc => Call.length_payload_lt (h call hc)
  have hs : size (newGunConn reads).reader =
      (calls.map fun call => frame call.payload).flatten.length + reads.length := by
    rw [← hr]
    rfl
  rw [← hs]
  exact hh.received sizes

theorem stream_roundTrips_empty_and_buffer :
    ∃ wire, [Call.write [],.writeBuffer ⟨16,[1,2],true⟩].mapM Call.sent = some wire ∧
      ∀ reads : List Bytes, reads.flatten = wire.flatten → ∀ sizes : List ℕ,
        received sizes (newGunConn reads) <+: [1,2] ∧
        (wire.flatten.length + reads.length ≤ (sizes.filter (0 < ·)).length →
          received sizes (newGunConn reads) = [1,2]) :=
  stream_roundTrips [.write [],.writeBuffer ⟨16,[1,2],true⟩]
    (by simp [Call.Allowed,PacketBuffer.len])

end roundTrip

section anyPeer

variable {n : ℕ} {c : GunConn} {input : Bytes}

/-- A frame of the stream declares this length, as a peer that is read to the end is understood:
frame after frame, and behind a header that cannot be read with what follows it. -/
inductive Declares : Bytes → ℕ → Prop
  | here {input rest : Bytes} {n : ℕ} (h : frameHeader.parse 0 input = (.ok n,rest)) :
    Declares input n
  | later {input rest : Bytes} {m n : ℕ} (h : frameHeader.parse 0 input = (.ok m,rest))
    (hd : Declares (rest.drop m) n) : Declares input n
  | failed {input rest : Bytes} {n : ℕ} {err : ReadError}
    (h : frameHeader.parse 0 input = (.error err,rest)) (hd : Declares rest n) : Declares input n

/-- Every read returns, with no more than its buffer takes and a count that is not negative. -/
def Survives : List ℕ → GunConn → Prop
  | [], _ => True
  | b :: sizes, c => (c.read b).1.Safe ∧ (∀ data, (c.read b).1 = .ok data → data.length ≤ b) ∧
    0 ≤ (c.read b).2.readRemaining ∧ Survives sizes (c.read b).2

lemma not_declares_nil (h : Declares input n) : input ≠ [] := by
  induction h with
  | here h =>
    rintro rfl
    cases h
  | later h hd ih =>
    rintro rfl
    cases h
  | failed h hd ih =>
    rintro rfl
    cases h
    exact ih rfl

/-- The count is not negative and no frame behind the payload declares too much. -/
def Bounded (c : GunConn) : Prop :=
  0 ≤ c.readRemaining ∧ ∀ n, Declares (c.reader.content.drop c.readRemaining.toNat) n → n < 2 ^ 63

lemma Bounded.readPart (h : Bounded c) (hn : n ≤ c.readRemaining.toNat) :
    (c.readPart n).1.Safe ∧ (∀ data,(c.readPart n).1 = .ok data → data.length ≤ n) ∧
      Bounded (c.readPart n).2 := by
  obtain ⟨data,r',he,hd,hl,-⟩ | ⟨he,-,-⟩ := readPart_cases n c
  · rw [he]
    refine ⟨trivial,fun x hx => (Outcome.ok.inj hx) ▸ hl,?_,fun k hk => h.2 k ?_⟩
    · have h0 := h.1
      dsimp only
      omega
    · obtain ⟨m,hm⟩ := Nat.exists_eq_add_of_le (hl.trans hn)
      have hr : (c.readRemaining - data.length).toNat = m := by omega
      dsimp only at hk
      rwa [hm,← hd,← List.drop_drop,List.drop_left,← hr]
  · rw [he]
    exact ⟨trivial,nofun,h⟩

lemma Bounded.read (h : Bounded c) (b : ℕ) :
    (c.read b).1.Safe ∧ (∀ data,(c.read b).1 = .ok data → data.length ≤ b) ∧
      Bounded (c.read b).2 := by
  by_cases h0 : 0 < c.readRemaining
  · rw [read_of_remaining h0]
    obtain ⟨h1,h2,h3⟩ := h.readPart (Nat.min_le_right b c.readRemaining.toNat)
    exact ⟨h1,fun data hd => (h2 data hd).trans (Nat.min_le_left ..),h3⟩
  · have hz : c.readRemaining = 0 := by
      have := h.1
      omega
    have hd := h.2
    rw [hz,Int.toNat_zero,List.drop_zero] at hd
    obtain ⟨r',-,⟨n,hr,hx⟩ | ⟨err,hr,hx⟩⟩ := frameHeader_cases c.reader
    · have hb : Bounded ⟨r',n⟩ := ⟨Int.natCast_nonneg n,fun k hk => hd k (.later hx hk)⟩
      rw [read_of_header hz hr (hd n (.here hx))]
      obtain ⟨h1,h2,h3⟩ := hb.readPart (n := min b n) (Nat.min_le_right ..)
      exact ⟨h1,fun data hd => (h2 data hd).trans (Nat.min_le_left ..),h3⟩
    · rw [read_of_error hz hr]
      exact ⟨trivial,nofun,Int.le_refl 0,fun k hk => hd k (.failed hx hk)⟩

lemma Bounded.survives (h : Bounded c) (sizes : List ℕ) : Survives sizes c := by
  induction sizes generalizing c with
  | nil => trivial
  | cons b sizes ih =>
    obtain ⟨h1,h2,h3⟩ := h.read b
    exact ⟨h1,h2,h3.1,ih h3⟩

lemma survives_drained (h : ∀ sizes,Survives sizes c) (h0 : 0 ≤ c.readRemaining) :
    ∃ c' : GunConn,(∀ sizes,Survives sizes c') ∧ (c'.readRemaining = 0 ∨ c'.reader.content = []) ∧
      c'.reader.content.drop c'.readRemaining.toNat =
        c.reader.content.drop c.readRemaining.toNat := by
  induction hs : size c.reader using Nat.strong_induction_on generalizing c with
  | _ k ih =>
    by_cases hz : c.readRemaining = 0
    · exact ⟨c,h,.inl hz,rfl⟩
    · have hn : min 1 c.readRemaining.toNat = 1 := by omega
      have hr := read_of_remaining (c := c) (by omega) 1
      rw [hn] at hr
      obtain ⟨data,r',he,hd,hl,hs'⟩ | ⟨-,-,he⟩ := readPart_cases 1 c
      · rw [he] at hr
        have hc : ∀ sizes,Survives sizes ⟨r',c.readRemaining - data.length⟩ := by
          intro sizes
          have hx := (h (1 :: sizes)).2.2.2
          rwa [hr] at hx
        have hm : 0 ≤ c.readRemaining - data.length := by omega
        obtain ⟨c',h1,h2,h3⟩ := ih (size r') (by omega) hc hm rfl
        refine ⟨c',h1,h2,h3.trans ?_⟩
        have hk : c.readRemaining.toNat =
            data.length + (c.readRemaining - data.length).toNat := by omega
        rw [hk,← hd,← List.drop_drop,List.drop_left]
      · exact ⟨c,h,.inr he,rfl⟩

lemma read_of_overflow {r' : BufReader} (h : c.readRemaining = 0)
    (hr : frameHeader.run 0 c.reader = (.ok n,r')) (hn : 2 ^ 63 ≤ n) (hl : n < 2 ^ 64) (b : ℕ) :
    (c.read b).1 = .outOfRange := by
  have hi : toInt n < 0 := by
    rw [toInt,if_neg (by omega)]
    omega
  rw [GunConn.read,if_neg (by omega),hr]
  simp only
  rw [if_pos (by omega),if_pos hi]

lemma survives_header (h : ∀ sizes,Survives sizes c) (h0 : 0 ≤ c.readRemaining)
    (hc : c.reader.content.drop c.readRemaining.toNat = input) (hi : input ≠ []) :
    ∃ c' : GunConn,(∀ sizes,Survives sizes c') ∧ c'.readRemaining = 0 ∧
      c'.reader.content = input := by
  obtain ⟨c',h1,hz | he,h3⟩ := survives_drained h h0
  · refine ⟨c',h1,hz,?_⟩
    rwa [hz,Int.toNat_zero,List.drop_zero,hc] at h3
  · rw [he,List.drop_nil,hc] at h3
    exact absurd h3.symm hi

lemma survives_lt {rest : Bytes} (h : ∀ sizes,Survives sizes c) (h0 : c.readRemaining = 0)
    (hx : frameHeader.parse 0 c.reader.content = (.ok n,rest)) : n < 2 ^ 63 := by
  obtain ⟨r',hr,rfl⟩ := Decoder.run_of_parse hx
  by_contra hn
  have hs := (h [0]).1
  rw [read_of_overflow h0 hr (by omega) (frameHeader_lt hx) 0] at hs
  exact hs.elim

lemma Declares.lt (hd : Declares input n) (h : ∀ sizes,Survives sizes c) (h0 : 0 ≤ c.readRemaining)
    (hc : c.reader.content.drop c.readRemaining.toNat = input) : n < 2 ^ 63 := by
  induction hd generalizing c with
  | here hx =>
    obtain ⟨c',h',hz,rfl⟩ := survives_header h h0 hc (not_declares_nil (.here hx))
    exact survives_lt h' hz hx
  | @later input rest m n hx hd ih =>
    obtain ⟨c',h',hz,rfl⟩ := survives_header h h0 hc (not_declares_nil (.later hx hd))
    have hm := survives_lt h' hz hx
    obtain ⟨r',hr,rfl⟩ := Decoder.run_of_parse hx
    have he := read_of_header hz hr hm 0
    rw [Nat.zero_min] at he
    refine ih (c := (c'.read 0).2) (fun sizes => (h' (0 :: sizes)).2.2.2) (h' [0]).2.2.1 ?_
    rw [he]
    simp [GunConn.readPart,readInto]
  | failed hx hd ih =>
    obtain ⟨c',h',hz,rfl⟩ := survives_header h h0 hc (not_declares_nil (.failed hx hd))
    obtain ⟨r',-,⟨k,-,hk⟩ | ⟨err,hr,hk⟩⟩ := frameHeader_cases c'.reader
    · rw [hx] at hk
      cases hk
    · rw [hx] at hk
      refine ih (c := (c'.read 0).2) (fun sizes => (h' (0 :: sizes)).2.2.2) (h' [0]).2.2.1 ?_
      rw [read_of_error hz hr]
      exact (Prod.mk.inj hk).2.symm

/-- The reader survives a peer exactly if no frame declares a length that is negative as an int. -/
theorem survives_iff (reads : List Bytes) :
    (∀ sizes, Survives sizes (newGunConn reads)) ↔ ∀ n, Declares reads.flatten n → n < 2 ^ 63 := by
  constructor
  · exact fun h n hd => hd.lt h (Int.le_refl 0) rfl
  · exact fun h => Bounded.survives ⟨Int.le_refl 0,h⟩

theorem negative_length :
    ¬ Survives [1]
      (newGunConn [[0,0,0,0,11,10,128,128,128,128,128,128,128,128,128,1]]) := by
  intro h
  exact h.1

end anyPeer

end SingBoxAuth.GunStream
