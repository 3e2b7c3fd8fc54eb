import SingBoxAuth.BufferedReading

/-! DNS messages on a stream: the length in two bytes, then the message. -/
namespace SingBoxAuth.DNSFraming
open ByteReaders BufferedReading

/-- The wire format of the messages that can be packed, with names compressed. Compression never
makes a message longer, and every message has its header of twelve bytes. -/
structure Codec (M : Type) where
  pack : UInt16 → M → Bytes
  packedLength : M → ℕ
  plainLength : M → ℕ
  unpack : Bytes → Option (UInt16 × M)
  unpack_pack : ∀ id m, unpack (pack id m) = some (id,m)
  length_pack : ∀ id m, (pack id m).length = packedLength m
  header_le : ∀ m, 12 ≤ packedLength m
  packed_le : ∀ m, packedLength m ≤ plainLength m

variable {M : Type}

structure Message (codec : Codec M) where
  content : M
  compress : Bool
  fits : codec.packedLength content ≤ 65535

namespace Codec

variable (codec : Codec M)

def len (message : Message codec) : ℕ :=
  if message.compress then codec.packedLength message.content
  else codec.plainLength message.content

/-- The bytes that `WriteMessage` writes, where the memory of its buffer holds what it held before.
Packing takes a new buffer if it is not given one byte more than the message has without
compression; the message is then not in the buffer that is written. -/
def writeMessage (memory : ℕ → UInt8) (messageId : UInt16) (message : Message codec) : Bytes :=
  let requestLen := codec.len message
  let rawMessage := codec.pack messageId message.content
  let body :=
    if requestLen + 1 < codec.plainLength message.content + 1 then
      (List.range rawMessage.length).map memory
    else rawMessage
  bigEndian 2 (requestLen % 65536) ++ body

def readMessage (reader : BufReader) : Option ((UInt16 × M) × BufReader) :=
  match reader.readFull 2 with
  | none => none
  | some (header,reader) =>
    let responseLen := ofBigEndian 0 header
    if responseLen < 10 then none
    else
      match reader.readFull responseLen with
      | none => none
      | some (buffer,reader) => (codec.unpack buffer).map fun message => (message,reader)

def readMessages : ℕ → BufReader → Option (List (UInt16 × M) × BufReader)
  | 0, reader => some ([],reader)
  | n + 1, reader =>
    match codec.readMessage reader with
    | none => none
    | some (message,reader) => (readMessages n reader).map fun p => (message :: p.1,p.2)

/-- The writes of some messages one after the other, each from a buffer with memory of its own. -/
def stream : (ℕ → ℕ → UInt8) → List (UInt16 × Message codec) → Bytes
  | _, [] => []
  | memory, w :: later =>
    codec.writeMessage (memory 0) w.1 w.2 ++ stream (fun n => memory (n + 1)) later

/-- Every write has the length of the bytes that follow it, and the messages are read back, with
their ids and in order, however the bytes are delivered. -/
def RoundTrips (writes : List (UInt16 × Message codec)) : Prop :=
  (∀ w ∈ writes, ∀ memory, ofBigEndian 0 ((codec.writeMessage memory w.1 w.2).take 2) =
    ((codec.writeMessage memory w.1 w.2).drop 2).length) ∧
  ∀ memory rest (reader : BufReader), reader.content = codec.stream memory writes ++ rest →
    ∃ left, codec.readMessages writes.length reader =
      some (writes.map fun w => (w.1,w.2.content),left) ∧ left.content = rest

end Codec

/-- Compression saves nothing; or the message is not set to be compressed, and the bytes saved are a
multiple of 65536. -/
def Message.Framed {codec : Codec M} (message : Message codec) : Prop :=
  if message.compress then codec.plainLength message.content = codec.packedLength message.content
  else codec.plainLength message.content % 65536 = codec.packedLength message.content

lemma readFull_buffered (b buffered : Bytes) (pending : List Bytes) :
    BufReader.readFull b.length ⟨b ++ buffered,pending⟩ = some (b,⟨buffered,pending⟩) := by
  induction b with
  | nil => rfl
  | cons x b ih =>
    have hr : BufReader.readByte ⟨x :: b ++ buffered,pending⟩ =
        some (x,⟨b ++ buffered,pending⟩) := by
      cases pending <;> rfl
    simp only [List.length_cons,BufReader.readFull,hr,ih,Option.map_some]

namespace Codec

variable (codec : Codec M) {message : Message codec}

lemma ofBigEndian_length {b : Bytes} (h : b.length ≤ 65535) :
    ofBigEndian 0 (bigEndian 2 b.length) = b.length := by
  rw [ofBigEndian_bigEndian 2 b.length 0 (by omega)]
  omega

lemma readMessage_of_reads {r r₁ r₂ : BufReader} {body : Bytes} {m : UInt16 × M}
    (hh : r.readFull 2 = some (bigEndian 2 body.length,r₁))
    (hb : r₁.readFull body.length = some (body,r₂)) (hs : 10 ≤ body.length)
    (hfits : body.length ≤ 65535) (hu : codec.unpack body = some m) :
    codec.readMessage r = some (m,r₂) := by
  simp only [readMessage,hh,ofBigEndian_length hfits,if_neg (Nat.not_lt.mpr hs),hb,
    hu,Option.map_some]

lemma length_frame (id : UInt16) (message : Message codec) :
    10 ≤ (codec.pack id message.content).length ∧
      (codec.pack id message.content).length ≤ 65535 := by
  have hh := codec.header_le message.content
  have hfits := message.fits
  rw [codec.length_pack]
  omega

lemma readMessage_content {r : BufReader} {rest : Bytes} (id : UInt16) (message : Message codec)
    (h : r.content = bigEndian 2 (codec.pack id message.content).length ++
      codec.pack id message.content ++ rest) :
    ∃ r',codec.readMessage r = some ((id,message.content),r') ∧ r'.content = rest := by
  rw [List.append_assoc] at h
  obtain ⟨r₁,hh,hco,-⟩ := BufReader.readFull_append h
  obtain ⟨r₂,hb,hr,-⟩ := BufReader.readFull_append hco
  rw [length_bigEndian] at hh
  obtain ⟨hs,hfits⟩ := codec.length_frame id message
  exact ⟨r₂,codec.readMessage_of_reads hh hb hs hfits (codec.unpack_pack _ _),hr⟩

lemma readMessage_buffered (id : UInt16) (message : Message codec) (buffered : Bytes)
    (pending : List Bytes) :
    codec.readMessage ⟨bigEndian 2 (codec.pack id message.content).length ++
      (codec.pack id message.content ++ buffered),pending⟩ =
      some ((id,message.content),⟨buffered,pending⟩) := by
  have hh := readFull_buffered (bigEndian 2 (codec.pack id message.content).length)
    (codec.pack id message.content ++ buffered) pending
  rw [length_bigEndian] at hh
  obtain ⟨hs,hfits⟩ := codec.length_frame id message
  exact codec.readMessage_of_reads hh (readFull_buffered _ _ _) hs hfits (codec.unpack_pack _ _)

lemma writeMessage_of_framed (h : message.Framed) (memory : ℕ → UInt8) (id : UInt16) :
    codec.writeMessage memory id message = bigEndian 2 (codec.pack id message.content).length ++
      codec.pack id message.content := by
  have hfits := message.fits
  rw [Message.Framed] at h
  simp only [writeMessage,len,codec.length_pack]
  split_ifs at h ⊢ with hco hr hr
  · omega
  · rw [Nat.mod_eq_of_lt (by omega)]
  · omega
  · rw [h]

lemma framed_of_roundTrips {w : UInt16 × Message codec} {later : List (UInt16 × Message codec)}
    (h : codec.RoundTrips (w :: later)) : w.2.Framed := by
  have hfits := w.2.fits
  have hl := h.1 w (.head _) fun _ => 0
  rw [Message.Framed]
  split_ifs with hco
  · by_contra hs
    -- the buffer may hold the same message with another id
    let memory : ℕ → ℕ → UInt8 := fun _ k => (codec.pack (w.1 + 1) w.2.content).getD k 0
    have hb : codec.writeMessage (memory 0) w.1 w.2 =
        bigEndian 2 (codec.pack (w.1 + 1) w.2.content).length ++
          codec.pack (w.1 + 1) w.2.content := by
      have hle := codec.packed_le w.2.content
      have hr : codec.packedLength w.2.content + 1 < codec.plainLength w.2.content + 1 := by omega
      have hme : (List.range (codec.packedLength w.2.content)).map (memory 0) =
          codec.pack (w.1 + 1) w.2.content := by
        refine List.ext_getElem (by simp [codec.length_pack]) fun k _ hk => ?_
        simp [memory,List.getElem?_eq_getElem hk]
      simp only [writeMessage,len,hco,if_true,codec.length_pack,hr,hme]
      rw [Nat.mod_eq_of_lt (by omega)]
    obtain ⟨left,hre,-⟩ := h.2 memory [] ⟨codec.stream memory (w :: later),[]⟩ (by
      simp [BufReader.content])
    rw [stream,hb,List.append_assoc,List.length_cons,readMessages,codec.readMessage_buffered] at hre
    obtain ⟨p,-,hp⟩ := Option.map_eq_some_iff.mp hre
    have hid : w.1 + 1 = w.1 := congrArg (fun q => (q.1.head?.map Prod.fst).getD 0) hp
    simp at hid
  · have hr : ¬codec.plainLength w.2.content + 1 < codec.plainLength w.2.content + 1 := lt_irrefl _
    simp only [writeMessage,len,if_neg hco,if_neg hr] at hl
    have hlt : codec.plainLength w.2.content % 65536 < 256 ^ 2 := by omega
    rw [List.take_left' (length_bigEndian ..),List.drop_left' (length_bigEndian ..),
      ofBigEndian_bigEndian 2 _ 0 hlt,codec.length_pack] at hl
    omega

lemma length_of_framed (h : message.Framed) (memory : ℕ → UInt8) (id : UInt16) :
    ofBigEndian 0 ((codec.writeMessage memory id message).take 2) =
      ((codec.writeMessage memory id message).drop 2).length := by
  rw [codec.writeMessage_of_framed h,List.take_left' (length_bigEndian ..),
    List.drop_left' (length_bigEndian ..)]
  exact ofBigEndian_length (codec.length_frame id message).2

/-- Messages are written with their lengths and read back exactly if they are framed. -/
theorem roundTrips_iff (writes : List (UInt16 × Message codec)) :
    codec.RoundTrips writes ↔ ∀ w ∈ writes, w.2.Framed := by
  induction writes with
  | nil =>
    refine ⟨fun _ w hw => absurd hw List.not_mem_nil,fun _ => ⟨?_,?_⟩⟩
    · exact fun w hw => absurd hw List.not_mem_nil
    · exact fun memory rest reader h => ⟨reader,rfl,h⟩
  | cons w later ih =>
    rw [List.forall_mem_cons,← ih]
    constructor
    · intro h
      have hf := codec.framed_of_roundTrips h
      refine ⟨hf,fun x hx => h.1 x (.tail _ hx),fun memory rest reader hr => ?_⟩
      let frame := bigEndian 2 (codec.pack w.1 w.2.content).length ++
        (codec.pack w.1 w.2.content ++ reader.buffered)
      let before : ℕ → ℕ → UInt8 := fun n => memory (n - 1)
      have hco : BufReader.content ⟨frame,reader.pending⟩ =
          codec.stream before (w :: later) ++ rest := by
        rw [stream,codec.writeMessage_of_framed hf,List.append_assoc _ _ rest]
        simp only [before,Nat.add_sub_cancel]
        rw [← hr]
        simp [frame,BufReader.content]
      obtain ⟨left,hre,hle⟩ := h.2 before rest ⟨frame,reader.pending⟩ hco
      rw [List.length_cons,readMessages,codec.readMessage_buffered] at hre
      obtain ⟨⟨messages,left'⟩,hl,hp⟩ := Option.map_eq_some_iff.mp hre
      cases hp
      exact ⟨_,hl,hle⟩
    · rintro ⟨hf,hln,hra⟩
      refine ⟨?_,fun memory rest reader hr => ?_⟩
      · rw [List.forall_mem_cons]
        exact ⟨fun memory => codec.length_of_framed hf memory w.1,hln⟩
      · rw [stream,codec.writeMessage_of_framed hf,List.append_assoc _ _ rest] at hr
        obtain ⟨reader',hfi,hco⟩ := codec.readMessage_content w.1 w.2 hr
        obtain ⟨left,hl,hle⟩ := hra _ rest reader' hco
        refine ⟨left,?_,hle⟩
        simp only [List.length_cons,readMessages,hfi,hl,Option.map_some,List.map_cons]

end Codec

/-- Queries with one question, or with two questions for the same name. -/
inductive SampleQuery
  | one
  | two
deriving DecidableEq

/-- A query after its id: flags and counts, the first question, and for the second question a
pointer to the name of the first. -/
def SampleQuery.bytes : SampleQuery → Bytes
  | .one => [1,0,0,1,0,0,0,0,0,0,1,97,0,0,1,0,1]
  | .two => [1,0,0,2,0,0,0,0,0,0,1,97,0,0,1,0,1,192,12,0,28,0,1]

def sampleUnpack : Bytes → Option (UInt16 × SampleQuery)
  | high :: low :: rest =>
    let id := UInt16.ofNat (ofBigEndian 0 [high,low])
    if rest = SampleQuery.bytes .one then some (id,.one)
    else if rest = SampleQuery.bytes .two then some (id,.two) else none
  | _ => none

def sampleCodec : Codec SampleQuery where
  pack id query := bigEndian 2 id.toNat ++ query.bytes
  packedLength query := 2 + query.bytes.length
  plainLength
    | .one => 19
    | .two => 26
  unpack := sampleUnpack
  unpack_pack id query := by
    have hid : UInt16.ofNat (ofBigEndian 0 (bigEndian 2 id.toNat)) = id := by
      rw [ofBigEndian_bigEndian 2 id.toNat 0 id.toNat_lt]
      simp
    cases query
    · exact congrArg (fun id => some (id,SampleQuery.one)) hid
    · exact congrArg (fun id => some (id,SampleQuery.two)) hid
  length_pack id query := by rw [List.length_append,length_bigEndian]
  header_le query := by cases query <;> decide
  packed_le query := by cases query <;> decide

/-- Two questions for one name, not set to be compressed, are written with a length that is one more
than the bytes that follow; set to be compressed, they are not written at all. -/
theorem compressed_query_misframed :
    (∀ memory, sampleCodec.writeMessage memory 7 ⟨.two,false,by decide⟩ =
      [0,26] ++ sampleCodec.pack 7 .two ∧ (sampleCodec.pack 7 .two).length = 25) ∧
    sampleCodec.writeMessage (fun _ => 0) 7 ⟨.two,true,by decide⟩ =
      [0,25] ++ List.replicate 25 0 := by
  refine ⟨fun memory => ⟨rfl,rfl⟩,rfl⟩

end SingBoxAuth.DNSFraming
