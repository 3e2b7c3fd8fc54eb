import SingBoxAuth.ByteDecoders

/-! Trojan requests and packets: headers of computed length in the free room before a payload, and
the packets read back from the stream. -/
namespace SingBoxAuth.Trojan
open ByteReaders BufferedReading ByteDecoders Outcomes

inductive PacketError
  | address
  | shortBuffer

/-- The serializer of addresses: it round-trips and knows the length of what it writes. Not every
address can be written. -/
structure Serializer (A : Type) where
  writeAddrPort : A → Option Bytes
  addrPortLen : A → ℕ
  readAddrPort : Decoder PacketError A
  length_write : ∀ a b, writeAddrPort a = some b → b.length = addrPortLen a
  parse_write : ∀ a b rest, writeAddrPort a = some b →
    readAddrPort.parse 0 (b ++ rest) = (.ok a,rest)

/-- A buffer: the room before the data with what is in it, and the data. -/
structure Buffer where
  front : Bytes
  bytes : Bytes

def keyLength : ℕ := 56

def commandTCP : UInt8 := 1

def commandUDP : UInt8 := 3

def crlf : Bytes := [13,10]

/-- A write into a space of fixed size: what does not fit is dropped, a full space panics. -/
def writeInto (space : ℕ) (written data : Bytes) : Option Bytes :=
  if data = [] then some written
  else if written.length = space then none
  else some (written ++ data.take (space - written.length))

/-- ExtendHeader, and the pieces written into the extension one after the other. -/
def Buffer.extendHeader (buffer : Buffer) (n : ℕ) (pieces : List Bytes) : Option Buffer :=
  if n ≤ buffer.front.length then
    (pieces.foldlM (writeInto n) []).map fun header =>
      let start := buffer.front.length - n
      ⟨buffer.front.take start,header ++ (buffer.front.drop start).drop header.length ++ buffer.bytes⟩
  else none

section writing

variable {A : Type} (codec : Serializer A) (key : Bytes)

/-- The bytes that reach the connection; none is an error or a panic. -/
def clientHandshakeRaw (command : UInt8) (destination : A) (payload : Bytes) : Option Bytes := do
  let address ← codec.writeAddrPort destination
  some (key ++ crlf ++ [command] ++ address ++ crlf ++ if 0 < payload.length then payload else [])

def clientHandshake (destination : A) (payload : Bytes) : Option Bytes := do
  let headerLen := keyLength + codec.addrPortLen destination + 5
  let address ← codec.writeAddrPort destination
  [key,crlf,[commandTCP],address,crlf,payload].foldlM (writeInto (headerLen + payload.length)) []

def clientHandshakeBuffer (destination : A) (payload : Buffer) : Option Bytes := do
  let headerLen := keyLength + codec.addrPortLen destination + 5
  let address ← codec.writeAddrPort destination
  let payload ← payload.extendHeader headerLen [key,crlf,[commandTCP],address,crlf]
  some payload.bytes

def packetHeader (address : Bytes) (payloadLen : ℕ) : List Bytes :=
  [key,crlf,[commandUDP],address,crlf,address,bigEndian 2 (payloadLen % 65536),crlf]

/-- With enough room the header goes before the payload, otherwise into a buffer of its own. -/
def clientHandshakePacket (destination : A) (payload : Buffer) : Option Bytes := do
  let headerLen := keyLength + 2 * codec.addrPortLen destination + 9
  let address ← codec.writeAddrPort destination
  if headerLen ≤ payload.front.length then do
    let payload ← payload.extendHeader headerLen (packetHeader key address payload.bytes.length)
    some payload.bytes
  else do
    let header ← (packetHeader key address payload.bytes.length).foldlM (writeInto headerLen) []
    some (header ++ payload.bytes)

def writePacket (destination : A) (buffer : Buffer) : Option Bytes := do
  let address ← codec.writeAddrPort destination
  let buffer ← buffer.extendHeader (codec.addrPortLen destination + 4)
    [address,bigEndian 2 (buffer.bytes.length % 65536),crlf]
  some buffer.bytes

def writePackets (headerWritten : Bool) : List (A × Buffer) → Option Bytes
  | [] => some []
  | (destination,buffer) :: packets => do
    let sent ← if headerWritten then writePacket codec destination buffer
      else clientHandshakePacket codec key destination buffer
    let rest ← writePackets true packets
    some (sent ++ rest)

end writing

section reading

variable {A : Type} (codec : Serializer A)

/-- ReadPacket into a buffer with so much free space. -/
def readPacket (free : ℕ) : Decoder PacketError (A × Bytes) := do
  let destination ← codec.readAddrPort
  let length ← Decoder.bytes 2
  let _ ← Decoder.bytes 2
  if free < ofBigEndian 0 length then .fail (.other .shortBuffer)
  else do
    let payload ← Decoder.bytes (ofBigEndian 0 length)
    .done (destination,payload)

def readPackets : List ℕ → BufReader → List (Outcome (Fault PacketError) (A × Bytes))
  | [], _ => []
  | free :: frees, r =>
    ((readPacket codec free).run 0 r).1 :: readPackets frees ((readPacket codec free).run 0 r).2

end reading

section headers

variable {A : Type} {codec : Serializer A} {key address : Bytes} {destination : A}

lemma foldlM_writeInto {space : ℕ} (pieces : List Bytes) (written : Bytes)
    (h : written.length + pieces.flatten.length ≤ space) :
    pieces.foldlM (writeInto space) written = some (written ++ pieces.flatten) := by
  induction pieces generalizing written with
  | nil => simp
  | cons data pieces ih =>
    rw [List.flatten_cons,List.length_append] at h
    have hw : writeInto space written data = some (written ++ data) := by
      unfold writeInto
      split_ifs with hd hf
      · rw [hd,List.append_nil]
      · have hl := List.length_pos_iff.mpr hd
        omega
      · rw [List.take_of_length_le (by omega)]
    rw [List.foldlM_cons,hw,Option.bind_eq_bind,Option.bind_some,ih,List.flatten_cons,
      List.append_assoc]
    rw [List.length_append]
    omega

lemma Buffer.extendHeader_eq (buffer : Buffer) {n : ℕ} (pieces : List Bytes)
    (hr : n ≤ buffer.front.length) (hn : pieces.flatten.length = n) :
    ∃ front,buffer.extendHeader n pieces = some ⟨front,pieces.flatten ++ buffer.bytes⟩ := by
  have hd : ((buffer.front.drop (buffer.front.length - n)).drop pieces.flatten.length) = [] := by
    rw [List.drop_eq_nil_iff,List.length_drop]
    omega
  refine ⟨buffer.front.take (buffer.front.length - n),?_⟩
  rw [Buffer.extendHeader,if_pos hr,foldlM_writeInto _ _ (by simp [hn]),Option.map_some]
  simp only [List.nil_append,hd,List.append_nil]

lemma handshakes_eq {payload : Buffer} (hk : key.length = keyLength)
    (ha : codec.writeAddrPort destination = some address)
    (hr : keyLength + codec.addrPortLen destination + 5 ≤ payload.front.length) :
    clientHandshakeRaw codec key commandTCP destination payload.bytes =
        some (key ++ crlf ++ [commandTCP] ++ address ++ crlf ++ payload.bytes) ∧
      clientHandshake codec key destination payload.bytes =
        some (key ++ crlf ++ [commandTCP] ++ address ++ crlf ++ payload.bytes) ∧
      clientHandshakeBuffer codec key destination payload =
        some (key ++ crlf ++ [commandTCP] ++ address ++ crlf ++ payload.bytes) := by
  have hl := codec.length_write _ _ ha
  refine ⟨?_,?_,?_⟩
  · rw [clientHandshakeRaw,ha,Option.bind_eq_bind,Option.bind_some]
    split_ifs with hp
    · rfl
    · rw [List.length_pos_iff,not_not] at hp
      rw [hp]
  · rw [clientHandshake,ha,Option.bind_eq_bind,Option.bind_some,foldlM_writeInto]
    · simp
    · simp [crlf,hk,hl]
      omega
  · obtain ⟨front,hf⟩ := payload.extendHeader_eq
      [key,crlf,[commandTCP],address,crlf] hr (by simp [crlf,hk,hl]; omega)
    rw [clientHandshakeBuffer,ha,Option.bind_eq_bind,Option.bind_some,hf]
    simp

def frame (address payload : Bytes) : Bytes :=
  address ++ bigEndian 2 payload.length ++ crlf ++ payload

lemma writePacket_eq {buffer : Buffer} (ha : codec.writeAddrPort destination = some address)
    (hp : buffer.bytes.length ≤ 65535)
    (hr : codec.addrPortLen destination + 4 ≤ buffer.front.length) :
    writePacket codec destination buffer = some (frame address buffer.bytes) := by
  have hl := codec.length_write _ _ ha
  obtain ⟨front,hf⟩ := buffer.extendHeader_eq
    [address,bigEndian 2 (buffer.bytes.length % 65536),crlf] hr
    (by simp [crlf,hl,length_bigEndian])
  rw [writePacket,ha,Option.bind_eq_bind,Option.bind_some,hf]
  simp [frame,Nat.mod_eq_of_lt (Nat.lt_succ_of_le hp)]

/-- Both ways of the first packet write the request header and then the packet like any other. -/
lemma clientHandshakePacket_eq {payload : Buffer} (hk : key.length = keyLength)
    (ha : codec.writeAddrPort destination = some address) (hp : payload.bytes.length ≤ 65535) :
    clientHandshakePacket codec key destination payload =
      some (key ++ crlf ++ [commandUDP] ++ address ++ crlf ++ frame address payload.bytes) := by
  have hl := codec.length_write _ _ ha
  have hm : payload.bytes.length % 65536 = payload.bytes.length :=
    Nat.mod_eq_of_lt (Nat.lt_succ_of_le hp)
  have hn : (packetHeader key address payload.bytes.length).flatten.length =
      keyLength + 2 * codec.addrPortLen destination + 9 := by
    simp [packetHeader,crlf,hk,hl,length_bigEndian]
    omega
  rw [clientHandshakePacket,ha,Option.bind_eq_bind,Option.bind_some]
  split_ifs with hr
  · obtain ⟨front,hf⟩ := payload.extendHeader_eq _ hr hn
    rw [hf]
    simp [frame,packetHeader,hm]
  · rw [foldlM_writeInto _ _ (by simp [hn])]
    simp [frame,packetHeader,hm]

end headers

section packets

variable {A : Type} {codec : Serializer A}

lemma parse_readPacket {destination : A} {address payload : Bytes} {free : ℕ}
    (ha : codec.writeAddrPort destination = some address) (hp : payload.length ≤ 65535)
    (hf : payload.length ≤ free) (rest : Bytes) :
    (readPacket codec free).parse 0 (frame address payload ++ rest) =
      (.ok (destination,payload),rest) := by
  have hb : (Decoder.bytes (bigEndian 2 payload.length).length : Decoder PacketError Bytes).parse 0
      (bigEndian 2 payload.length ++ (crlf ++ (payload ++ rest))) =
      (.ok (bigEndian 2 payload.length),crlf ++ (payload ++ rest)) := Decoder.parse_bytes ..
  have hc : (Decoder.bytes 2 : Decoder PacketError Bytes).parse 0 (crlf ++ (payload ++ rest)) =
      (.ok crlf,payload ++ rest) := Decoder.parse_bytes crlf (payload ++ rest)
  rw [length_bigEndian] at hb
  rw [readPacket,frame,List.append_assoc,List.append_assoc,List.append_assoc,
    Decoder.parse_bind_of_ok (codec.parse_write _ _ _ ha),Decoder.parse_bind_of_ok hb,
    Decoder.parse_bind_of_ok hc,ofBigEndian_bigEndian 2 _ 0 (Nat.lt_succ_of_le hp),
    Nat.zero_mul,Nat.zero_add,if_neg (by omega),
    Decoder.parse_bind_of_ok (Decoder.parse_bytes payload rest)]
  rfl

/-- A packet that can be written: its address serialises and its length fits two bytes. -/
def Writable (codec : Serializer A) (p : A × Buffer) : Prop :=
  (codec.writeAddrPort p.1).isSome ∧ p.2.bytes.length ≤ 65535

def Framed (codec : Serializer A) : List (A × Buffer) → Bytes → Prop
  | [], stream => stream = []
  | p :: packets, stream => ∃ address rest, codec.writeAddrPort p.1 = some address ∧
    p.2.bytes.length ≤ 65535 ∧ stream = frame address p.2.bytes ++ rest ∧ Framed codec packets rest

lemma writePackets_framed (key : Bytes) {packets : List (A × Buffer)}
    (hs : ∀ p ∈ packets,Writable codec p)
    (hr : ∀ p ∈ packets,codec.addrPortLen p.1 + 4 ≤ p.2.front.length) :
    ∃ stream,writePackets codec key true packets = some stream ∧ Framed codec packets stream := by
  induction packets with
  | nil => exact ⟨[],rfl,rfl⟩
  | cons p packets ih =>
    rw [List.forall_mem_cons] at hs hr
    obtain ⟨rest,hw,hf⟩ := ih hs.2 hr.2
    obtain ⟨address,ha⟩ := Option.isSome_iff_exists.mp hs.1.1
    refine ⟨frame address p.2.bytes ++ rest,?_,address,rest,ha,hs.1.2,rfl,hf⟩
    rw [writePackets,if_pos rfl,writePacket_eq ha hs.1.2 hr.1,hw]
    rfl

lemma readPackets_framed {packets : List (A × Buffer)} {r : BufReader} {frees : List ℕ}
    (h : Framed codec packets r.content)
    (hf : List.Forall₂ (fun free p => p.2.bytes.length ≤ free) frees packets) :
    readPackets codec frees r = packets.map fun p => .ok (p.1,p.2.bytes) := by
  induction hf generalizing r with
  | nil => rfl
  | cons hfree hf ih =>
    obtain ⟨address,rest,ha,hp,hc,h⟩ := h
    have hx := parse_readPacket ha hp hfree rest
    rw [← hc] at hx
    obtain ⟨r',hr,rfl⟩ := Decoder.run_of_parse hx
    rw [readPackets,hr,List.map_cons,ih h]

/-- Packets written by one connection are read back in order however the stream is cut, and the
encoders of a TCP request write the same bytes. -/
theorem packets_roundTrip (codec : Serializer A) (key : Bytes) (hk : key.length = keyLength)
    (first : A × Buffer) (packets : List (A × Buffer))
    (hs : ∀ p ∈ first :: packets, Writable codec p)
    (hr : ∀ p ∈ packets, codec.addrPortLen p.1 + 4 ≤ p.2.front.length) :
    (∃ address stream, codec.writeAddrPort first.1 = some address ∧
      writePackets codec key false (first :: packets) =
        some (key ++ crlf ++ [commandUDP] ++ address ++ crlf ++ stream) ∧
      ∀ (reads : List Bytes) (frees : List ℕ), reads.flatten = stream →
        List.Forall₂ (fun free p => p.2.bytes.length ≤ free) frees (first :: packets) →
        readPackets codec frees ⟨[],reads⟩ =
          (first :: packets).map fun p => .ok (p.1,p.2.bytes)) ∧
    ∀ (destination : A) (payload : Buffer), (codec.writeAddrPort destination).isSome →
      keyLength + codec.addrPortLen destination + 5 ≤ payload.front.length →
      ∃ bytes, clientHandshakeRaw codec key commandTCP destination payload.bytes = some bytes ∧
        clientHandshake codec key destination payload.bytes = some bytes ∧
        clientHandshakeBuffer codec key destination payload = some bytes := by
  constructor
  · rw [List.forall_mem_cons] at hs
    obtain ⟨address,ha⟩ := Option.isSome_iff_exists.mp hs.1.1
    obtain ⟨rest,hw,hf⟩ := writePackets_framed key hs.2 hr
    refine ⟨address,frame address first.2.bytes ++ rest,ha,?_,fun reads frees hd hfr => ?_⟩
    · rw [writePackets,clientHandshakePacket_eq hk ha hs.1.2,hw]
      simp
    · exact readPackets_framed ⟨address,rest,ha,hs.1.2,hd,hf⟩ hfr
  · intro destination payload hd hroom
    obtain ⟨address,ha⟩ := Option.isSome_iff_exists.mp hd
    exact ⟨_,handshakes_eq hk ha hroom⟩

/-- Addresses of one byte, of which zero cannot be written. -/
def byteSerializer : Serializer UInt8 where
  writeAddrPort a := if a = 0 then none else some [a]
  addrPortLen _ := 1
  readAddrPort := Decoder.readByte
  length_write a b h := by
    split_ifs at h
    cases h
    rfl
  parse_write a b rest h := by
    split_ifs at h
    cases h
    rfl

theorem packets_roundTrip_two :
    (∃ address stream, byteSerializer.writeAddrPort 7 = some address ∧
      writePackets byteSerializer (List.replicate 56 48) false
          [(7,⟨[],[1,2]⟩),(8,⟨[0,0,0,0,0],[]⟩)] =
        some (List.replicate 56 48 ++ crlf ++ [commandUDP] ++ address ++ crlf ++ stream) ∧
      ∀ (reads : List Bytes) (frees : List ℕ), reads.flatten = stream →
        List.Forall₂ (fun free p => p.2.bytes.length ≤ free) frees
          [((7 : UInt8),(⟨[],[1,2]⟩ : Buffer)),(8,⟨[0,0,0,0,0],[]⟩)] →
        readPackets byteSerializer frees ⟨[],reads⟩ = [.ok (7,[1,2]),.ok (8,[])]) :=
  (packets_roundTrip byteSerializer (List.replicate 56 48) rfl (7,⟨[],[1,2]⟩)
    [(8,⟨[0,0,0,0,0],[]⟩)] (by simp [Writable,byteSerializer])
    (by decide)).1

end packets

end SingBoxAuth.Trojan
