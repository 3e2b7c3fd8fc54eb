import SingBoxAuth.ByteReaders
import SingBoxAuth.Transitions

/-! What a quota packet connection charges. The packet connection below it is arbitrary: a write
takes the buffer over and may put headers in front of it and release it before it returns. -/
namespace SingBoxAuth.TrafficQuota
open ByteReaders Transitions

/-- A packet buffer: the free room in front, the bytes, and whether its memory is pooled. -/
structure PacketBuffer where
  headroom : ℕ
  bytes : Bytes
  managed : Bool
  deriving DecidableEq

namespace PacketBuffer

def len (buffer : PacketBuffer) : ℕ := buffer.bytes.length

/-- ExtendHeader, and the header written into the extension. It panics without room. -/
def extendHeader (buffer : PacketBuffer) (header : Bytes) : Option PacketBuffer :=
  if header.length ≤ buffer.headroom then
    some { buffer with
      headroom := buffer.headroom - header.length
      bytes := header ++ buffer.bytes }
  else none

/-- Pooled memory goes back to the pool; other buffers stay as they are. -/
def release (buffer : PacketBuffer) : PacketBuffer :=
  if buffer.managed then ⟨0,[],false⟩ else buffer

def empty (headroom : ℕ) : PacketBuffer := ⟨headroom,[],true⟩

end PacketBuffer

/-- A packet connection: what a call answers, which state it leaves the connection in and how it
leaves the buffer. -/
structure PacketConn (State Address Failure : Type) where
  readPacket : State → PacketBuffer → State × Except Failure Address × PacketBuffer
  writePacket : State → PacketBuffer → Address → State × Except Failure Unit × PacketBuffer

inductive QuotaFailure (Failure : Type)
  | quotaExceeded
  | below (failure : Failure)

/-- The connection, with the state of the one below it and the arguments of onBytes so far. -/
structure QuotaPacketConn (State : Type) where
  packetConn : State
  closed : Bool
  onBytes : List ℕ

variable {State Address Failure : Type}

namespace QuotaPacketConn

/-- The count is taken from the buffer as the connection below left it. -/
def count (c : QuotaPacketConn State) (left : PacketBuffer) : QuotaPacketConn State :=
  if 0 < left.len then { c with onBytes := c.onBytes ++ [left.len] } else c

def readPacket (conn : PacketConn State Address Failure) (c : QuotaPacketConn State)
    (buffer : PacketBuffer) :
    QuotaPacketConn State × Except (QuotaFailure Failure) Address × PacketBuffer :=
  if c.closed then (c,.error .quotaExceeded,buffer)
  else
    match conn.readPacket c.packetConn buffer with
    | (state,.ok destination,left) =>
      ({ c with packetConn := state }.count left,.ok destination,left)
    | (state,.error failure,left) =>
      ({ c with packetConn := state },.error (.below failure),left)

def writePacket (conn : PacketConn State Address Failure) (c : QuotaPacketConn State)
    (buffer : PacketBuffer) (destination : Address) :
    QuotaPacketConn State × Except (QuotaFailure Failure) Unit × PacketBuffer :=
  if c.closed then (c,.error .quotaExceeded,buffer)
  else
    match conn.writePacket c.packetConn buffer destination with
    | (state,.ok (),left) => ({ c with packetConn := state }.count left,.ok (),left)
    | (state,.error failure,left) =>
      ({ c with packetConn := state },.error (.below failure),left)

end QuotaPacketConn

/-- A call of a packet connection: a read into an empty buffer, or a write. -/
inductive PacketCall (Address : Type)
  | read (headroom : ℕ)
  | write (buffer : PacketBuffer) (destination : Address)

def PacketConn.step (conn : PacketConn State Address Failure) (s : State) :
    PacketCall Address → State → Prop
  | .read headroom, t =>
    ∃ source left, conn.readPacket s (.empty headroom) = (t,.ok source,left)
  | .write buffer destination, t =>
    ∃ left, conn.writePacket s buffer destination = (t,.ok (),left)

/-- A write leaves the buffer with the length it was handed with, in every state that successful
calls lead to. -/
def PacketConn.KeepsLength (conn : PacketConn State Address Failure) (start : State) : Prop :=
  ∀ s, Reaches conn.step anyStep start s → ∀ buffer destination t left,
    conn.writePacket s buffer destination = (t,.ok (),left) → left.len = buffer.len

namespace QuotaPacketConn

/-- A successful call, and the length of the payload that the caller has read or handed in. -/
inductive Exchange (conn : PacketConn State Address Failure) (c : QuotaPacketConn State) :
    PacketCall Address → QuotaPacketConn State → ℕ → Prop
  | read {headroom : ℕ} {c' : QuotaPacketConn State} {source : Address} {left : PacketBuffer} :
      c.readPacket conn (.empty headroom) = (c',.ok source,left) →
      Exchange conn c (.read headroom) c' left.len
  | write {buffer : PacketBuffer} {destination : Address} {c' : QuotaPacketConn State}
      {left : PacketBuffer} :
      c.writePacket conn buffer destination = (c',.ok (),left) →
      Exchange conn c (.write buffer destination) c' buffer.len

/-- A sequence of successful calls, and the length of all payloads. -/
inductive Exchanges (conn : PacketConn State Address Failure) (c : QuotaPacketConn State) :
    QuotaPacketConn State → ℕ → Prop
  | none : Exchanges conn c c 0
  | more {c' c'' : QuotaPacketConn State} {payload n : ℕ} {call : PacketCall Address} :
      Exchanges conn c c' payload → Exchange conn c' call c'' n →
      Exchanges conn c c'' (payload + n)

variable {conn : PacketConn State Address Failure} {c c' : QuotaPacketConn State}

@[simp] lemma count_packetConn (left : PacketBuffer) : (c.count left).packetConn = c.packetConn := by
  unfold count
  split_ifs <;> rfl

@[simp] lemma count_closed (left : PacketBuffer) : (c.count left).closed = c.closed := by
  unfold count
  split_ifs <;> rfl

@[simp] lemma count_sum (left : PacketBuffer) :
    (c.count left).onBytes.sum = c.onBytes.sum + left.len := by
  unfold count
  split_ifs with h
  · simp
  · omega

lemma readPacket_ok {buffer left : PacketBuffer} {source : Address}
    (h : c.readPacket conn buffer = (c',.ok source,left)) :
    ∃ state,conn.readPacket c.packetConn buffer = (state,.ok source,left) ∧
      c' = { c with packetConn := state }.count left := by
  unfold readPacket at h
  split_ifs at h with hcl
  · simp at h
  · split at h
    · rename_i state destination left' hr
      simp only [Prod.mk.injEq,Except.ok.injEq] at h
      obtain ⟨rfl,rfl,rfl⟩ := h
      exact ⟨state,hr,rfl⟩
    · simp at h

lemma writePacket_ok {buffer left : PacketBuffer} {destination : Address}
    (h : c.writePacket conn buffer destination = (c',.ok (),left)) :
    ∃ state,conn.writePacket c.packetConn buffer destination = (state,.ok (),left) ∧
      c' = { c with packetConn := state }.count left := by
  unfold writePacket at h
  split_ifs at h with hcl
  · simp at h
  · split at h
    · rename_i state left' hw
      simp only [Prod.mk.injEq,true_and] at h
      obtain ⟨rfl,rfl⟩ := h
      exact ⟨state,hw,rfl⟩
    · simp at h

lemma writePacket_of_below {buffer left : PacketBuffer} {destination : Address} {state : State}
    (ho : c.closed = false)
    (h : conn.writePacket c.packetConn buffer destination = (state,.ok (),left)) :
    c.writePacket conn buffer destination =
      ({ c with packetConn := state }.count left,.ok (),left) := by
  simp only [writePacket,ho,Bool.false_eq_true,if_false,h]

lemma readPacket_of_below {buffer left : PacketBuffer} {source : Address} {state : State}
    (ho : c.closed = false)
    (h : conn.readPacket c.packetConn buffer = (state,.ok source,left)) :
    c.readPacket conn buffer = ({ c with packetConn := state }.count left,.ok source,left) := by
  simp only [readPacket,ho,Bool.false_eq_true,if_false,h]

lemma Exchange.lower {call : PacketCall Address} {n : ℕ} (h : Exchange conn c call c' n) :
    conn.step c.packetConn call c'.packetConn ∧ c'.closed = c.closed := by
  cases h with
  | read h =>
    obtain ⟨state,hr,rfl⟩ := readPacket_ok h
    simp only [count_packetConn,count_closed,and_true]
    exact ⟨_,_,hr⟩
  | write h =>
    obtain ⟨state,hw,rfl⟩ := writePacket_ok h
    simp only [count_packetConn,count_closed,and_true]
    exact ⟨_,hw⟩

lemma Exchanges.lower {payload : ℕ} (h : Exchanges conn c c' payload) :
    Reaches conn.step anyStep c.packetConn c'.packetConn ∧ c'.closed = c.closed := by
  induction h with
  | none => exact ⟨.start,rfl⟩
  | more _ hl ih =>
    obtain ⟨hs,hcl⟩ := hl.lower
    exact ⟨.step ih.1 hs trivial,hcl.trans ih.2⟩

lemma Exchanges.of_reaches (ho : c.closed = false) {s : State}
    (h : Reaches conn.step anyStep c.packetConn s) :
    ∃ c' payload,Exchanges conn c c' payload ∧ c'.packetConn = s := by
  induction h with
  | start => exact ⟨c,0,.none,rfl⟩
  | @step s t call _ hs _ ih =>
    obtain ⟨c',payload,hca,rfl⟩ := ih
    have ho' : c'.closed = false := hca.lower.2.trans ho
    cases call with
    | read headroom =>
      obtain ⟨source,left,hr⟩ := hs
      refine ⟨_,_,.more hca (.read (readPacket_of_below ho' hr)),?_⟩
      simp
    | write buffer destination =>
      obtain ⟨left,hw⟩ := hs
      refine ⟨_,_,.more hca (.write (writePacket_of_below ho' hw)),?_⟩
      simp

lemma Exchange.charged {call : PacketCall Address} {n : ℕ} (h : Exchange conn c call c' n)
    (hk : ∀ buffer destination t left,
      conn.writePacket c.packetConn buffer destination = (t,.ok (),left) →
        left.len = buffer.len) :
    c'.onBytes.sum = c.onBytes.sum + n := by
  cases h with
  | read h =>
    obtain ⟨state,-,rfl⟩ := readPacket_ok h
    rw [count_sum]
  | write h =>
    obtain ⟨state,hw,rfl⟩ := writePacket_ok h
    rw [count_sum,hk _ _ _ _ hw]

/-- Every sequence of successful calls on a connection that is not marked is charged exactly its
payloads if and only if the writes below leave each buffer with the length it was handed with. -/
theorem charged_exactly_iff (conn : PacketConn State Address Failure) (c : QuotaPacketConn State)
    (hopen : c.closed = false) :
    (∀ c' payload, Exchanges conn c c' payload →
      c'.onBytes.sum = c.onBytes.sum + payload) ↔ conn.KeepsLength c.packetConn := by
  constructor
  · intro he s hs buffer destination t left hw
    obtain ⟨c',payload,hca,rfl⟩ := Exchanges.of_reaches hopen hs
    have ho' : c'.closed = false := hca.lower.2.trans hopen
    have hb := he _ _ hca
    have ha := he _ _ (hca.more (.write (writePacket_of_below ho' hw)))
    rw [count_sum] at ha
    dsimp only at ha
    omega
  · intro hk c' payload hca
    induction hca with
    | none => simp
    | more hca hl ih =>
      have hst := hl.charged (hk _ hca.lower.1)
      omega

end QuotaPacketConn

/-- The packet writer of Trojan over a stream: address, length and line end go in front of the
payload, and the buffer is released whatever the stream answers. The panic of a buffer without room
for the header is one more failure. Nothing is read. -/
def trojanPacketConn (stream : Bytes → Option String) :
    PacketConn (List Bytes) Bytes String where
  readPacket written buffer := (written,.error "read destination",buffer)
  writePacket written buffer destination :=
    let length := [UInt8.ofNat (buffer.len / 256),UInt8.ofNat buffer.len]
    match buffer.extendHeader (destination ++ length ++ [13,10]) with
    | none => (written,.error "panic",buffer)
    | some packet =>
      match stream packet.bytes with
      | some failure => (written,.error ("write packet: " ++ failure),packet.release)
      | none => (written ++ [packet.bytes],.ok (),packet.release)

def plainPacketConn : PacketConn (List Bytes) Bytes String where
  readPacket written buffer := (written,.ok [],{ buffer with bytes := [1,2,3] })
  writePacket written buffer _ := (written ++ [buffer.bytes],.ok (),buffer)

lemma plainPacketConn_keepsLength (start : List Bytes) : plainPacketConn.KeepsLength start := by
  intro s _ buffer destination t left h
  cases h
  rfl

theorem charged_exactly_plain :
    plainPacketConn.KeepsLength [] ∧ ∃ c' : QuotaPacketConn (List Bytes),
      QuotaPacketConn.Exchanges plainPacketConn ⟨[],false,[]⟩ c' 8 ∧ c'.onBytes = [3,5] ∧
        c'.onBytes.sum = 8 := by
  have hr : QuotaPacketConn.Exchange plainPacketConn ⟨[],false,[]⟩ (.read 0)
      ⟨[],false,[3]⟩ (PacketBuffer.mk 0 [1,2,3] true).len := .read rfl
  have hw : QuotaPacketConn.Exchange plainPacketConn ⟨[],false,[3]⟩
      (.write ⟨0,[9,8,7,6,5],true⟩ []) ⟨[[9,8,7,6,5]],false,[3,5]⟩ 5 := .write rfl
  have hca := QuotaPacketConn.Exchanges.more (.more .none hr) hw
  refine ⟨plainPacketConn_keepsLength [],_,hca,rfl,?_⟩
  have hs := (QuotaPacketConn.charged_exactly_iff plainPacketConn ⟨[],false,[]⟩ rfl).mpr
    (plainPacketConn_keepsLength []) _ _ hca
  simpa using hs

/-- Five bytes sent through the Trojan writer are not charged at all: the buffer is released when
its length is read. A buffer that is not pooled is charged with its header. -/
theorem trojan_packets_uncharged : (∃ c' : QuotaPacketConn (List Bytes),
      QuotaPacketConn.Exchanges (trojanPacketConn fun _ => none) ⟨[],false,[]⟩ c' 5 ∧
        c'.onBytes = []) ∧
    ∃ c' : QuotaPacketConn (List Bytes),
      QuotaPacketConn.Exchanges (trojanPacketConn fun _ => none) ⟨[],false,[]⟩ c' 5 ∧
        c'.onBytes = [16] := by
  have hp : QuotaPacketConn.Exchange (trojanPacketConn fun _ => none) ⟨[],false,[]⟩
      (.write ⟨32,[9,8,7,6,5],true⟩ [1,127,0,0,1,0,53])
      ⟨[[1,127,0,0,1,0,53,0,5,13,10,9,8,7,6,5]],false,[]⟩ 5 := .write rfl
  have hpl : QuotaPacketConn.Exchange (trojanPacketConn fun _ => none) ⟨[],false,[]⟩
      (.write ⟨32,[9,8,7,6,5],false⟩ [1,127,0,0,1,0,53])
      ⟨[[1,127,0,0,1,0,53,0,5,13,10,9,8,7,6,5]],false,[16]⟩ 5 := .write rfl
  exact ⟨⟨_,.more .none hp,rfl⟩,⟨_,.more .none hpl,rfl⟩⟩

end SingBoxAuth.TrafficQuota
