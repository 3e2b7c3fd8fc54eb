import SingBoxAuth.BufferedReading

/-! What follows a header: the WebSocket and HTTPUpgrade clients and the trojan multiplex streams
read a header through a buffered reader and hand the connection on. -/
namespace SingBoxAuth.StreamHeader
open ByteReaders BufferedReading

structure Buffer where
  data : Bytes
  size : ℕ

def Buffer.newSize (size : ℕ) : Buffer := ⟨[],size⟩

def Buffer.len (b : Buffer) : ℕ := b.data.length

/-- A connection with bytes to be delivered before those of its own reads. -/
structure Conn where
  cached : Bytes
  pending : List Bytes

def Conn.delivers (c : Conn) : Bytes := c.cached ++ c.pending.flatten

def newCachedConn (conn : Conn) (buffer : Buffer) : Conn :=
  { conn with cached := buffer.data ++ conn.cached }

section Clients

variable {E R D : Type} (eof : E)

def Buffer.readFullFrom (b : Buffer) (r : BufReader) (k : ℕ) : Except E (Buffer × BufReader) :=
  match r.readFull k with
  | none => .error eof
  | some (data,r) => .ok ({ b with data := b.data ++ data },r)

/-- The lines all three share: a buffer for what is left in the reader, in front of the
connection. -/
def keepBuffered (reader : BufReader) : Except E Conn :=
  let buffer := Buffer.newSize reader.buffered.length
  match buffer.readFullFrom eof reader buffer.len with
  | .error err => .error err
  | .ok (buffer,reader) => .ok (newCachedConn ⟨[],reader.pending⟩ buffer)

/-- `Client.dialContext` of the WebSocket transport. The upgrade returns its reader only if
something is left in it; frames are read from the connection returned here. -/
def webSocketDialContext (dial : Except E (List Bytes)) (upgrade : Demand E Unit) :
    Except E Conn :=
  match dial with
  | .error err => .error err
  | .ok reads =>
    match upgrade.run ⟨[],reads⟩ with
    | .error err => .error err
    | .ok ((),reader) =>
      if reader.buffered.length > 0 then keepBuffered eof reader else .ok ⟨[],reader.pending⟩

def httpUpgradeDialContext (dial : Except E (List Bytes)) (write : Except E Unit)
    (readResponse : Demand E R) (upgraded : R → Bool) (unexpectedStatus : R → E) :
    Except E Conn :=
  match dial with
  | .error err => .error err
  | .ok reads =>
    match write with
    | .error err => .error err
    | .ok () =>
      match readResponse.run ⟨[],reads⟩ with
      | .error err => .error err
      | .ok (response,reader) =>
        if !upgraded response then .error (unexpectedStatus response)
        else if reader.buffered.length > 0 then keepBuffered eof reader
        else .ok ⟨[],reader.pending⟩

def commandTCP : UInt8 := 1
def commandUDP : UInt8 := 3

inductive Handed (D : Type)
  | connection (conn : Conn) (destination : D)
  | packetConnection (conn : Conn) (destination : D)

def Handed.conn : Handed D → Conn
  | .connection conn _ => conn
  | .packetConnection conn _ => conn

def newMuxConnection0 (reads : List Bytes) (readAddrPort : Demand E D)
    (unknownCommand : UInt8 → E) : Except E (Handed D) :=
  match (BufReader.mk [] reads).readByte with
  | none => .error eof
  | some (command,reader) =>
    match readAddrPort.run reader with
    | .error err => .error err
    | .ok (destination,reader) =>
      match (if reader.buffered.length > 0 then keepBuffered eof reader
        else .ok ⟨[],reader.pending⟩) with
      | .error err => .error err
      | .ok conn =>
        if command = commandTCP then .ok (.connection conn destination)
        else if command = commandUDP then .ok (.packetConnection conn destination)
        else .error (unknownCommand command)

lemma keepBuffered_eq (reader : BufReader) :
    keepBuffered eof reader = .ok ⟨[],reader.pending⟩ := rfl

lemma delivers_rest_iff {reads : List Bytes} {reader : BufReader} (h : reader.Within reads) :
    (Conn.mk [] reader.pending).delivers = reader.content ↔
      ∃ k,(reads.drop k).flatten = reader.content := by
  rw [← h.buffered_eq_nil_iff,Conn.delivers,BufReader.content,List.nil_append]
  exact List.self_eq_append_left

/-- For each of the three, whatever the header looks like and however the stream is cut into reads:
the connection handed on delivers exactly the bytes after the header if and only if the header ends
where a read ends. -/
theorem header_rest_delivered_iff (E R D : Type) (eof : E) :
    (∀ (upgrade : Demand E Unit) (reads : List Bytes) (rest : Bytes),
      upgrade.parse reads.flatten = .ok ((),rest) →
        ((∃ conn, webSocketDialContext eof (.ok reads) upgrade = .ok conn ∧
          conn.delivers = rest) ↔ ∃ k, (reads.drop k).flatten = rest)) ∧
    (∀ (readResponse : Demand E R) (upgraded : R → Bool) (unexpectedStatus : R → E)
        (reads : List Bytes) (response : R) (rest : Bytes),
      readResponse.parse reads.flatten = .ok (response,rest) → upgraded response = true →
        ((∃ conn, httpUpgradeDialContext eof (.ok reads) (.ok ()) readResponse upgraded
          unexpectedStatus = .ok conn ∧ conn.delivers = rest) ↔
            ∃ k, (reads.drop k).flatten = rest)) ∧
    (∀ (readAddrPort : Demand E D) (unknownCommand : UInt8 → E) (reads : List Bytes)
        (command : UInt8) (input : Bytes) (destination : D) (rest : Bytes),
      reads.flatten = command :: input → readAddrPort.parse input = .ok (destination,rest) →
        command = commandTCP ∨ command = commandUDP →
        ((∃ handed, newMuxConnection0 eof reads readAddrPort unknownCommand = .ok handed ∧
          handed.conn.delivers = rest) ↔ ∃ k, (reads.drop k).flatten = rest)) := by
  refine ⟨?_,?_,?_⟩
  · intro upgrade reads rest hp
    obtain ⟨reader,hr,rfl,hw⟩ := Demand.run_of_parse (BufReader.within_start reads) hp
    rw [← delivers_rest_iff hw]
    simp [webSocketDialContext,hr,keepBuffered_eq]
  · intro readResponse upgraded unexpectedStatus reads response rest hp hu
    obtain ⟨reader,hr,rfl,hw⟩ := Demand.run_of_parse (BufReader.within_start reads) hp
    rw [← delivers_rest_iff hw]
    simp [httpUpgradeDialContext,hr,hu,keepBuffered_eq]
  · intro readAddrPort unknownCommand reads command input destination rest hra hp hco
    have hstart := BufReader.within_start reads
    obtain ⟨first,hre,rfl⟩ := BufReader.readByte_of_cons
      (show (BufReader.mk [] reads).content = command :: input from hra)
    obtain ⟨reader,hr,rfl,hw⟩ := Demand.run_of_parse (hstart.readByte hre) hp
    rw [← delivers_rest_iff hw]
    rcases hco with rfl | rfl
    · simp [newMuxConnection0,hre,hr,keepBuffered_eq,Handed.conn]
    · simp [newMuxConnection0,hre,hr,keepBuffered_eq,Handed.conn,commandTCP,commandUDP]

end Clients

def fixedHeader : ℕ → Demand Unit Unit
  | 0 => .done ()
  | n + 1 => .byte () fun _ => fixedHeader n

/-- The header comes in two reads and the data in a third one. -/
theorem data_in_own_read_delivered :
    ∃ handed, newMuxConnection0 () [[1,1],[2,3],[7,8,9]] (fixedHeader 3) (fun _ => ()) =
      .ok handed ∧ handed.conn.delivers = [7,8,9] :=
  ((header_rest_delivered_iff Unit Unit Unit ()).2.2 (fixedHeader 3) (fun _ => ())
    [[1,1],[2,3],[7,8,9]] 1 [1,2,3,7,8,9] () [7,8,9] rfl rfl (.inl rfl)).mpr
    ⟨2,rfl⟩

/-- Where the first data comes with the header, all three lose it. -/
theorem data_after_header_lost :
    (∃ conn, webSocketDialContext () (.ok [[1,1,2,3,7,8,9]]) (fixedHeader 4) = .ok conn ∧
      conn.delivers = []) ∧
    (∃ conn, httpUpgradeDialContext () (.ok [[1,1,2,3,7,8,9]]) (.ok ()) (fixedHeader 4)
      (fun _ => true) (fun _ => ()) = .ok conn ∧ conn.delivers = []) ∧
    ∃ handed, newMuxConnection0 () [[1,1,2,3,7,8,9]] (fixedHeader 3) (fun _ => ()) =
      .ok handed ∧ handed.conn.delivers = [] :=
  ⟨⟨_,rfl,rfl⟩,⟨_,rfl,rfl⟩,_,rfl,rfl⟩

end SingBoxAuth.StreamHeader
