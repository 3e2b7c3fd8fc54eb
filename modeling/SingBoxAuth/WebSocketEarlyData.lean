import Mathlib.Data.List.Basic
import SingBoxAuth.ByteReaders

/-! Early data of a WebSocket connection: what the client puts into the request and into frames,
and the bytes that the server's handler reads. -/
namespace SingBoxAuth.EarlyData
open ByteReaders

abbrev Text := List Char

def unreserved (c : Char) : Bool :=
  c.isAlphanum || c == '-' || c == '_' || c == '.' || c == '~' || c == '/'

/-- A text form of bytes that can stand in a path. -/
structure Codec where
  encode : Bytes → Text
  decode : Text → Option Bytes
  decode_encode : ∀ b, decode (encode b) = some b
  encode_nil : encode [] = []
  encode_unreserved : ∀ b, ∀ c ∈ encode b, unreserved c = true

lemma Codec.encode_injective (codec : Codec) : Function.Injective codec.encode := by
  intro a b h
  have hd := congrArg codec.decode h
  rw [codec.decode_encode,codec.decode_encode] at hd
  exact Option.some.inj hd

/-- Names are in their canonical form. -/
abbrev Header := List (Text × Text)

namespace Header

def get (h : Header) (name : Text) : Text := ((h.find? (·.1 = name)).map (·.2)).getD []

def del (h : Header) (name : Text) : Header := h.filter (·.1 ≠ name)

def set (h : Header) (name value : Text) : Header := (name,value) :: h.del name

def names (h : Header) : List Text := h.map (·.1)

lemma get_append {h h' : Header} {name : Text} (hn : name ∉ h.names) :
    get (h ++ h') name = h'.get name := by
  have hf : h.find? (·.1 = name) = none := by
    rw [List.find?_eq_none]
    intro x hx he
    exact hn (List.mem_map.2 ⟨x,hx,by simpa using he⟩)
  rw [get,get,List.find?_append,hf,Option.none_or]

lemma get_of_notMem {h : Header} {name : Text} (hn : name ∉ h.names) : h.get name = [] := by
  rw [← List.append_nil h,get_append hn]
  rfl

lemma get_set (h : Header) (name value : Text) : (h.set name value).get name = value := by
  simp [get,set]

lemma get_del {h : Header} {name other : Text} (hn : name ≠ other) :
    (h.del other).get name = h.get name := by
  have hf : (h.filter (·.1 ≠ other)).find? (·.1 = name) = h.find? (·.1 = name) := by
    rw [List.find?_filter]
    congr 1
    funext x
    by_cases hx : x.1 = name <;> simp [hx,hn]
  rw [get,get,del,hf]

end Header

def host : Text := "Host".toList
def userAgent : Text := "User-Agent".toList
def protocol : Text := "Sec-Websocket-Protocol".toList

structure Options where
  path : Text
  headers : Header
  maxEarlyData : ℕ
  earlyDataHeaderName : Text

structure Request where
  path : Text
  header : Header

def withSlash (path : Text) : Text := if ['/'] <+: path then path else '/' :: path

structure Client where
  path : Text
  headers : Header
  maxEarlyData : ℕ
  earlyDataHeaderName : Text

def buildHeaders (headers : Header) : Header :=
  let headers := if headers.get host = [] then headers else headers.del host
  if headers.get userAgent = [] then headers.set userAgent "Go-http-client/1.1".toList else headers

def newClient (options : Options) : Client :=
  ⟨withSlash options.path,buildHeaders options.headers,options.maxEarlyData,
    options.earlyDataHeaderName⟩

/-- What was sent: the request once there is a connection, and the payloads of the frames. -/
structure Wire where
  request : Option Request
  frames : List Bytes

inductive Call
  | write (b : Bytes)
  | writeBuffer (buffer : Bytes)

def Call.content : Call → Bytes
  | .write b => b
  | .writeBuffer buffer => buffer

section client

variable (codec : Codec) (handshake : Header) (c : Client)

def dialContext (path : Text) (headers : Header) : Request :=
  if headers.get protocol = [] then ⟨path,handshake ++ headers⟩
  else ⟨path,handshake ++ (protocol,headers.get protocol) :: headers.del protocol⟩

def earlyRequest (earlyData : Bytes) : Request :=
  if earlyData = [] then dialContext handshake c.path c.headers
  else if c.earlyDataHeaderName = [] then
    dialContext handshake (c.path ++ codec.encode earlyData) c.headers
  else
    dialContext handshake c.path (c.headers.set c.earlyDataHeaderName (codec.encode earlyData))

def writeRequest (content : Bytes) : Wire :=
  let earlyData := if content.length > c.maxEarlyData then content.take c.maxEarlyData else content
  let lateData := if content.length > c.maxEarlyData then content.drop c.maxEarlyData else []
  ⟨some (earlyRequest codec handshake c earlyData),if lateData = [] then [] else [lateData]⟩

def write (w : Wire) (b : Bytes) : Wire :=
  if w.request.isSome then { w with frames := w.frames ++ [b] }
  else writeRequest codec handshake c b

def writeBuffer (w : Wire) (buffer : Bytes) : Wire :=
  if w.request.isSome then { w with frames := w.frames ++ [buffer] }
  else writeRequest codec handshake c buffer

def Call.perform (w : Wire) : Call → Wire
  | .write b => EarlyData.write codec handshake c w b
  | .writeBuffer buffer => EarlyData.writeBuffer codec handshake c w buffer

def dial : Wire :=
  if c.maxEarlyData = 0 then ⟨some (dialContext handshake c.path c.headers),[]⟩ else ⟨none,[]⟩

def send (calls : List Call) : Wire :=
  calls.foldl (Call.perform codec handshake c) (dial handshake c)

end client

structure Server where
  path : Text
  maxEarlyData : ℕ
  earlyDataHeaderName : Text

def newServer (options : Options) : Server :=
  ⟨withSlash options.path,options.maxEarlyData,options.earlyDataHeaderName⟩

inductive Refusal
  | notFound
  | badRequest
  deriving DecidableEq

section server

variable (codec : Codec) (escape : Char → Text) (s : Server)

def requestURI (path : Text) : Text :=
  path.flatMap fun c => if unreserved c then [c] else escape c

def decodeEarlyData (earlyData : Text) : Except Refusal Bytes :=
  match codec.decode earlyData with
  | none => .error .badRequest
  | some b => .ok b

/-- The early data that the handler's connection begins with. -/
def serveHTTP (request : Request) : Except Refusal Bytes :=
  if (s.maxEarlyData = 0 ∨ s.earlyDataHeaderName ≠ []) ∧ request.path ≠ s.path then
    .error .notFound
  else if s.earlyDataHeaderName = [] then
    if s.path <+: requestURI escape request.path then
      decodeEarlyData codec ((requestURI escape request.path).drop s.path.length)
    else .error .notFound
  else if request.path ≠ s.path then .error .notFound
  else
    let earlyData := request.header.get s.earlyDataHeaderName
    if earlyData = [] then .ok [] else decodeEarlyData codec earlyData

/-- The bytes that the handler reads; without a request there is no handler. -/
def handlerReads (w : Wire) : Except Refusal Bytes :=
  match w.request with
  | none => .ok []
  | some request => (serveHTTP codec escape s request).map (· ++ w.frames.flatten)

end server

lemma handlerReads_some {codec : Codec} {escape : Char → Text} {s : Server} {w : Wire}
    {request : Request} (h : w.request = some request) : handlerReads codec escape s w =
      (serveHTTP codec escape s request).map (· ++ w.frames.flatten) := by
  rw [handlerReads,h]

lemma decodeEarlyData_encode (codec : Codec) (b : Bytes) :
    decodeEarlyData codec (codec.encode b) = .ok b := by
  rw [decodeEarlyData,codec.decode_encode]

lemma requestURI_unreserved {escape : Char → Text} {path : Text}
    (h : ∀ c ∈ path,unreserved c = true) : requestURI escape path = path := by
  induction path with
  | nil => rfl
  | cons c path ih =>
    rw [requestURI,List.flatMap_cons,if_pos (h c List.mem_cons_self)]
    exact congrArg (c :: ·) (ih fun x hx => h x (List.mem_cons_of_mem c hx))

lemma withSlash_unreserved {path : Text} (h : ∀ c ∈ path,unreserved c = true) :
    ∀ c ∈ withSlash path,unreserved c = true := by
  rw [withSlash]
  split_ifs
  · exact h
  · intro c hc
    obtain rfl | hc := List.mem_cons.1 hc
    · rfl
    · exact h c hc

lemma path_dialContext (handshake : Header) (path : Text) (headers : Header) :
    (dialContext handshake path headers).path = path := by
  rw [dialContext]
  split_ifs <;> rfl

/-- The server sees a header that the upgrade does not use as the client set it. -/
lemma get_dialContext {handshake : Header} {name : Text} (hn : name ∉ handshake.names)
    (path : Text) (headers : Header) :
    (dialContext handshake path headers).header.get name = headers.get name := by
  rw [dialContext]
  split_ifs with hp
  · exact Header.get_append hn
  · rw [Header.get_append hn]
    by_cases he : name = protocol
    · rw [he]
      simp [Header.get]
    · have hd := Header.get_del (h := headers) he
      rw [← hd,Header.get,List.find?_cons_of_neg (by simpa using Ne.symm he)]
      rfl

section delivery

variable {codec : Codec} {escape : Char → Text} {handshake : Header} {options : Options}

lemma path_earlyRequest (c : Client) (d : Bytes) : (earlyRequest codec handshake c d).path =
      if c.earlyDataHeaderName = [] then c.path ++ codec.encode d else c.path := by
  rw [earlyRequest]
  by_cases hd : d = []
  · rw [if_pos hd,path_dialContext,hd,codec.encode_nil,List.append_nil,ite_self]
  · rw [if_neg hd]
    split_ifs <;> exact path_dialContext ..

lemma get_earlyRequest {c : Client} (hn : c.earlyDataHeaderName ≠ [])
    (hh : c.earlyDataHeaderName ∉ handshake.names) (hc : c.earlyDataHeaderName ∉ c.headers.names)
    (d : Bytes) :
    (earlyRequest codec handshake c d).header.get c.earlyDataHeaderName = codec.encode d := by
  rw [earlyRequest]
  by_cases hd : d = []
  · rw [if_pos hd,get_dialContext hh,Header.get_of_notMem hc,hd,codec.encode_nil]
  · rw [if_neg hd,if_neg hn,get_dialContext hh,Header.get_set]

lemma serveHTTP_of_path (hn : options.earlyDataHeaderName = [])
    (hp : ∀ c ∈ options.path,unreserved c = true) {d : Bytes}
    (hd : options.maxEarlyData = 0 → d = []) :
    serveHTTP codec escape (newServer options)
      (earlyRequest codec handshake (newClient options) d) = .ok d := by
  have hr : (earlyRequest codec handshake (newClient options) d).path =
      withSlash options.path ++ codec.encode d := by
    have hc : (newClient options).earlyDataHeaderName = [] := hn
    rw [path_earlyRequest,if_pos hc]
    rfl
  have hu : requestURI escape (withSlash options.path ++ codec.encode d) =
      withSlash options.path ++ codec.encode d := by
    refine requestURI_unreserved fun c hc => ?_
    obtain hc | hc := List.mem_append.1 hc
    · exact withSlash_unreserved hp c hc
    · exact codec.encode_unreserved d c hc
  have hv : (newServer options).earlyDataHeaderName = [] := hn
  have hpre : (newServer options).path <+: withSlash options.path ++ codec.encode d :=
    List.prefix_append ..
  rw [serveHTTP,hr,hu,if_neg,if_pos hv,if_pos hpre]
  · exact (congrArg _ List.drop_left).trans (decodeEarlyData_encode codec d)
  · rintro ⟨h0 | h0,hne⟩
    · rw [hd h0,codec.encode_nil,List.append_nil] at hne
      exact hne rfl
    · exact h0 hn

lemma serveHTTP_of_header (hn : options.earlyDataHeaderName ≠ [])
    (hh : options.earlyDataHeaderName ∉ handshake.names)
    (hc : options.earlyDataHeaderName ∉ (buildHeaders options.headers).names) (d : Bytes) :
    serveHTTP codec escape (newServer options)
      (earlyRequest codec handshake (newClient options) d) = .ok d := by
  have hr : (earlyRequest codec handshake (newClient options) d).path =
      (newServer options).path := by
    have hcn : (newClient options).earlyDataHeaderName ≠ [] := hn
    rw [path_earlyRequest,if_neg hcn]
    rfl
  have hg : (earlyRequest codec handshake (newClient options) d).header.get
      (newServer options).earlyDataHeaderName = codec.encode d := get_earlyRequest hn hh hc d
  have hv : (newServer options).earlyDataHeaderName ≠ [] := hn
  rw [serveHTTP,if_neg (fun h => h.2 hr),if_neg hv,if_neg (not_not_intro hr),hg]
  dsimp only
  split_ifs with he
  · rw [← codec.encode_nil] at he
    rw [codec.encode_injective he]
  · exact decodeEarlyData_encode codec d

/-- What the handler reads so far; before the request nothing was written. -/
def Delivered (codec : Codec) (escape : Char → Text) (options : Options) (w : Wire) (d : Bytes) :
    Prop :=
  handlerReads codec escape (newServer options) w = .ok d ∧
    (w.request = none → d = [] ∧ options.maxEarlyData ≠ 0)

variable
  (hs : ∀ d, (options.maxEarlyData = 0 → d = []) → serveHTTP codec escape (newServer options)
    (earlyRequest codec handshake (newClient options) d) = .ok d)

include hs

lemma delivered_dial : Delivered codec escape options (dial handshake (newClient options)) [] := by
  rw [dial]
  split_ifs with h0
  · refine ⟨?_,nofun⟩
    have hr := hs [] fun _ => rfl
    rw [earlyRequest,if_pos rfl] at hr
    rw [handlerReads_some rfl,hr]
    rfl
  · exact ⟨rfl,fun _ => ⟨rfl,h0⟩⟩

lemma delivered_writeRequest (h0 : options.maxEarlyData ≠ 0) (content : Bytes) :
    Delivered codec escape options (writeRequest codec handshake (newClient options) content)
      content := by
  refine ⟨?_,nofun⟩
  rw [writeRequest,handlerReads_some rfl,hs _ (absurd · h0)]
  -- the late data stand in one frame, or there are none
  split_ifs with hl hd hd
  · have hle := List.drop_eq_nil_iff.1 hd
    omega
  · simp [Except.map]
  · simp [Except.map]
  · exact absurd rfl hd

lemma Delivered.perform {w : Wire} {d : Bytes} (h : Delivered codec escape options w d)
    (call : Call) :
    Delivered codec escape options (call.perform codec handshake (newClient options) w)
      (d ++ call.content) := by
  have hw : call.perform codec handshake (newClient options) w =
      write codec handshake (newClient options) w call.content := by
    cases call <;> rfl
  rw [hw,write]
  cases hr : w.request with
  | none =>
    obtain ⟨rfl,h0⟩ := h.2 hr
    exact delivered_writeRequest hs h0 _
  | some request =>
    have hd := h.1
    rw [handlerReads_some hr] at hd
    refine ⟨(handlerReads_some rfl).trans ?_,nofun⟩
    cases he : serveHTTP codec escape (newServer options) request with
    | error r => simp [he,Except.map] at hd
    | ok early =>
      rw [he] at hd
      obtain rfl : early ++ w.frames.flatten = d := Except.ok.inj hd
      simp [Except.map]

lemma Delivered.foldl {w : Wire} {d : Bytes} (h : Delivered codec escape options w d)
    (calls : List Call) :
    Delivered codec escape options
      (calls.foldl (Call.perform codec handshake (newClient options)) w)
      (d ++ calls.flatMap Call.content) := by
  induction calls generalizing w d with
  | nil => simpa using h
  | cons call calls ih =>
    rw [List.foldl_cons,List.flatMap_cons,← List.append_assoc]
    exact ih (h.perform hs call)

end delivery

/-- The letters from a to p for the two halves of each byte. -/
def encodeHalves (b : Bytes) : Text :=
  b.flatMap fun x => [Char.ofNat (97 + x.toNat / 16),Char.ofNat (97 + x.toNat % 16)]

def decodeHalves : Text → Option Bytes
  | [] => some []
  | [_] => none
  | x :: y :: rest =>
    if 97 ≤ x.toNat ∧ x.toNat < 113 ∧ 97 ≤ y.toNat ∧ y.toNat < 113 then
      (decodeHalves rest).map (UInt8.ofNat ((x.toNat - 97) * 16 + (y.toNat - 97)) :: ·)
    else none

lemma letter : ∀ n < 16,(Char.ofNat (97 + n)).toNat = 97 + n ∧
    unreserved (Char.ofNat (97 + n)) = true := by
  decide

lemma decodeHalves_encodeHalves (b : Bytes) : decodeHalves (encodeHalves b) = some b := by
  induction b with
  | nil => rfl
  | cons x b ih =>
    have hx := x.toNat_lt
    have h1 := (letter (x.toNat / 16) (by omega)).1
    have h2 := (letter (x.toNat % 16) (by omega)).1
    have hb : (97 + x.toNat / 16 - 97) * 16 + (97 + x.toNat % 16 - 97) = x.toNat := by omega
    rw [encodeHalves,List.flatMap_cons,List.cons_append,List.cons_append,List.nil_append,
      decodeHalves,h1,h2,hb,if_pos (by omega),UInt8.ofNat_toNat]
    exact congrArg (Option.map (x :: ·)) ih

def halves : Codec where
  encode := encodeHalves
  decode := decodeHalves
  decode_encode := decodeHalves_encodeHalves
  encode_nil := rfl
  encode_unreserved b c hc := by
    obtain ⟨x,-,hx⟩ := List.mem_flatMap.1 hc
    have hlt := x.toNat_lt
    obtain rfl | rfl : c = _ ∨ c = _ := by simpa using hx
    · exact (letter _ (by omega)).2
    · exact (letter _ (by omega)).2

end SingBoxAuth.EarlyData
