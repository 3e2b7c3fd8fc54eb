import SingBoxAuth.InboundContexts
import Mathlib.Algebra.Order.Ring.Int
import Mathlib.Logic.Function.Basic

/-! The DNS client: one query to one server, answered by the cache or by the server, with an
optional check of what the server answers. -/
namespace SingBoxAuth.DNSExchange
open RouteRule

abbrev Tag := String

abbrev Subnet := ℕ

inductive DomainStrategy
  | asIS
  | preferIPv4
  | preferIPv6
  | ipv4Only
  | ipv6Only
  deriving DecidableEq

inductive QueryType
  | a
  | aaaa
  | https
  | other (code : ℕ)
  deriving DecidableEq

structure Question where
  name : String
  qtype : QueryType
  qclass : ℕ
  deriving DecidableEq

/-- A query. `plain` says that it has no authority records and no additional record but an OPT
record without options; `opt` is the version of the OPT record, where there is one. -/
structure Query where
  id : ℕ
  questions : List Question
  plain : Bool
  opt : Option ℕ

structure DNSQueryOptions where
  transport : Option Tag
  strategy : DomainStrategy
  lookupStrategy : DomainStrategy
  disableCache : Bool
  rewriteTTL : Option ℕ
  clientSubnet : Option Subnet

structure Client where
  disableCache : Bool
  disableExpire : Bool
  independentCache : Bool
  clientSubnet : Option Subnet
  /-- Whether rejected responses are remembered. -/
  rdrc : Bool

/-- The key of the shared cache is the question, that of an independent one also has the server. -/
abbrev CacheKey := Option Tag × Question

abbrev Cache (A : Type) := CacheKey → Option (DNSMsg A)

variable {A : Type}

inductive Reply (A : Type)
  | message (response : DNSMsg A)
  | rcodeError (rcode : ℕ)
  | failed

/-- What a query meets that the client does not decide: whether a cached message is still there,
with how many seconds to live, whether the pair of server and question is remembered as rejected,
and the server's reply. -/
structure Weather (A : Type) where
  alive : Option ℕ
  rejectedBefore : Bool
  reply : Reply A

inductive ClientError
  | responseRejectedCached
  | responseRejected
  | rcode (rcode : ℕ)
  | failed
  deriving DecidableEq

def rcodeFormatError : ℕ := 1

def fixedResponseStatus (id rcode : ℕ) : DNSMsg A := ⟨id,rcode,[],[],[]⟩

def DNSMsg.records (response : DNSMsg A) : List (DNSRecord A) :=
  response.answer ++ response.ns ++ response.extra

def DNSMsg.mapTTL (f : ℕ → ℕ) (response : DNSMsg A) : DNSMsg A :=
  { response with
    answer := response.answer.map fun r => { r with ttl := f r.ttl }
    ns := response.ns.map fun r => { r with ttl := f r.ttl }
    extra := response.extra.map fun r => { r with ttl := f r.ttl } }

def DNSMsg.withId (id : ℕ) (response : DNSMsg A) : DNSMsg A := { response with id := id }

def leastTTL (records : List (DNSRecord A)) : ℕ :=
  records.foldl (fun ttl r => if ttl = 0 ∨ 0 < r.ttl ∧ r.ttl < ttl then r.ttl else ttl) 0

def extractNegativeTTL (response : DNSMsg A) : Option ℕ :=
  response.ns.findSome? fun r =>
    match r.data with
    | .soa minttl => some (if r.ttl < minttl then r.ttl else minttl)
    | _ => none

def timeToLive (response : DNSMsg A) (rewriteTTL : Option ℕ) : ℕ :=
  let negative := if response.answer.isEmpty then (extractNegativeTTL response).getD 0 else 0
  rewriteTTL.getD (if negative = 0 then leastTTL (DNSMsg.records response) else negative)

/-- The times to live of a cached message, with `nowTTL` seconds left, in 32-bit arithmetic. -/
def aged (nowTTL : ℕ) (response : DNSMsg A) : DNSMsg A :=
  let originTTL := leastTTL (DNSMsg.records response)
  if 0 < originTTL then
    let duration := ((originTTL : ℤ) - nowTTL) % 2 ^ 32
    DNSMsg.mapTTL (fun ttl => (((ttl : ℤ) - duration) % 2 ^ 32).toNat) response
  else DNSMsg.mapTTL (fun _ => nowTTL) response

def SVCBValue.kept (strategy : DomainStrategy) : SVCBValue A → Bool
  | .ipv4Hint _ => strategy != .ipv6Only
  | .ipv6Hint _ => strategy != .ipv4Only
  | .other => true

/-- The hints of the unwanted family leave the answer of an HTTPS query. -/
def filterHints (qtype : QueryType) (strategy : DomainStrategy) (response : DNSMsg A) : DNSMsg A :=
  if qtype = .https ∧ (strategy = .ipv4Only ∨ strategy = .ipv6Only) then
    { response with
      answer := response.answer.map fun r =>
        match r.data with
        | .https values => { r with data := .https (values.filter (SVCBValue.kept strategy)) }
        | _ => r }
  else response

def DNSRecord.isOPT (r : DNSRecord A) : Bool :=
  match r.data with
  | .opt _ => true
  | _ => false

/-- The OPT record of a response: `IsEdns0` looks from the end. -/
def DNSMsg.edns0 (response : DNSMsg A) : Option (DNSRecord A) :=
  response.extra.reverse.find? DNSRecord.isOPT

/-- The OPT record leaves a response whose query had none, and one of a higher version is replaced.
Version and flags are read from the time to live. -/
def trimOPT (request : Option ℕ) (response : DNSMsg A) : DNSMsg A :=
  match DNSMsg.edns0 response with
  | none => response
  | some record =>
    let extra := response.extra.filter fun r => !DNSRecord.isOPT r
    match request with
    | none => { response with extra := extra }
    | some version =>
      if version < record.ttl / 2 ^ 16 % 2 ^ 8 then
        { response with extra := extra ++ [⟨record.ttl / 2 ^ 15 % 2 * 2 ^ 15,.opt true⟩] }
      else response

def strategyRejects (qtype : QueryType) (strategy : DomainStrategy) : Bool :=
  (qtype == .a && strategy == .ipv6Only) || (qtype == .aaaa && strategy == .ipv4Only)

namespace Client

variable (c : Client)

def key (server : Tag) (question : Question) : CacheKey :=
  (if c.independentCache then some server else none,question)

def isSimpleRequest (message : Query) (options : DNSQueryOptions) : Bool :=
  message.questions.length == 1 && message.plain && !(options.clientSubnet.or c.clientSubnet).isSome

/-- The version of the OPT record in the query as it is sent. A client subnet comes with a record
of its own where there is none. -/
def requestOPT (message : Query) (options : DNSQueryOptions) : Option ℕ :=
  if (options.clientSubnet.or c.clientSubnet).isSome then some (message.opt.getD 0) else message.opt

def loadResponse (cache : Cache A) (alive : Option ℕ) (question : Question) (server : Tag) :
    Cache A × Option (DNSMsg A) :=
  match cache (c.key server question), alive with
  | none, _ => (cache,none)
  | some _, none => (Function.update cache (c.key server question) none,none)
  | some response, some nowTTL =>
    (cache,some (if c.disableExpire then response else aged nowTTL response))

def storeCache (cache : Cache A) (server : Tag) (question : Question) (response : DNSMsg A)
    (ttl : ℕ) : Cache A :=
  if ttl = 0 then cache else Function.update cache (c.key server question) (some response)

def cacheable (response : DNSMsg A) : Bool :=
  response.rcode == rcodeSuccess || response.rcode == rcodeNameError

/-- What follows a server's response. The cache holds the message that is returned, so the record
trimmed after storing leaves the cache as well. -/
def deliver (cache : Cache A) (server : Tag) (question : Question) (id : ℕ) (edns : Option ℕ)
    (options : DNSQueryOptions) (disableCache : Bool)
    (responseChecker : Option (DNSMsg A → Bool)) (response : DNSMsg A) :
    Cache A × Except ClientError (DNSMsg A) :=
  if responseChecker.any (fun check => !(cacheable response && check response)) then
    (cache,.error .responseRejected)
  else
    let response := filterHints question.qtype options.strategy response
    let ttl := timeToLive response options.rewriteTTL
    let response := trimOPT edns (DNSMsg.withId id (DNSMsg.mapTTL (fun _ => ttl) response))
    (if disableCache || !cacheable response then cache
      else c.storeCache cache server question response ttl,.ok response)

def exchangeUpstream (cache : Cache A) (w : Weather A) (server : Tag) (question : Question)
    (id : ℕ) (edns : Option ℕ) (options : DNSQueryOptions) (disableCache : Bool)
    (responseChecker : Option (DNSMsg A → Bool)) : Cache A × Except ClientError (DNSMsg A) :=
  if !disableCache && responseChecker.isSome && c.rdrc && w.rejectedBefore then
    (cache,.error .responseRejectedCached)
  else
    match w.reply with
    | .failed => (cache,.error .failed)
    | .rcodeError rcode =>
      c.deliver cache server question id edns options disableCache responseChecker
        (fixedResponseStatus id rcode)
    | .message response =>
      c.deliver cache server question id edns options disableCache responseChecker response

def exchange (cache : Cache A) (w : Weather A) (server : Tag) (message : Query)
    (options : DNSQueryOptions) (responseChecker : Option (DNSMsg A → Bool)) :
    Cache A × Except ClientError (DNSMsg A) :=
  match message.questions with
  | [] => (cache,.ok (fixedResponseStatus message.id rcodeFormatError))
  | question :: _ =>
    if strategyRejects question.qtype options.strategy then
      (cache,.ok (fixedResponseStatus message.id rcodeSuccess))
    else
      let disableCache := !c.isSimpleRequest message options || c.disableCache ||
        options.disableCache
      let loaded := if disableCache then (cache,none)
        else c.loadResponse cache w.alive question server
      match loaded.2 with
      | some response => (loaded.1,.ok (DNSMsg.withId message.id response))
      | none => c.exchangeUpstream loaded.1 w server question message.id
          (c.requestOPT message options) options disableCache responseChecker

def messageResult (response : DNSMsg A) : Except ClientError (List A) :=
  if response.rcode ≠ rcodeSuccess then .error (.rcode response.rcode)
  else .ok (dnsResponseAddresses (some response))

def classINET : ℕ := 1

def lookupToExchange (cache : Cache A) (w : Weather A) (server : Tag) (name : String)
    (qtype : QueryType) (options : DNSQueryOptions)
    (responseChecker : Option (DNSMsg A → Bool)) : Cache A × Except ClientError (List A) :=
  let question : Question := ⟨name,qtype,classINET⟩
  let loaded := if c.disableCache || options.disableCache then (cache,none)
    else c.loadResponse cache w.alive question server
  match loaded.2 with
  | some response => (loaded.1,messageResult response)
  | none =>
    let exchanged := c.exchange loaded.1 w server ⟨0,[question],true,none⟩ options responseChecker
    (exchanged.1,exchanged.2.bind messageResult)

def sortAddresses (response4 response6 : List A) (strategy : DomainStrategy) : List A :=
  if strategy = .preferIPv6 then response6 ++ response4 else response4 ++ response6

/-- The outcome of the two lookups of a domain: an error counts only where no address is found. -/
def joinAddresses (result4 result6 : Except ClientError (List A)) (strategy : DomainStrategy) :
    Except ClientError (List A) :=
  let response4 := result4.toOption.getD []
  let response6 := result6.toOption.getD []
  if response4.isEmpty && response6.isEmpty then
    match result4, result6 with
    | .error err, _ => .error err
    | _, .error err => .error err
    | _, _ => .ok []
  else .ok (sortAddresses response4 response6 strategy)

/-- The two lookups of a domain run at the same time, on different keys of the cache. -/
def lookup (cache : Cache A) (w4 w6 : Weather A) (server : Tag) (name : String)
    (options : DNSQueryOptions) (responseChecker : Option (DNSMsg A → Bool)) :
    Cache A × Except ClientError (List A) :=
  let strategy := if options.lookupStrategy ≠ .asIS then options.lookupStrategy
    else options.strategy
  let lookupOptions := { options with strategy := strategy }
  if strategy = .ipv4Only then
    c.lookupToExchange cache w4 server name .a lookupOptions responseChecker
  else if strategy = .ipv6Only then
    c.lookupToExchange cache w6 server name .aaaa lookupOptions responseChecker
  else
    let exchange4 := c.lookupToExchange cache w4 server name .a lookupOptions responseChecker
    let exchange6 := c.lookupToExchange exchange4.1 w6 server name .aaaa lookupOptions
      responseChecker
    (exchange6.1,joinAddresses exchange4.2 exchange6.2 strategy)

end Client

/-! What a message's addresses survive. -/

lemma addresses_mapTTL (f : ℕ → ℕ) (response : DNSMsg A) :
    dnsResponseAddresses (some (DNSMsg.mapTTL f response)) = dnsResponseAddresses (some response)
    := by
  simp only [dnsResponseAddresses,DNSMsg.mapTTL,List.flatMap_map]
  rfl

lemma trimOPT_fields (request : Option ℕ) (response : DNSMsg A) :
    (trimOPT request response).rcode = response.rcode ∧
      (trimOPT request response).answer = response.answer := by
  rw [trimOPT]
  split
  · exact ⟨rfl,rfl⟩
  · dsimp only
    split
    · exact ⟨rfl,rfl⟩
    · split <;> exact ⟨rfl,rfl⟩

/-! What one call does to the cache, and where its result comes from. -/

end SingBoxAuth.DNSExchange
