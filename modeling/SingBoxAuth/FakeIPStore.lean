import SingBoxAuth.AddressRanges
import SingBoxAuth.Transitions
import Mathlib.Data.String.Defs
import Mathlib.Logic.Function.Basic

/-! The store of fake addresses: allocation of an address of either family for a domain, and its two
storages, the maps in memory and the buckets of the cache file. -/
namespace SingBoxAuth.FakeIP
open AddressRanges

structure Metadata where
  inet4Range : Option Prefix
  inet6Range : Option Prefix
  inet4Current : Addr
  inet6Current : Addr
  deriving DecidableEq

def is4 (address : Addr) : Bool :=
  match address with
  | some ip => ip.family = .inet4
  | none => false

/-- The operations that the store has on its storage. An error of a reset or of a write is
discarded. A loaded address need not be valid. -/
structure Storage (σ : Type) where
  metadata : σ → Option Metadata × σ
  saveMetadata : σ → Metadata → σ
  saveMetadataAsync : σ → Metadata → σ
  store : σ → Addr → String → σ
  load : σ → Addr → Option String
  loadDomain : σ → String → Bool → Option Addr
  reset : σ → σ

structure Lane where
  range : Option Prefix
  last : Addr
  current : Addr
  deriving DecidableEq

structure Store (σ : Type) where
  inet4 : Lane
  inet6 : Lane
  storage : σ

/-- The bytes of the address in 128 bits; those of an IPv4 address come behind a fixed beginning. -/
def as16 (ip : IP) : ℕ :=
  match ip.family with
  | .inet4 => 0xffff * 2 ^ 32 + ip.value
  | .inet6 => ip.value

/-- All bits behind the prefix are set, from the bit with the number `bits` of 128 on. -/
def broadcastAddress (p : Prefix) : IP :=
  let bits := match p.addr.family with
    | .inet4 => p.bits + 96
    | .inet6 => p.bits
  let raw := setLowBits (as16 p.addr) (128 - bits)
  ⟨p.addr.family,raw % 2 ^ p.addr.family.bits,Nat.mod_lt _ (Nat.two_pow_pos _)⟩

namespace Lane

def new (range : Option Prefix) : Lane := ⟨range,range.map broadcastAddress,none⟩

def contains (lane : Lane) (address : Addr) : Bool :=
  match lane.range, address with
  | some p, some ip => p.contains ip
  | _, _ => false

/-- The address of the range, or the zero address without a range. -/
def base (lane : Lane) : Addr := lane.range.map Prefix.addr

/-- The first current address is the one after the range's own. -/
def begin (lane : Lane) : Lane :=
  match lane.range with
  | some p => { lane with current := p.addr.next }
  | none => lane

/-- The next address; behind the range it goes on two after the range's own address. -/
def allocate (lane : Lane) : Option Lane :=
  if lane.current = none then none
  else
    let nextAddress := nextAddr lane.current
    if nextAddress = lane.last ∨ lane.contains nextAddress = false then
      some { lane with current := nextAddr (nextAddr lane.base) }
    else some { lane with current := nextAddress }

end Lane

namespace Store

variable {σ : Type}

variable (ops : Storage σ) (s : Store σ)

def lane (isIPv6 : Bool) : Lane := if isIPv6 then s.inet6 else s.inet4

def setLane (isIPv6 : Bool) (lane : Lane) : Store σ :=
  if isIPv6 then { s with inet6 := lane } else { s with inet4 := lane }

def metadata : Metadata :=
  ⟨s.inet4.range,s.inet6.range,s.inet4.current,s.inet6.current⟩

/-- Start: saved metadata of the same ranges continues them, anything else begins anew and resets
the storage. -/
def start (inet4Range inet6Range : Option Prefix) (storage : σ) : Store σ :=
  let inet4 := Lane.new inet4Range
  let inet6 := Lane.new inet6Range
  let renewed := ⟨inet4.begin,inet6.begin,ops.reset (ops.metadata storage).2⟩
  match (ops.metadata storage).1 with
  | some m =>
    if m.inet4Range = inet4Range ∧ m.inet6Range = inet6Range then
      ⟨{ inet4 with current := m.inet4Current },{ inet6 with current := m.inet6Current },
        (ops.metadata storage).2⟩
    else renewed
  | none => renewed

def contains (address : Addr) : Bool :=
  s.inet4.contains address || s.inet6.contains address

def missingRange (isIPv6 : Bool) : String :=
  if isIPv6 then "missing IPv6 fakeip address range" else "missing IPv4 fakeip address range"

/-- A domain that is stored keeps its address, another one gets the next of its family. -/
def create (domain : String) (isIPv6 : Bool) :
    Except String Addr × Store σ :=
  match ops.loadDomain s.storage domain isIPv6 with
  | some address => (.ok address,s)
  | none =>
    match (s.lane isIPv6).allocate with
    | none => (.error (missingRange isIPv6),s)
    | some lane =>
      let s := s.setLane isIPv6 lane
      let storage := ops.store s.storage lane.current domain
      (.ok lane.current,{ s with storage := ops.saveMetadataAsync storage s.metadata })

def lookup (address : Addr) : Option String :=
  ops.load s.storage address

def close : σ := ops.saveMetadata s.storage s.metadata

def reset : Store σ := { s with storage := ops.reset s.storage }

inductive Created (ops : Storage σ) (s : Store σ) (domain : String) (isIPv6 : Bool) :
    Except String Addr × Store σ → Prop
  | loaded {address : Addr} : ops.loadDomain s.storage domain isIPv6 = some address →
      Created ops s domain isIPv6 (.ok address,s)
  | missing : ops.loadDomain s.storage domain isIPv6 = none →
      (s.lane isIPv6).allocate = none →
      Created ops s domain isIPv6 (.error (missingRange isIPv6),s)
  | allocated {lane : Lane} : ops.loadDomain s.storage domain isIPv6 = none →
      (s.lane isIPv6).allocate = some lane →
      Created ops s domain isIPv6 (.ok lane.current,
        { s.setLane isIPv6 lane with
          storage := ops.saveMetadataAsync (ops.store s.storage lane.current domain)
            (s.setLane isIPv6 lane).metadata })

lemma setLane_storage (isIPv6 : Bool) (lane : Lane) :
    (s.setLane isIPv6 lane).storage = s.storage := by
  cases isIPv6 <;> rfl

lemma create_cases (domain : String) (isIPv6 : Bool) :
    Created ops s domain isIPv6 (s.create ops domain isIPv6) := by
  unfold create
  split
  · rename_i address hl
    exact .loaded hl
  · rename_i hl
    split
    · rename_i hn
      exact .missing hl hn
    · rename_i lane hla
      dsimp only
      rw [setLane_storage]
      exact .allocated hl hla

end Store

structure MemoryStorage where
  addressCache : Addr → Option String
  domainCache4 : String → Option Addr
  domainCache6 : String → Option Addr

namespace MemoryStorage

def new : MemoryStorage := ⟨fun _ => none,fun _ => none,fun _ => none⟩

/-- The map of domains with the old domain of an address taken out and the new one put in. -/
def replace {α : Type} (cache : String → Option α) (old : Option String) (domain : String)
    (address : α) : String → Option α :=
  let cache := match old with
    | some oldDomain => Function.update cache oldDomain none
    | none => cache
  Function.update cache domain (some address)

lemma replace_eq_some {α : Type} {cache : String → Option α} {old : Option String}
    {domain d : String} {address x : α} (h : replace cache old domain address d = some x) :
    (d = domain ∧ x = address) ∨ cache d = some x := by
  unfold replace at h
  by_cases hd : d = domain
  · subst hd
    simp only [Function.update_self,Option.some.injEq] at h
    exact .inl ⟨rfl,h.symm⟩
  · cases old with
    | none =>
      simp only [Function.update_of_ne hd] at h
      exact .inr h
    | some oldDomain =>
      simp only [Function.update_of_ne hd] at h
      by_cases ho : d = oldDomain
      · subst ho
        simp at h
      · rw [Function.update_of_ne ho] at h
        exact .inr h

def store (s : MemoryStorage) (address : Addr) (domain : String) : MemoryStorage :=
  let old := s.addressCache address
  let addressCache := Function.update s.addressCache address (some domain)
  if is4 address then
    ⟨addressCache,replace s.domainCache4 old domain address,s.domainCache6⟩
  else ⟨addressCache,s.domainCache4,replace s.domainCache6 old domain address⟩

def loadDomain (s : MemoryStorage) (domain : String) (isIPv6 : Bool) : Option Addr :=
  if isIPv6 then s.domainCache6 domain else s.domainCache4 domain

def ops : Storage MemoryStorage where
  metadata s := (none,s)
  saveMetadata s _ := s
  saveMetadataAsync s _ := s
  store := store
  load s address := s.addressCache address
  loadDomain := loadDomain
  reset _ := new

end MemoryStorage

structure AddressBucket where
  domains : IP → Option String
  metadata : Option Metadata

/-- The buckets of the cache file, and the metadata that the timer of the process will save. -/
structure CacheFile where
  address : Option AddressBucket
  domain4 : Option (String → Option IP)
  domain6 : Option (String → Option IP)
  timer : Option Metadata

namespace CacheFile

def empty : CacheFile := ⟨none,none,none,none⟩

def emptyBucket : AddressBucket := ⟨fun _ => none,none⟩

def metadata (c : CacheFile) : Option Metadata × CacheFile :=
  match c.address with
  | none => (none,c)
  | some bucket =>
    match bucket.metadata with
    | none => (none,c)
    | some m => (some m,{ c with address := some { bucket with metadata := none } })

variable (c : CacheFile)

def saveMetadata (m : Metadata) : CacheFile :=
  { c with address := some { c.address.getD emptyBucket with metadata := some m } }

/-- A timer that is set is only put off: it keeps the metadata it was made for. -/
def saveMetadataAsync (m : Metadata) : CacheFile :=
  match c.timer with
  | none => { c with timer := some m }
  | some _ => c

def fire : CacheFile :=
  match c.timer with
  | none => c
  | some m => c.saveMetadata m

/-- Keys of a bucket are neither empty nor longer than this many bytes. -/
def maxKeySize : ℕ := 32768

def isKey (domain : String) : Bool := domain ≠ "" && domain.utf8ByteSize ≤ maxKeySize

def domains (isIPv6 : Bool) : Option (String → Option IP) :=
  if isIPv6 then c.domain6 else c.domain4

def putDomains (isIPv6 : Bool) (bucket : String → Option IP) : CacheFile :=
  if isIPv6 then { c with domain6 := some bucket } else { c with domain4 := some bucket }

/-- One batch: if the address or the domain is no key, nothing changes. -/
def store (address : Addr) (domain : String) : CacheFile :=
  match address with
  | none => c
  | some ip =>
    if isKey domain then
      let bucket := c.address.getD emptyBucket
      let old := bucket.domains ip
      let bucket := { bucket with domains := Function.update bucket.domains ip (some domain) }
      let isIPv6 := !is4 address
      let domains := MemoryStorage.replace ((c.domains isIPv6).getD fun _ => none) old domain ip
      { c with address := some bucket }.putDomains isIPv6 domains
    else c

def load (address : Addr) : Option String :=
  match c.address, address with
  | some bucket, some ip => (bucket.domains ip).filter (· ≠ "")
  | _, _ => none

def loadDomain (domain : String) (isIPv6 : Bool) : Option Addr :=
  (c.domains isIPv6).bind fun bucket => (bucket domain).map some

/-- Deleting a bucket that is not there fails, and a batch that fails changes nothing. -/
def reset : CacheFile :=
  if c.address.isSome ∧ c.domain4.isSome ∧ c.domain6.isSome then
    { c with
      address := none
      domain4 := none
      domain6 := none }
  else c

def ops : Storage CacheFile where
  metadata := metadata
  saveMetadata := saveMetadata
  saveMetadataAsync := saveMetadataAsync
  store := store
  load := load
  loadDomain := loadDomain
  reset := reset

section buckets

variable (c : CacheFile) (isIPv6 : Bool) (bucket : String → Option IP)

@[simp] lemma domains_putDomains : (c.putDomains isIPv6 bucket).domains isIPv6 = some bucket := by
  cases isIPv6 <;> rfl

lemma domains_putDomains_of_ne {isIPv6' : Bool} (h : isIPv6' ≠ isIPv6) :
    (c.putDomains isIPv6 bucket).domains isIPv6' = c.domains isIPv6' := by
  cases isIPv6 <;> cases isIPv6' <;> first | rfl | exact absurd rfl h

@[simp] lemma address_putDomains : (c.putDomains isIPv6 bucket).address = c.address := by
  cases isIPv6 <;> rfl

end buckets

lemma loadDomain_eq_some {c : CacheFile} {domain : String} {isIPv6 : Bool} {x : Addr} :
    c.loadDomain domain isIPv6 = some x ↔ ∃ bucket ip,c.domains isIPv6 = some bucket ∧
      bucket domain = some ip ∧ x = some ip := by
  simp only [loadDomain,Option.bind_eq_some_iff,Option.map_eq_some_iff]
  constructor
  · rintro ⟨bucket,hb,ip,hip,rfl⟩
    exact ⟨bucket,ip,hb,hip,rfl⟩
  · rintro ⟨bucket,ip,hb,hip,rfl⟩
    exact ⟨bucket,hb,ip,hip,rfl⟩

lemma load_eq_some {c : CacheFile} {address : Addr} {domain : String} :
    c.load address = some domain ↔ ∃ bucket ip,c.address = some bucket ∧ address = some ip ∧
      bucket.domains ip = some domain ∧ domain ≠ "" := by
  unfold load
  split
  · rename_i bucket ip hb
    simp [hb,Option.filter_eq_some_iff]
  · rename_i hn
    constructor
    · simp
    · rintro ⟨bucket,ip,hb,ha,-⟩
      exact absurd ha (hn bucket ip hb)

inductive Stored (c : CacheFile) (address : Addr) (domain : String) : CacheFile → Prop
  | refused : (address = none ∨ isKey domain = false) → Stored c address domain c
  | put {ip : IP} : address = some ip → isKey domain = true →
      Stored c address domain
        ({ c with address := some { c.address.getD emptyBucket with
            domains := Function.update (c.address.getD emptyBucket).domains ip (some domain) } }
          |>.putDomains (!is4 address) (MemoryStorage.replace
            ((c.domains (!is4 address)).getD fun _ => none)
            ((c.address.getD emptyBucket).domains ip) domain ip))

lemma store_cases (c : CacheFile) (address : Addr) (domain : String) :
    Stored c address domain (c.store address domain) := by
  unfold store
  cases address with
  | none => exact .refused (.inl rfl)
  | some ip =>
    dsimp only
    split_ifs with hk
    · exact .put rfl hk
    · exact .refused (.inr (by simpa using hk))

end CacheFile

end SingBoxAuth.FakeIP
