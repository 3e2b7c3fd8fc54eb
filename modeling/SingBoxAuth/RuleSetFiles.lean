import SingBoxAuth.GeositeFiles

/-! The reader of binary rule-sets, a recursive decoder that asks for memory of the lengths it
reads, and which files it survives, with those that the reader of geosite databases does. -/
namespace SingBoxAuth.SRS
open ByteReaders ByteDecoders Outcomes
open Geosite (maxAlloc)

inductive SRSError
  | invalidFile
  | unsupportedVersion (version : UInt8)
  | zlib
  | unknownRuleType (ruleType : UInt8)
  | unknownItemType (itemType lastItemType : UInt8)
  | unknownLogicalMode (mode : UInt8)
  | invalid
  | matcher

abbrev Reading := Decoder SRSError

/-- The matchers of domains, the addresses and the texts of prefixes, and the size of a rule in
memory. The matchers may ask for memory too. -/
structure Libraries where
  Matcher : Type
  AdGuardMatcher : Type
  Addr : Type
  readMatcher : Reading Matcher
  readAdGuardMatcher : Reading AdGuardMatcher
  dump : Matcher → List Bytes × List Bytes
  dumpAdGuard : AdGuardMatcher → List Bytes
  addrFromIP : Bytes → Addr
  prefixes : List (Addr × Addr) → List Bytes
  ruleSize : ℕ
  readMatcher_ends : ∀ n, readMatcher.Ends n
  readAdGuardMatcher_ends : ∀ n, readAdGuardMatcher.Ends n

variable (L : Libraries)

structure DefaultHeadlessRule where
  queryType : List ℕ := []
  network : List Bytes := []
  domainMatcher : Option L.Matcher := none
  domain : List Bytes := []
  domainSuffix : List Bytes := []
  domainKeyword : List Bytes := []
  domainRegex : List Bytes := []
  sourceIPSet : List (L.Addr × L.Addr) := []
  sourceIPCIDR : List Bytes := []
  ipSet : List (L.Addr × L.Addr) := []
  ipCIDR : List Bytes := []
  sourcePort : List ℕ := []
  sourcePortRange : List Bytes := []
  port : List ℕ := []
  portRange : List Bytes := []
  processName : List Bytes := []
  processPath : List Bytes := []
  processPathRegex : List Bytes := []
  packageName : List Bytes := []
  wifiSSID : List Bytes := []
  wifiBSSID : List Bytes := []
  adGuardDomainMatcher : Option L.AdGuardMatcher := none
  adGuardDomain : List Bytes := []
  networkType : List UInt8 := []
  networkIsExpensive : Bool := false
  networkIsConstrained : Bool := false
  networkInterfaceAddress : List (UInt8 × List (L.Addr × ℕ)) := []
  defaultInterfaceAddress : List (L.Addr × ℕ) := []
  invert : Bool := false

inductive LogicalMode
  | and
  | or

inductive HeadlessRule
  | default (rule : DefaultHeadlessRule L)
  | logical (mode : LogicalMode) (rules : List HeadlessRule) (invert : Bool)

def readBytes : Reading Bytes := do
  let length ← Decoder.uvarint
  .make length (Decoder.bytes length)

def readRuleItemString : Reading (List Bytes) := do
  let length ← Decoder.uvarint
  .make (16 * length) (Decoder.count readBytes length)

def readRuleItemUint8 : Reading (List UInt8) := do
  let length ← Decoder.uvarint
  .make length (Decoder.bytes length)

def readUint16 : Reading ℕ := do
  let bytes ← Decoder.bytes 2
  .done (ofBigEndian 0 bytes)

def readRuleItemUint16 : Reading (List ℕ) := do
  let length ← Decoder.uvarint
  .make (2 * length) (Decoder.count readUint16 length)

def readBool : Reading Bool := do
  let x ← Decoder.readByte
  .done (x != 0)

def readIPRange : Reading (L.Addr × L.Addr) := do
  let fromBytes ← readBytes
  let toBytes ← readBytes
  .done (L.addrFromIP fromBytes,L.addrFromIP toBytes)

def readIPSet : Reading (List (L.Addr × L.Addr)) := do
  let version ← Decoder.readByte
  if version ≠ 1 then .fail (.other .invalid)
  else do
    let length ← Decoder.bytes 8
    .make (48 * ofBigEndian 0 length) (Decoder.count (readIPRange L) (ofBigEndian 0 length))

def readPrefix : Reading (L.Addr × ℕ) := do
  let addrSlice ← readBytes
  let prefixBits ← Decoder.readByte
  .done (L.addrFromIP addrSlice,prefixBits.toNat)

def readPrefixes : Reading (List (L.Addr × ℕ)) := do
  let prefixCount ← Decoder.uvarint
  Decoder.count (readPrefix L) prefixCount

def readInterfaceAddress : Reading (UInt8 × List (L.Addr × ℕ)) := do
  let key ← Decoder.readByte
  let value ← readPrefixes L
  .done (key,value)

/-- The entries of a map in which a key that is put again keeps its place. -/
def put {α : Type} (entries : List (UInt8 × α)) (entry : UInt8 × α) : List (UInt8 × α) :=
  if entries.any (·.1 = entry.1) then entries.map fun e => if e.1 = entry.1 then entry else e
  else entries ++ [entry]

/-- The items of a rule but the last one. -/
def readItem (recover : Bool) (itemType lastItemType : UInt8) (rule : DefaultHeadlessRule L) :
    Reading (DefaultHeadlessRule L) :=
  let strings (set : List Bytes → DefaultHeadlessRule L) : Reading (DefaultHeadlessRule L) :=
    readRuleItemString >>= fun value => .done (set value)
  match itemType with
  | 0 => do
    let value ← readRuleItemUint16
    .done { rule with queryType := value }
  | 1 => strings fun value => { rule with network := value }
  | 2 => do
    let matcher ← L.readMatcher
    let rule := { rule with domainMatcher := some matcher }
    .done (if recover then
      { rule with domain := (L.dump matcher).1, domainSuffix := (L.dump matcher).2 } else rule)
  | 3 => strings fun value => { rule with domainKeyword := value }
  | 4 => strings fun value => { rule with domainRegex := value }
  | 5 => do
    let set ← readIPSet L
    let rule := { rule with sourceIPSet := set }
    .done (if recover then { rule with sourceIPCIDR := L.prefixes set } else rule)
  | 6 => do
    let set ← readIPSet L
    let rule := { rule with ipSet := set }
    .done (if recover then { rule with ipCIDR := L.prefixes set } else rule)
  | 7 => do
    let value ← readRuleItemUint16
    .done { rule with sourcePort := value }
  | 8 => strings fun value => { rule with sourcePortRange := value }
  | 9 => do
    let value ← readRuleItemUint16
    .done { rule with port := value }
  | 10 => strings fun value => { rule with portRange := value }
  | 11 => strings fun value => { rule with processName := value }
  | 12 => strings fun value => { rule with processPath := value }
  | 13 => strings fun value => { rule with packageName := value }
  | 14 => strings fun value => { rule with wifiSSID := value }
  | 15 => strings fun value => { rule with wifiBSSID := value }
  | 16 => do
    let matcher ← L.readAdGuardMatcher
    let rule := { rule with adGuardDomainMatcher := some matcher }
    .done (if recover then { rule with adGuardDomain := L.dumpAdGuard matcher } else rule)
  | 17 => strings fun value => { rule with processPathRegex := value }
  | 18 => do
    let value ← readRuleItemUint8
    .done { rule with networkType := value }
  | 19 => .done { rule with networkIsExpensive := true }
  | 20 => .done { rule with networkIsConstrained := true }
  | 21 => do
    let size ← Decoder.uvarint
    let entries ← Decoder.count (readInterfaceAddress L) size
    .done { rule with networkInterfaceAddress := entries.foldl put [] }
  | 22 => do
    let value ← readPrefixes L
    .done { rule with defaultInterfaceAddress := value }
  | _ => .fail (.other (.unknownItemType itemType lastItemType))

/-- The loop over the items, of which every round reads a byte. -/
def readDefaultRule (recover : Bool) :
    ℕ → UInt8 → DefaultHeadlessRule L → Reading (DefaultHeadlessRule L)
  | 0, _, _ => .running
  | fuel + 1, lastItemType, rule => .byte fun itemType =>
    if itemType = 0xFF then do
      let invert ← readBool
      .done { rule with invert := invert }
    else do
      let rule ← readItem L recover itemType lastItemType rule
      readDefaultRule recover fuel itemType rule

def readLogicalMode : Reading LogicalMode := do
  let mode ← Decoder.readByte
  match mode with
  | 0 => .done .and
  | 1 => .done .or
  | _ => .fail (.other (.unknownLogicalMode mode))

def readRules (readRule : Reading (HeadlessRule L)) : Reading (List (HeadlessRule L)) := do
  let length ← Decoder.uvarint
  .make (L.ruleSize * length) (Decoder.count readRule length)

def readLogicalRule (readRule : Reading (HeadlessRule L)) : Reading (HeadlessRule L) := do
  let mode ← readLogicalMode
  let rules ← readRules L readRule
  let invert ← readBool
  .done (.logical mode rules invert)

def readRule (recover : Bool) : ℕ → Reading (HeadlessRule L)
  | 0 => .running
  | fuel + 1 => .byte fun ruleType =>
    match ruleType with
    | 0 => do
      let rule ← readDefaultRule L recover (fuel + 1) 0 {}
      .done (.default rule)
    | 1 => readLogicalRule L (readRule recover fuel)
    | _ => .fail (.other (.unknownRuleType ruleType))

def ruleSetVersionCurrent : UInt8 := 4

def readHeader : Reading UInt8 := do
  let magicBytes ← Decoder.bytes 3
  if magicBytes ≠ [0x53,0x52,0x53] then .fail (.other .invalidFile)
  else do
    let version ← Decoder.readByte
    if ruleSetVersionCurrent < version then .fail (.other (.unsupportedVersion version))
    else .done version

def readContent (recover : Bool) (content : Bytes) : Reading (List (HeadlessRule L)) :=
  readRules L (readRule L recover (content.length + 1))

/-- Read, where zlib is any function on the rest of the file; its end is also where it fails. -/
def read (zlib : Bytes → Option Bytes) (recover : Bool) (file : Bytes) :
    Outcome (Fault SRSError) (UInt8 × List (HeadlessRule L)) :=
  match readHeader.parse maxAlloc file with
  | (.ok version,rest) =>
    match zlib rest with
    | none => .error (.other .zlib)
    | some content => ((readContent L recover content).parse maxAlloc content).1.bind
        fun rules => .ok (version,rules)
  | (.error err,_) => .error err
  | (.outOfRange,_) => .outOfRange
  | (.running,_) => .running

section ends

variable {L}

lemma ends_uvarint (n : ℕ) : (Decoder.uvarint : Reading ℕ).Ends n :=
  (Decoder.plain_uvarintFrom 10 0 0).ends n

lemma ends_readByte (n : ℕ) : (Decoder.readByte : Reading UInt8).Ends n := by
  have hb : (Decoder.readByte : Reading UInt8).Plain := fun _ => trivial
  exact hb.ends n

lemma ends_bytes (k n : ℕ) : (Decoder.bytes k : Reading Bytes).Ends n := (Decoder.plain_bytes k).ends n

lemma ends_readBytes (n : ℕ) : readBytes.Ends n := (ends_uvarint n).bind fun k => ends_bytes k n

lemma ends_readRuleItemString (n : ℕ) : readRuleItemString.Ends n :=
  (ends_uvarint n).bind fun k => Decoder.ends_count (ends_readBytes n) k

lemma ends_readRuleItemUint16 (n : ℕ) : readRuleItemUint16.Ends n := by
  have hu : readUint16.Ends n := (ends_bytes 2 n).bind fun _ => trivial
  exact (ends_uvarint n).bind fun k => Decoder.ends_count hu k

lemma ends_readBool (n : ℕ) : readBool.Ends n := (ends_readByte n).bind fun _ => trivial

lemma ends_readIPSet (n : ℕ) : (readIPSet L).Ends n := by
  have hr : (readIPRange L).Ends n :=
    (ends_readBytes n).bind fun _ => (ends_readBytes n).bind fun _ => trivial
  refine (ends_readByte n).bind fun version => ?_
  split
  · trivial
  · exact (ends_bytes 8 n).bind fun length => Decoder.ends_count hr _

lemma ends_readPrefixes (n : ℕ) : (readPrefixes L).Ends n := by
  have hp : (readPrefix L).Ends n :=
    (ends_readBytes n).bind fun _ => (ends_readByte n).bind fun _ => trivial
  exact (ends_uvarint n).bind fun k => Decoder.ends_count hp k

lemma ends_readItem (recover : Bool) (itemType last : UInt8) (rule : DefaultHeadlessRule L) (n : ℕ) :
    (readItem L recover itemType last rule).Ends n := by
  have hs : ∀ set : List Bytes → DefaultHeadlessRule L,
      (readRuleItemString >>= fun value => .done (set value)).Ends n :=
    fun set => (ends_readRuleItemString n).bind fun _ => trivial
  have hu : ∀ set : List ℕ → DefaultHeadlessRule L,
      (readRuleItemUint16 >>= fun value => .done (set value)).Ends n :=
    fun set => (ends_readRuleItemUint16 n).bind fun _ => trivial
  have h8 : readRuleItemUint8.Ends n := (ends_uvarint n).bind fun k => ends_bytes k n
  have hi : (readInterfaceAddress L).Ends n :=
    (ends_readByte n).bind fun _ => (ends_readPrefixes n).bind fun _ => trivial
  unfold readItem
  split
  case h_3 => exact (L.readMatcher_ends n).bind fun _ => trivial
  case h_6 | h_7 => exact (ends_readIPSet n).bind fun _ => trivial
  case h_17 => exact (L.readAdGuardMatcher_ends n).bind fun _ => trivial
  case h_19 => exact h8.bind fun _ => trivial
  case h_20 | h_21 | h_24 => trivial
  case h_22 =>
    exact (ends_uvarint n).bind fun k => (Decoder.ends_count hi k).bind fun _ => trivial
  case h_23 => exact (ends_readPrefixes n).bind fun _ => trivial
  case h_1 | h_8 | h_10 => exact hu _
  all_goals exact hs _

/-- The loop ends, since every round reads a byte. -/
lemma ends_readDefaultRule (recover : Bool) (fuel : ℕ) (last : UInt8) (rule : DefaultHeadlessRule L)
    {n : ℕ} (h : n < fuel) : (readDefaultRule L recover fuel last rule).Ends n := by
  induction fuel generalizing last rule n with
  | zero => omega
  | succ fuel ih =>
    cases n with
    | zero => trivial
    | succ n =>
      intro itemType
      dsimp only
      split
      · exact (ends_readBool n).bind fun _ => trivial
      · exact (ends_readItem recover itemType last rule n).bind fun rule => ih _ _ (by omega)

lemma ends_readRules {readRule : Reading (HeadlessRule L)} {n : ℕ} (h : readRule.Ends n) :
    (readRules L readRule).Ends n :=
  (ends_uvarint n).bind fun k => Decoder.ends_count h k

lemma ends_readRule (recover : Bool) {fuel n : ℕ} (h : n < fuel) :
    (readRule L recover fuel).Ends n := by
  induction fuel generalizing n with
  | zero => omega
  | succ fuel ih =>
    cases n with
    | zero => trivial
    | succ n =>
      intro ruleType
      dsimp only
      split
      · exact (ends_readDefaultRule recover (fuel + 1) 0 {} (by omega)).bind fun _ => trivial
      · have hm : readLogicalMode.Ends n := by
          refine (ends_readByte n).bind fun mode => ?_
          split <;> trivial
        exact hm.bind fun _ => (ends_readRules (ih (by omega))).bind fun _ =>
          (ends_readBool n).bind fun _ => trivial
      · trivial

lemma plain_readHeader : readHeader.Plain := by
  refine (Decoder.plain_bytes 3).bind fun magic => ?_
  split
  · trivial
  · intro version
    change Decoder.Plain (ite _ _ _)
    split <;> trivial

end ends

def lengths (zlib : Bytes → Option Bytes) (recover : Bool) (file : Bytes) : List ℕ :=
  match readHeader.parse maxAlloc file with
  | (.ok _,rest) =>
    match zlib rest with
    | none => []
    | some content => (readContent L recover content).declared content
  | _ => []

lemma read_safe_iff (zlib : Bytes → Option Bytes) (recover : Bool) (file : Bytes) :
    (read L zlib recover file).Safe ↔ ∀ n ∈ lengths L zlib recover file,n ≤ maxAlloc := by
  have hs := plain_readHeader.safe maxAlloc file
  unfold read lengths
  cases hp : readHeader.parse maxAlloc file with
  | mk x rest =>
    rw [hp] at hs
    cases x with
    | ok version =>
      dsimp only
      cases zlib rest with
      | none => simp [Outcome.Safe]
      | some content =>
        have he : (readContent L recover content).Ends content.length :=
          ends_readRules (ends_readRule recover (Nat.lt_succ_self _))
        dsimp only
        rw [← Decoder.safe_iff he]
        cases ((readContent L recover content).parse maxAlloc content).1 <;> rfl
    | error err => simp [Outcome.Safe]
    | outOfRange => exact hs.elim
    | running => exact hs.elim

def noMatchers : Libraries where
  Matcher := Unit
  AdGuardMatcher := Unit
  Addr := Bytes
  readMatcher := .fail (.other .matcher)
  readAdGuardMatcher := .fail (.other .matcher)
  dump := fun _ => ([],[])
  dumpAdGuard := fun _ => []
  addrFromIP := id
  prefixes := fun _ => []
  ruleSize := 624
  readMatcher_ends := fun _ => trivial
  readAdGuardMatcher_ends := fun _ => trivial

/-- Both decoders survive a file exactly if make accepts every length they come to in it. -/
theorem decoders_survive_iff (zlib : Bytes → Option Bytes) (file : Bytes) :
    ((∀ recover, (read L zlib recover file).Safe) ↔
      ∀ recover, ∀ n ∈ lengths L zlib recover file, n ≤ maxAlloc) ∧
    (Geosite.Survives file ↔ ∀ n, Geosite.Declares file n → n ≤ maxAlloc) :=
  ⟨forall_congr' fun recover => read_safe_iff L zlib recover file,
    Geosite.survives_iff_declares file⟩

/-- A rule with a list of 2^64-1 networks, and an index of as many codes. -/
theorem length_not_accepted :
    ¬ (read noMatchers some false
      [0x53,0x52,0x53,1,1,0,1,255,255,255,255,255,255,255,255,255,1]).Safe ∧
    ¬ Geosite.Survives [0,255,255,255,255,255,255,255,255,255,1] := by
  constructor
  · exact fun h => h
  · exact fun h => (h [_] (List.flatten_singleton ..)).1

end SingBoxAuth.SRS
