import Mathlib.Data.List.AList
import Mathlib.Data.List.Sort
import SingBoxAuth.ByteDecoders

/-! The geosite database: an index of codes in front of the items, which a reader finds again by
their offset behind the index. -/
namespace SingBoxAuth.Geosite
open ByteReaders BufferedReading ByteDecoders Outcomes

/-- The most memory that make hands out at once. -/
def maxAlloc : ℕ := 2 ^ 48

structure Item where
  type : UInt8
  value : Bytes
  deriving DecidableEq

structure Metadata where
  code : Bytes
  index : ℕ
  length : ℕ
  deriving DecidableEq

inductive GeositeError
  | unknownVersion
  | notExists (code : Bytes)
  | seek

abbrev ReadError := Fault GeositeError

def readString : Decoder GeositeError Bytes := do
  let length ← Decoder.uvarint
  .make length (Decoder.bytes length)

def readItem : Decoder GeositeError Item := do
  let type ← Decoder.readByte
  let value ← readString
  .done ⟨type,value⟩

def readEntry : Decoder GeositeError Metadata := do
  let code ← readString
  let codeIndex ← Decoder.uvarint
  let codeLength ← Decoder.uvarint
  .done ⟨code,codeIndex,codeLength⟩

def readMetadata : Decoder GeositeError (List Metadata) := do
  let version ← Decoder.readByte
  if version ≠ 0 then .fail (.other .unknownVersion)
  else do
    let entryLength ← Decoder.uvarint
    .make (16 * entryLength) (Decoder.count readEntry entryLength)

/-- The items of a code. A length that is negative as an int is over the limit as well. -/
def readItems (length : ℕ) : Decoder GeositeError (List Item) :=
  .make (24 * length) (Decoder.count readItem length)

structure Reader where
  bufferedReader : BufReader
  metadataIndex : ℤ
  entries : List Metadata

namespace Reader

/-- What domainIndex and domainLength hold for a code: the entry written last. -/
def domain (r : Reader) (code : Bytes) : Option Metadata := r.entries.reverse.find? (·.code = code)

def codes (r : Reader) : List Bytes := (r.entries.map (·.code)).dedup

def position (r : Reader) (entry : Metadata) : ℤ := (r.metadataIndex + toInt entry.index).bmod (2 ^ 64)

/-- Read on a file, of which the reads behind the position come in these pieces. -/
def read (r : Reader) (file : Bytes) (pieces : Bytes → List Bytes) (code : Bytes) :
    Outcome ReadError (List Item) × Reader :=
  match r.domain code with
  | none => (.error (.other (.notExists code)),r)
  | some entry =>
    if r.position entry < 0 then (.error (.other .seek),r)
    else
      let items := (readItems entry.length).run maxAlloc
        ⟨[],pieces (file.drop (r.position entry).toNat)⟩
      (items.1,{ r with bufferedReader := items.2 })

def readAll (file : Bytes) : List (Bytes × (Bytes → List Bytes)) → Reader →
    List (Outcome ReadError (List Item))
  | [], _ => []
  | (code,pieces) :: calls, r =>
    (r.read file pieces code).1 :: readAll file calls (r.read file pieces code).2

end Reader

/-- What the counter has seen is what the reads so far have yielded. -/
def newReader (reads : List Bytes) : Outcome ReadError (Reader × List Bytes) :=
  match readMetadata.run maxAlloc ⟨[],reads⟩ with
  | (.ok entries,r) =>
    let count := reads.flatten.length - r.pending.flatten.length
    let reader : Reader := ⟨r,count - r.buffered.length,entries⟩
    .ok (reader,reader.codes)
  | (.error err,_) => .error err
  | (.outOfRange,_) => .outOfRange
  | (.running,_) => .running

def writeString (value : Bytes) : Bytes := Decoder.putUvarint value.length ++ value

def writeItem (item : Item) : Bytes := item.type :: writeString item.value

abbrev Domains := AList fun _ : Bytes => List Item

def Domains.items (domains : Domains) (code : Bytes) : List Item := (domains.lookup code).getD []

/-- The first pass: the entries with the length of the content so far, and the content. -/
def collect (domains : Domains) : Bytes → List Bytes → List Metadata × Bytes
  | content, [] => ([],content)
  | content, code :: keys =>
    let rest := collect domains (content ++ (domains.items code).flatMap writeItem) keys
    (⟨code,content.length,(domains.items code).length⟩ :: rest.1,rest.2)

def writeEntry (entry : Metadata) : Bytes :=
  writeString entry.code ++ Decoder.putUvarint entry.index ++ Decoder.putUvarint entry.length

def sortedKeys (domains : Domains) : List Bytes := domains.keys.insertionSort (· ≤ ·)

def write (domains : Domains) : Bytes :=
  let pass := collect domains [] (sortedKeys domains)
  [0] ++ Decoder.putUvarint (sortedKeys domains).length ++ pass.1.flatMap writeEntry ++ pass.2

/-- What holds of values in memory: make can hand out the slices, and the file has an int64 size. -/
structure InMemory (domains : Domains) : Prop where
  keys : 16 * domains.keys.length ≤ maxAlloc
  codes : ∀ code ∈ domains.keys, code.length ≤ maxAlloc
  items : ∀ code ∈ domains.keys, 24 * (domains.items code).length ≤ maxAlloc
  values : ∀ code ∈ domains.keys, ∀ item ∈ domains.items code, item.value.length ≤ maxAlloc
  file : (write domains).length < 2 ^ 63

section reading

variable {reads : List Bytes} {entries : List Metadata} {rest : Bytes}

lemma newReader_ok (h : readMetadata.parse maxAlloc reads.flatten = (.ok entries,rest)) :
    ∃ r,newReader reads = .ok (⟨r,reads.flatten.length - rest.length,entries⟩,
      (entries.map (·.code)).dedup) := by
  have hl := Decoder.length_parse_le maxAlloc readMetadata reads.flatten
  obtain ⟨r,hr,rfl⟩ := Decoder.run_of_parse (r := ⟨[],reads⟩) h
  rw [h,BufReader.content,List.length_append] at hl
  refine ⟨r,?_⟩
  rw [newReader,hr]
  simp only [Reader.codes,BufReader.content,List.length_append]
  congr 3
  omega

lemma parse_make {ε α : Type} {limit size : ℕ} (h : size ≤ limit) (d : Decoder ε α)
    (input : Bytes) : (Decoder.make size d).parse limit input = d.parse limit input := by
  rw [Decoder.parse,if_pos h]

lemma parse_readString {value : Bytes} (h : value.length ≤ maxAlloc) (rest : Bytes) :
    readString.parse maxAlloc (writeString value ++ rest) = (.ok value,rest) := by
  rw [readString,writeString,List.append_assoc,
    Decoder.parse_bind_of_ok (Decoder.parse_uvarint (h.trans_lt (by decide)) _),parse_make h]
  exact Decoder.parse_bytes value rest

lemma parse_readItem {item : Item} (h : item.value.length ≤ maxAlloc) (rest : Bytes) :
    readItem.parse maxAlloc (writeItem item ++ rest) = (.ok item,rest) := by
  rw [readItem,writeItem,List.cons_append,Decoder.parse_bind_of_ok rfl,
    Decoder.parse_bind_of_ok (parse_readString h rest)]
  rfl

lemma parse_readEntry {entry : Metadata} (hc : entry.code.length ≤ maxAlloc)
    (hi : entry.index < 2 ^ 64) (hl : entry.length < 2 ^ 64) (rest : Bytes) :
    readEntry.parse maxAlloc (writeEntry entry ++ rest) = (.ok entry,rest) := by
  rw [readEntry,writeEntry,List.append_assoc,List.append_assoc,
    Decoder.parse_bind_of_ok (parse_readString hc _),
    Decoder.parse_bind_of_ok (Decoder.parse_uvarint hi _),
    Decoder.parse_bind_of_ok (Decoder.parse_uvarint hl _)]
  rfl

lemma parse_readItems {items : List Item} (hl : 24 * items.length ≤ maxAlloc)
    (hv : ∀ item ∈ items,item.value.length ≤ maxAlloc) (rest : Bytes) :
    (readItems items.length).parse maxAlloc (items.flatMap writeItem ++ rest) = (.ok items,rest) := by
  rw [readItems,parse_make hl]
  exact Decoder.parse_count (fun item hi rest => parse_readItem (hv item hi) rest) rest

end reading

section roundTrip

variable {domains : Domains}

lemma collect_spec (domains : Domains) (content : Bytes) (keys : List Bytes) :
    (collect domains content keys).1.map (·.code) = keys ∧
      content <+: (collect domains content keys).2 ∧
      ∀ entry ∈ (collect domains content keys).1,entry.length = (domains.items entry.code).length ∧
        entry.index ≤ (collect domains content keys).2.length ∧
        ∃ tail,(collect domains content keys).2.drop entry.index =
          (domains.items entry.code).flatMap writeItem ++ tail := by
  induction keys generalizing content with
  | nil => exact ⟨rfl,List.prefix_rfl,nofun⟩
  | cons code keys ih =>
    obtain ⟨h1,h2,h3⟩ := ih (content ++ (domains.items code).flatMap writeItem)
    have hp : content <+: (collect domains content (code :: keys)).2 :=
      (List.prefix_append ..).trans h2
    refine ⟨congrArg (code :: ·) h1,hp,List.forall_mem_cons.mpr ⟨⟨rfl,hp.length_le,?_⟩,h3⟩⟩
    obtain ⟨tail,ht⟩ := h2
    refine ⟨tail,?_⟩
    rw [collect,← ht,List.append_assoc,List.drop_left]

lemma parse_write (h : InMemory domains) : readMetadata.parse maxAlloc (write domains) =
      (.ok (collect domains [] (sortedKeys domains)).1,
        (collect domains [] (sortedKeys domains)).2) := by
  obtain ⟨hc,-,he⟩ := collect_spec domains [] (sortedKeys domains)
  have hk := List.perm_insertionSort (· ≤ ·) domains.keys
  have hl : (sortedKeys domains).length = (collect domains [] (sortedKeys domains)).1.length := by
    have hm := congrArg List.length hc
    rw [List.length_map] at hm
    exact hm.symm
  have hs : 16 * (sortedKeys domains).length ≤ maxAlloc := by
    rw [sortedKeys,hk.length_eq]
    exact h.keys
  have hm : maxAlloc = 2 ^ 48 := rfl
  rw [write,readMetadata,List.append_assoc,List.append_assoc,List.singleton_append,
    Decoder.parse_bind_of_ok rfl,if_neg (by decide),
    Decoder.parse_bind_of_ok (Decoder.parse_uvarint (by omega) _),parse_make hs,hl]
  refine Decoder.parse_count (fun entry hi rest => ?_) _
  have hd : entry.code ∈ domains.keys := by
    rw [← hk.mem_iff,← sortedKeys,← hc]
    exact List.mem_map_of_mem hi
  obtain ⟨h1,h2,-⟩ := he entry hi
  have hf := h.file
  have hx := h.items _ hd
  rw [write,List.length_append] at hf
  exact parse_readEntry (h.codes _ hd) (by omega) (by omega) rest

def Opened (domains : Domains) (r : Reader) : Prop :=
  r.entries = (collect domains [] (sortedKeys domains)).1 ∧
    r.metadataIndex =
      (write domains).length - (collect domains [] (sortedKeys domains)).2.length

lemma mem_sortedKeys {code : Bytes} : code ∈ sortedKeys domains ↔ code ∈ domains.keys :=
  (List.perm_insertionSort ..).mem_iff

lemma Opened.domain {r : Reader} (h : Opened domains r) (code : Bytes) :
    (code ∉ domains.keys ∧ r.domain code = none) ∨
      ∃ entry ∈ (collect domains [] (sortedKeys domains)).1,entry.code = code ∧
        code ∈ domains.keys ∧ r.domain code = some entry := by
  obtain ⟨hc,-,-⟩ := collect_spec domains [] (sortedKeys domains)
  cases hd : r.domain code with
  | none =>
    refine .inl ⟨fun hk => ?_,rfl⟩
    rw [← mem_sortedKeys,← hc,List.mem_map] at hk
    obtain ⟨entry,he,rfl⟩ := hk
    rw [Reader.domain,h.1,List.find?_eq_none] at hd
    exact hd entry (List.mem_reverse.mpr he) (decide_eq_true rfl)
  | some entry =>
    have hm := List.mem_of_find?_eq_some hd
    rw [List.mem_reverse,h.1] at hm
    have hx : entry.code = code :=
      of_decide_eq_true (List.find?_some (p := fun e : Metadata => decide (e.code = code)) hd)
    refine .inr ⟨entry,hm,hx,?_,rfl⟩
    rw [← mem_sortedKeys,← hc,← hx]
    exact List.mem_map_of_mem hm

lemma Opened.read {r : Reader} (h : Opened domains r) (hm : InMemory domains)
    {pieces : Bytes → List Bytes} (hp : ∀ input,(pieces input).flatten = input) (code : Bytes) :
    Opened domains (r.read (write domains) pieces code).2 ∧ (r.read (write domains) pieces code).1 =
        match domains.lookup code with
        | some items => .ok items
        | none => .error (.other (.notExists code)) := by
  obtain ⟨hk,hd⟩ | ⟨entry,he,rfl,hk,hd⟩ := h.domain code
  · rw [Reader.read,hd,AList.lookup_eq_none.mpr hk]
    exact ⟨h,rfl⟩
  · obtain ⟨h1,h2,tail,ht⟩ := (collect_spec domains [] (sortedKeys domains)).2.2 entry he
    have hf := hm.file
    obtain ⟨front,hw⟩ : ∃ front,write domains =
        front ++ (collect domains [] (sortedKeys domains)).2 := ⟨_,rfl⟩
    have hl := congrArg List.length hw
    rw [List.length_append] at hl
    have hi : r.position entry = (front.length + entry.index : ℕ) := by
      rw [Reader.position,h.2,toInt,if_pos (by omega)]
      have hz : (write domains).length - (collect domains [] (sortedKeys domains)).2.length +
          (entry.index : ℤ) = (front.length + entry.index : ℕ) := by omega
      rw [hz]
      exact Int.bmod_eq_of_le (by omega) (by omega)
    have hc : (write domains).drop (r.position entry).toNat =
        (domains.items entry.code).flatMap writeItem ++ tail := by
      rw [hi,Int.toNat_natCast,hw,← List.drop_drop,List.drop_left,ht]
    obtain ⟨b,hb,-⟩ := Decoder.run_of_parse
      (r := ⟨[],pieces ((write domains).drop (r.position entry).toNat)⟩) (by
        rw [BufReader.content,hp,List.nil_append,hc]
        exact parse_readItems (hm.items _ hk) (hm.values _ hk) tail)
    have hlk : domains.lookup entry.code = some (domains.items entry.code) := by
      obtain ⟨items,hi⟩ := Option.isSome_iff_exists.mp (AList.lookup_isSome.mpr hk)
      rw [Domains.items,hi]
      rfl
    rw [Reader.read,hd,hlk]
    simp only
    rw [if_neg (by omega),h1,hb]
    exact ⟨h,rfl⟩

/-- A written database is read back: its codes, and in whatever order they are asked for, the items
of each code. -/
theorem database_roundTrips (domains : Domains) (h : InMemory domains) (reads : List Bytes)
    (hr : reads.flatten = write domains) :
    ∃ reader codes, newReader reads = .ok (reader,codes) ∧ codes.Perm domains.keys ∧
      ∀ calls : List (Bytes × (Bytes → List Bytes)),
        (∀ call ∈ calls, ∀ input, (call.2 input).flatten = input) →
        Reader.readAll (write domains) calls reader = calls.map fun call =>
          match domains.lookup call.1 with
          | some items => .ok items
          | none => .error (.other (.notExists call.1)) := by
  have hp := parse_write h
  rw [← hr] at hp
  obtain ⟨r,hn⟩ := newReader_ok hp
  refine ⟨_,_,hn,?_,fun calls hc => ?_⟩
  · rw [(collect_spec domains [] (sortedKeys domains)).1]
    have hk := List.perm_insertionSort (· ≤ ·) domains.keys
    rw [sortedKeys,(hk.nodup_iff.mpr domains.keys_nodup).dedup]
    exact hk
  · have ho : Opened domains ⟨r,reads.flatten.length -
        (collect domains [] (sortedKeys domains)).2.length,
        (collect domains [] (sortedKeys domains)).1⟩ := ⟨rfl,by rw [hr]⟩
    generalize (⟨r,_,_⟩ : Reader) = reader at ho ⊢
    induction calls generalizing reader with
    | nil => rfl
    | cons call calls ih =>
      rw [List.forall_mem_cons] at hc
      obtain ⟨h1,h2⟩ := ho.read h hc.1 call.1
      rw [Reader.readAll,ih hc.2 _ h1,h2]
      rfl

def twoCodes : Domains := (AList.singleton [98] []).insert [97] [⟨0,[]⟩,⟨9,[1,2]⟩]

lemma inMemory_twoCodes : InMemory twoCodes where
  keys := by decide
  codes := by decide
  items := by decide
  values := by decide
  file := by
    decide

theorem twoCodes_roundTrips :
    ∃ reader codes, newReader [write twoCodes] = .ok (reader,codes) ∧ codes.Perm twoCodes.keys ∧
      ∀ calls : List (Bytes × (Bytes → List Bytes)),
        (∀ call ∈ calls, ∀ input, (call.2 input).flatten = input) →
        Reader.readAll (write twoCodes) calls reader = calls.map fun call =>
          match twoCodes.lookup call.1 with
          | some items => .ok items
          | none => .error (.other (.notExists call.1)) :=
  database_roundTrips twoCodes inMemory_twoCodes [write twoCodes] (by simp)

end roundTrip

section anyFile

variable {file : Bytes} {r : Reader}

/-- A length in the file for which make is called: in the index, or among the items of a code. -/
def Declares (file : Bytes) (n : ℕ) : Prop :=
  n ∈ readMetadata.declared file ∨
    ∃ entries rest, readMetadata.parse maxAlloc file = (.ok entries,rest) ∧
      ∃ r : Reader, r.entries = entries ∧ r.metadataIndex = file.length - rest.length ∧
        ∃ code entry, r.domain code = some entry ∧ 0 ≤ r.position entry ∧
          n ∈ (readItems entry.length).declared (file.drop (r.position entry).toNat)

def Survives (file : Bytes) : Prop :=
  ∀ reads : List Bytes, reads.flatten = file → (newReader reads).Safe ∧
    ∀ reader codes, newReader reads = .ok (reader,codes) →
      ∀ calls : List (Bytes × (Bytes → List Bytes)),
        (∀ call ∈ calls, ∀ input, (call.2 input).flatten = input) →
        ∀ x ∈ Reader.readAll file calls reader, x.Safe

lemma ends_readString (n : ℕ) : readString.Ends n :=
  ((Decoder.plain_uvarintFrom 10 0 0).ends n).bind fun k => (Decoder.plain_bytes k).ends n

lemma ends_readMetadata (n : ℕ) : readMetadata.Ends n := by
  have hu : (Decoder.uvarint : Decoder GeositeError ℕ).Ends n :=
    (Decoder.plain_uvarintFrom 10 0 0).ends n
  have he : readEntry.Ends n :=
    (ends_readString n).bind fun _ => hu.bind fun _ => hu.bind fun _ => trivial
  have hb : (Decoder.readByte : Decoder GeositeError UInt8).Plain := fun _ => trivial
  refine (hb.ends n).bind fun version => ?_
  split
  · trivial
  · exact hu.bind fun k => Decoder.ends_count he k

lemma ends_readItems (length n : ℕ) : (readItems length).Ends n := by
  have hb : (Decoder.readByte : Decoder GeositeError UInt8).Plain := fun _ => trivial
  have he : readItem.Ends n :=
    (hb.ends n).bind fun _ => (ends_readString n).bind fun _ => trivial
  exact Decoder.ends_count he length

lemma newReader_safe_iff (reads : List Bytes) :
    (newReader reads).Safe ↔ (readMetadata.parse maxAlloc reads.flatten).1.Safe := by
  have h := (Decoder.run_eq_parse maxAlloc readMetadata ⟨[],reads⟩).1
  change _ = (readMetadata.parse maxAlloc reads.flatten).1 at h
  rw [← h,newReader]
  rcases readMetadata.run maxAlloc ⟨[],reads⟩ with ⟨_ | _ | _ | _,_⟩
  all_goals rfl

lemma newReader_inv {reads codes : List Bytes} (h : newReader reads = .ok (r,codes)) :
    ∃ rest,readMetadata.parse maxAlloc reads.flatten = (.ok r.entries,rest) ∧
      r.metadataIndex = reads.flatten.length - rest.length := by
  have hx := (Decoder.run_eq_parse maxAlloc readMetadata ⟨[],reads⟩).1
  cases hr : readMetadata.run maxAlloc ⟨[],reads⟩ with
  | mk x b =>
    rw [hr] at hx
    cases x with
    | ok entries =>
      have hp : readMetadata.parse maxAlloc reads.flatten =
          (.ok entries,(readMetadata.parse maxAlloc reads.flatten).2) := Prod.ext hx.symm rfl
      obtain ⟨b',hb⟩ := newReader_ok hp
      rw [hb] at h
      cases h
      exact ⟨_,hp,rfl⟩
    | error err =>
      rw [newReader,hr] at h
      cases h
    | outOfRange =>
      rw [newReader,hr] at h
      cases h
    | running =>
      rw [newReader,hr] at h
      cases h

lemma Reader.read_keeps (r : Reader) (file : Bytes) (pieces : Bytes → List Bytes) (code : Bytes) :
    (r.read file pieces code).2.entries = r.entries ∧
      (r.read file pieces code).2.metadataIndex = r.metadataIndex := by
  rw [Reader.read]
  split
  · exact ⟨rfl,rfl⟩
  · split <;> exact ⟨rfl,rfl⟩

lemma Reader.read_safe_iff {pieces : Bytes → List Bytes}
    (hp : ∀ input,(pieces input).flatten = input) (code : Bytes) :
    (r.read file pieces code).1.Safe ↔ ∀ entry,r.domain code = some entry → 0 ≤ r.position entry →
        ∀ n ∈ (readItems entry.length).declared (file.drop (r.position entry).toNat),
          n ≤ maxAlloc := by
  rw [Reader.read]
  cases hd : r.domain code with
  | none => simp [Outcome.Safe]
  | some entry =>
    have hx := (Decoder.run_eq_parse maxAlloc (readItems entry.length)
      ⟨[],pieces (file.drop (r.position entry).toNat)⟩).1
    rw [BufReader.content,hp,List.nil_append] at hx
    have hs (input : Bytes) : ((readItems entry.length).parse maxAlloc input).1.Safe ↔
        ∀ n ∈ (readItems entry.length).declared input,n ≤ maxAlloc :=
      Decoder.safe_iff (ends_readItems ..)
    by_cases h0 : r.position entry < 0
    · simp [h0,Outcome.Safe]
    · simp only [if_neg h0,hx,hs,Option.some.injEq,forall_eq']
      exact ⟨fun h _ => h,fun h => h (by omega)⟩

theorem survives_iff_declares (file : Bytes) :
    Survives file ↔ ∀ n,Declares file n → n ≤ maxAlloc := by
  constructor
  · rintro h n (hn | ⟨entries,rest,hp,r,rfl,hm,code,entry,hd,h0,hn⟩)
    · have hs := (h [file] (by simp)).1
      rw [newReader_safe_iff,List.flatten_singleton,Decoder.safe_iff (ends_readMetadata _)] at hs
      exact hs n hn
    · rw [← List.flatten_singleton (l := file)] at hp
      obtain ⟨b,hb⟩ := newReader_ok hp
      have hs := (h [file] (by simp)).2 _ _ hb [(code,fun input => [input])] (by simp)
        _ (List.mem_singleton_self _)
      rw [Reader.read_safe_iff (by simp)] at hs
      rw [List.flatten_singleton,← hm] at hs
      exact hs entry hd h0 n hn
  · rintro h reads rfl
    have hs : (newReader reads).Safe := by
      rw [newReader_safe_iff,Decoder.safe_iff (ends_readMetadata _)]
      exact fun n hn => h n (.inl hn)
    refine ⟨hs,fun reader codes hr calls hc => ?_⟩
    obtain ⟨rest,hp,hm⟩ := newReader_inv hr
    generalize he : reader.entries = entries at hp
    clear hr
    induction calls generalizing reader with
    | nil => simp [Reader.readAll]
    | cons call calls ih =>
      rw [List.forall_mem_cons] at hc
      obtain ⟨h1,h2⟩ := reader.read_keeps reads.flatten call.2 call.1
      rw [Reader.readAll,List.forall_mem_cons]
      refine ⟨?_,ih _ hc.2 (h2.trans hm) (h1.trans he)⟩
      rw [Reader.read_safe_iff hc.1]
      exact fun entry hd h0 n hn =>
        h n (.inr ⟨entries,rest,hp,reader,he,hm,call.1,entry,hd,h0,hn⟩)

end anyFile

end SingBoxAuth.Geosite
