import Mathlib.Data.List.TakeWhile
import SingBoxAuth.ByteReaders
import SingBoxAuth.Outcomes

/-! The conversion of AdGuard filter lists: how marks and modifiers are cut off a line, with every
slice checked, and which lines are cut out of their bounds. -/
namespace SingBoxAuth.AdGuard
open ByteReaders Outcomes Outcome

def ascii (text : String) : Bytes := text.toList.map fun c => UInt8.ofNat c.toNat

def bar : UInt8 := 124

def dollar : UInt8 := 36

def slash : UInt8 := 47

def caret : UInt8 := 94

def sign : UInt8 := 64

/-- The library functions on names and addresses: no domain name has a slash in it, and no address
begins with one of the marks. -/
structure NameLibrary where
  isDomainName : Bytes → Bool
  /-- Parsing an address, which is the unspecified one or another. -/
  parseAddr : Bytes → Option Bool
  /-- The text is the unspecified address, in brackets or not. -/
  isUnspecified : Bytes → Bool
  name_slash : ∀ s, isDomainName s = true → slash ∉ s
  addr_head : ∀ s, parseAddr s ≠ none → ∀ c ∈ s.head?, c ≠ slash ∧ c ≠ sign ∧ c ≠ bar

structure RuleLine where
  ruleLine : Bytes
  isRawDomain : Bool
  isExclude : Bool
  isSuffix : Bool
  hasStart : Bool
  hasEnd : Bool
  isRegexp : Bool
  isImportant : Bool
  deriving DecidableEq

abbrev Line := Outcome Empty

def stripEnd (mark : UInt8) (line : Bytes) : Line (Bytes × Bool) :=
  if line.getLast? = some mark then do
    let line ← slice line 0 (line.length - 1)
    .ok (line,true)
  else .ok (line,false)

def stripStart (mark line : Bytes) : Line (Bytes × Bool) :=
  if mark.isPrefixOf line then do
    let line ← sliceFrom line mark.length
    .ok (line,true)
  else .ok (line,false)

def stripBars (line : Bytes) : Line (Bytes × Bool × Bool) := do
  let (line,isSuffix) ← stripStart [bar,bar] line
  if isSuffix then .ok (line,true,false)
  else do
    let (line,hasStart) ← stripStart [bar] line
    .ok (line,false,hasStart)

/-- The text before and after the first occurrence of a part that is not empty. -/
def cutAt (part : Bytes) : Bytes → Option (Bytes × Bytes)
  | [] => none
  | c :: rest =>
    if part.isPrefixOf (c :: rest) then some ([],(c :: rest).drop part.length)
    else (cutAt part rest).map fun cut => (c :: cut.1,cut.2)

def substringBefore (part text : Bytes) : Bytes := ((cutAt part text).map Prod.fst).getD text

def isUint8 (text : Bytes) : Bool :=
  text ≠ [] && text.all (fun c => 48 ≤ c && c ≤ 57) &&
    text.foldl (fun n c => 10 * n + (c.toNat - 48)) 0 < 256

/-- The expression without the beginning that matches a scheme or the start of a name. -/
def dropScheme (ruleLine : Bytes) : Line Bytes :=
  if (ascii "(http?:\\/\\/)").isPrefixOf ruleLine then sliceFrom ruleLine 12
  else if (ascii "(https?:\\/\\/)").isPrefixOf ruleLine then sliceFrom ruleLine 13
  else if (ascii "^").isPrefixOf ruleLine then sliceFrom ruleLine 1
  else .ok ruleLine

def ignoreIPCIDRRegexp (ruleLine : Bytes) : Line Bool := do
  let ruleLine ← dropScheme ruleLine
  .ok (isUint8 (substringBefore (ascii "\\.") ruleLine) ||
    isUint8 (substringBefore (ascii ".") ruleLine))

/-- Whether the line is an address or the beginning of one. Four parts become an array. -/
def parseADGuardIPCIDRLine (ruleLine : Bytes) : Line Bool := do
  let (ruleLine,isPrefix) ← stripEnd 46 ruleLine
  let parts := ruleLine.splitOn 46
  if 4 < parts.length ∨ parts.length < 4 ∧ isPrefix = false then .ok false
  else if parts.all isUint8 then
    if 4 ≤ (parts ++ List.replicate (4 - parts.length) []).length then .ok true else .outOfRange
  else .ok false

section parsing

variable (lib : NameLibrary)

/-- A line of a hosts file: the domain, which is empty if the address is not the unspecified one;
none is an error. -/
def parseAdGuardHostLine (ruleLine : Bytes) : Line (Option Bytes) :=
  let idx := ruleLine.idxOf 32
  if idx = ruleLine.length then .ok none
  else do
    let address ← slice ruleLine 0 idx
    let domain ← sliceFrom ruleLine (idx + 1)
    .ok (match lib.parseAddr address with
      | none => none
      | some false => some []
      | some true => if lib.isDomainName domain then some domain else none)

/-- One modifier: none if it is not supported, otherwise whether it makes the line important. -/
def parseModifier (param : Bytes) : Option Bool :=
  match param.splitOn 61 with
  | [key] => if key = ascii "important" then some true else none
  | [key,value] =>
    if key = ascii "important" then some true
    else if key = ascii "dnsrewrite" ∧ lib.isUnspecified value = true then some false
    else none
  | _ => none

/-- The line before its modifiers, and whether one of them is important. -/
def parseModifiers (line : Bytes) : Option (Bytes × Bool) :=
  if line.head? ≠ some slash ∧ dollar ∈ line then
    let params := (line.dropWhile (· ≠ dollar)).tail
    ((params.splitOn 44).mapM (parseModifier lib)).map fun important =>
      (line.takeWhile (· ≠ dollar),important.any id)
  else some (line,false)

/-- What is checked to be a domain name: a beginning is put before a dot or hyphen, and stars
count as letters. -/
def domainCheck (ruleLine : Bytes) : Bytes :=
  let checked := if ruleLine.head? = some 46 ∨ ruleLine.head? = some 45 then 114 :: ruleLine
    else ruleLine
  checked.map fun c => if c = 42 then 120 else c

/-- A pattern; none is a line that is ignored. -/
def parsePattern (line : RuleLine) : Line (Option RuleLine) :=
  let line := match cutAt (ascii "://") line.ruleLine with
    | some cut => { line with ruleLine := cut.2, isSuffix := true }
    | none => line
  if (ascii "/?&[]()!#~").any fun c => c ∈ line.ruleLine then .ok none
  else if line.ruleLine = [] then .ok none
  else if lib.isDomainName (domainCheck line.ruleLine) then .ok (some line)
  else parseADGuardIPCIDRLine line.ruleLine >>= fun _ => .ok none

def parseBody (line : RuleLine) : Line (Option RuleLine) :=
  if line.ruleLine.head? = some slash ∧ line.ruleLine.getLast? = some slash then do
    let expression ← slice line.ruleLine 1 (line.ruleLine.length - 1)
    let ignored ← ignoreIPCIDRRegexp expression
    .ok (if ignored then none else some { line with ruleLine := expression, isRegexp := true })
  else parsePattern lib line

/-- A line that is neither a domain nor a line of a hosts file. -/
def parseRule (text : Bytes) : Line (Option RuleLine) := do
  let (line,_) ← stripEnd bar text
  match parseModifiers lib line with
  | none => .ok none
  | some (line,isImportant) => do
    let (line,isExclude) ← stripStart [sign,sign] line
    let (line,_) ← stripEnd bar line
    let (line,isSuffix,hasStart) ← stripBars line
    let (line,hasEnd) ← stripEnd caret line
    parseBody lib ⟨line,false,isExclude,isSuffix,hasStart,hasEnd,false,isImportant⟩

def parseLine (text : Bytes) : Line (Option RuleLine) :=
  if text = [] ∨ text.head? = some 33 ∨ text.head? = some 35 then .ok none
  else if lib.isDomainName text then
    .ok (some ⟨text,true,false,false,false,false,false,false⟩)
  else do
    match ← parseAdGuardHostLine lib text with
    | some [] => .ok none
    | some host => .ok (some ⟨host,true,false,false,true,true,false,false⟩)
    | none => parseRule lib text

def parseLines : List Bytes → Line (List RuleLine)
  | [] => .ok []
  | text :: lines => do
    let line ← parseLine lib text
    let rest ← parseLines lines
    .ok (line.toList ++ rest)

end parsing

/-- The bytes that end a line are line feeds; a line at the end of the text need not have one. -/
def splitLines (line : Bytes) : Bytes → List Bytes
  | [] => if line = [] then [] else [line]
  | c :: rest => if c = 10 then line :: splitLines [] rest else splitLines (line ++ [c]) rest

/-- The lines up to the first one that does not fit the scanner's buffer. -/
def scanLines (text : Bytes) : List Bytes :=
  ((splitLines [] text).takeWhile fun line => line.length ≤ 65535).map fun line =>
    if line.getLast? = some 13 then line.dropLast else line

namespace RuleLine

def mapDomain (line : RuleLine) : Bytes :=
  (if line.isSuffix then [bar,bar] else if line.hasStart then [bar] else []) ++
    line.ruleLine ++ if line.hasEnd then [caret] else []

def inClass (line : RuleLine) (isImportant isRegexp isExclude : Bool) : Bool :=
  line.isImportant == isImportant && line.isRegexp == isRegexp && line.isExclude == isExclude

end RuleLine

inductive HeadlessRule
  | domains (domain : List Bytes)
  | patterns (adGuardDomain domainRegex : List Bytes) (invert : Bool)
  | both (first second : HeadlessRule)
  | either (first second : HeadlessRule)

section options

variable (lines : List RuleLine)

def classTexts (isImportant isRegexp isExclude : Bool) : List Bytes :=
  (lines.filter fun line => line.inClass isImportant isRegexp isExclude).map RuleLine.mapDomain

def addLayer (isImportant isExclude : Bool) (currentRule : HeadlessRule) : HeadlessRule :=
  let domain := classTexts lines isImportant false isExclude
  let domainRegex := classTexts lines isImportant true isExclude
  if domain ≠ [] ∨ domainRegex ≠ [] then
    (if isExclude then HeadlessRule.both else .either) (.patterns domain domainRegex isExclude)
    currentRule
  else currentRule

def ruleOf : HeadlessRule :=
  if lines.all RuleLine.isRawDomain then .domains (lines.map RuleLine.ruleLine)
  else
    let currentRule := .patterns (classTexts lines false false false)
      (classTexts lines false true false) false
    addLayer lines true true (addLayer lines true false (addLayer lines false true currentRule))

end options

inductive ConvertError
  | empty

def toOptions (lib : NameLibrary) (text : Bytes) : Outcome ConvertError (List HeadlessRule) :=
  (parseLines lib (scanLines text)).handle
    (fun lines => if lines = [] then .error .empty else .ok [ruleOf lines]) Empty.elim

section marks

variable {mark c : UInt8} {line text x : Bytes}

def cutEnd (mark : UInt8) (line : Bytes) : Bytes × Bool :=
  if line.getLast? = some mark then (line.dropLast,true) else (line,false)

def cutStart (mark line : Bytes) : Bytes × Bool :=
  if mark.isPrefixOf line then (line.drop mark.length,true) else (line,false)

lemma stripEnd_eq (mark : UInt8) (line : Bytes) : stripEnd mark line = .ok (cutEnd mark line) := by
  unfold stripEnd cutEnd
  split
  · rw [slice_of_le (Nat.zero_le _) (Nat.sub_le ..),ok_bind,List.dropLast_eq_take]
    rfl
  · rfl

lemma stripStart_eq (mark line : Bytes) : stripStart mark line = .ok (cutStart mark line) := by
  unfold stripStart cutStart
  split
  · rename_i h
    rw [sliceFrom_of_le (List.isPrefixOf_iff_prefix.mp h).length_le,ok_bind]
  · rfl

def cutBars (line : Bytes) : Bytes × Bool × Bool :=
  if (cutStart [bar,bar] line).2 then ((cutStart [bar,bar] line).1,true,false)
  else ((cutStart [bar] (cutStart [bar,bar] line).1).1,false,
    (cutStart [bar] (cutStart [bar,bar] line).1).2)

lemma stripBars_eq (line : Bytes) : stripBars line = .ok (cutBars line) := by
  unfold stripBars cutBars
  rw [stripStart_eq,ok_bind]
  dsimp only
  split
  · rfl
  · rw [stripStart_eq,ok_bind]

lemma cutEnd_eq_iff :
    (cutEnd mark line).1 = x ↔ line = x ++ [mark] ∨ line = x ∧ x.getLast? ≠ some mark := by
  unfold cutEnd
  split_ifs with h
  · obtain ⟨front,rfl⟩ := List.getLast?_eq_some_iff.mp h
    simp only [List.dropLast_concat,List.append_left_inj]
    constructor
    · exact fun hx => .inl hx
    · rintro (hx | ⟨rfl,hx⟩)
      · exact hx
      · exact absurd h hx
  · constructor
    · rintro rfl
      exact .inr ⟨rfl,h⟩
    · rintro (rfl | ⟨rfl,-⟩)
      · simp at h
      · rfl

lemma cutStart_eq_iff {mark : Bytes} :
    (cutStart mark line).1 = x ↔ line = mark ++ x ∨ line = x ∧ ¬ mark <+: x := by
  unfold cutStart
  split_ifs with h
  · obtain ⟨rest,rfl⟩ := List.isPrefixOf_iff_prefix.mp h
    simp only [List.drop_left,List.append_cancel_left_eq]
    constructor
    · exact fun hx => .inl hx
    · rintro (hx | ⟨rfl,hx⟩)
      · exact hx
      · exact absurd (List.prefix_append ..) hx
  · rw [List.isPrefixOf_iff_prefix] at h
    constructor
    · rintro rfl
      exact .inr ⟨rfl,h⟩
    · rintro (rfl | ⟨rfl,-⟩)
      · exact absurd (List.prefix_append ..) h
      · rfl

lemma cutEnd_append_cons (h : c ≠ mark) (front rest : Bytes) :
    (cutEnd mark (front ++ c :: rest)).1 = front ++ c :: (cutEnd mark rest).1 := by
  rw [cutEnd_eq_iff]
  obtain hr | ⟨hr,hl⟩ := cutEnd_eq_iff.mp (rfl : (cutEnd mark rest).1 = _)
  · exact .inl (by rw [List.append_assoc,List.cons_append,← hr])
  · rw [← hr] at hl ⊢
    refine .inr ⟨rfl,?_⟩
    cases rest with
    | nil => simpa using h
    | cons d rest => simpa using hl

end marks

section bounds

variable (lib : NameLibrary)

def anchors (line : Bytes) (isImportant : Bool) : RuleLine :=
  let exclude := cutStart [sign,sign] line
  let start := cutBars (cutEnd bar exclude.1).1
  let stop := cutEnd caret start.1
  ⟨stop.1,false,exclude.2,start.2.1,start.2.2,stop.2,false,isImportant⟩

lemma parseRule_eq (text : Bytes) :
    parseRule lib text = match parseModifiers lib (cutEnd bar text).1 with
      | none => .ok none
      | some (line,isImportant) => parseBody lib (anchors line isImportant) := by
  unfold parseRule anchors
  rw [stripEnd_eq,ok_bind]
  dsimp only
  split
  · rfl
  · simp only [stripEnd_eq,stripStart_eq,stripBars_eq,ok_bind]

lemma sliceFrom_safe {mark line : Bytes} {k : ℕ} (h : mark.isPrefixOf line = true)
    (hk : mark.length = k) : (sliceFrom line k : Line Bytes).Safe := by
  rw [sliceFrom_of_le (hk ▸ (List.isPrefixOf_iff_prefix.mp h).length_le)]
  trivial

lemma ignoreIPCIDRRegexp_safe (line : Bytes) : (ignoreIPCIDRRegexp line).Safe := by
  have hd : (dropScheme line).Safe := by
    unfold dropScheme
    split_ifs with h1 h2 h3
    · exact sliceFrom_safe h1 rfl
    · exact sliceFrom_safe h2 rfl
    · exact sliceFrom_safe h3 rfl
    · trivial
  exact hd.bind fun _ _ => trivial

lemma parseADGuardIPCIDRLine_safe (line : Bytes) : (parseADGuardIPCIDRLine line).Safe := by
  unfold parseADGuardIPCIDRLine
  rw [stripEnd_eq,ok_bind]
  dsimp only
  split_ifs with h1 h2 h3
  · trivial
  · trivial
  · simp only [List.length_append,List.length_replicate] at h3
    omega
  · trivial

lemma parsePattern_safe (line : RuleLine) : (parsePattern lib line).Safe := by
  unfold parsePattern
  dsimp only
  split_ifs
  · trivial
  · trivial
  · trivial
  · exact (parseADGuardIPCIDRLine_safe _).bind fun _ _ => trivial

/-- The expression between two slashes is out of bounds exactly if they are one and the same. -/
lemma parseBody_safe_iff (line : RuleLine) :
    (parseBody lib line).Safe ↔ line.ruleLine ≠ [slash] := by
  unfold parseBody
  split_ifs with h
  · obtain ⟨front,hf⟩ := List.getLast?_eq_some_iff.mp h.2
    cases front with
    | nil => simp [hf,slice,Outcome.Safe]
    | cons c front =>
      rw [hf]
      rw [slice_of_le (by simp) (by simp),ok_bind]
      simp only [List.cons_append,ne_eq,List.cons.injEq,List.append_eq_nil_iff,reduceCtorEq,
        and_false,not_false_eq_true,iff_true]
      exact (ignoreIPCIDRRegexp_safe _).bind fun _ _ => trivial
  · simp only [parsePattern_safe,true_iff]
    intro he
    simp [he] at h

lemma parseAdGuardHostLine_ok (text : Bytes) : ∃ host,parseAdGuardHostLine lib text = .ok host := by
  unfold parseAdGuardHostLine
  dsimp only
  split_ifs with h
  · exact ⟨none,rfl⟩
  · have hl : text.idxOf 32 < text.length := lt_of_le_of_ne List.idxOf_le_length h
    rw [slice_of_le (Nat.zero_le _) hl.le,sliceFrom_of_le hl]
    exact ⟨_,rfl⟩

def Core (front core : Bytes) : Prop :=
  ∃ exclude ∈ [[],[sign,sign]], ∃ start ∈ [[],[bar],[bar,bar]],
    ∃ stop ∈ [[],[caret],[bar],[caret,bar]],
      front = exclude ++ start ∧ core = exclude ++ start ++ [slash] ++ stop

/-- A line that is a single slash but for marks, with a further bar at its end or not; or, if marks
stand before the slash, with supported modifiers behind it. -/
def LoneSlash (text : Bytes) : Prop :=
  ∃ front core, Core front core ∧ (text = core ∨ text = core ++ [bar] ∨ front ≠ [] ∧
    ∃ params, text = core ++ [dollar] ++ params ∧
      (((cutEnd bar params).1.splitOn 44).mapM (parseModifier lib)).isSome)

lemma cutBars_eq {line x : Bytes} (h : (cutBars line).1 = slash :: x) :
    ∃ start ∈ [[],[bar],[bar,bar]],line = start ++ slash :: x := by
  unfold cutBars at h
  split_ifs at h with hb
  · obtain rfl | ⟨rfl,-⟩ := cutStart_eq_iff.mp h
    · exact ⟨[bar,bar],by simp,rfl⟩
    · exact ⟨[],by simp,rfl⟩
  · have hn : (cutStart [bar,bar] line).1 = line := by
      unfold cutStart at hb ⊢
      split_ifs at hb ⊢ with hp
      · exact absurd rfl hb
      · rfl
    rw [hn] at h
    obtain rfl | ⟨rfl,-⟩ := cutStart_eq_iff.mp h
    · exact ⟨[bar],by simp,rfl⟩
    · exact ⟨[],by simp,rfl⟩

lemma anchors_eq_iff (line : Bytes) (isImportant : Bool) :
    (anchors line isImportant).ruleLine = [slash] ↔ ∃ front,Core front line := by
  constructor
  · intro h
    obtain ⟨stop,hs,hc⟩ : ∃ stop ∈ [[],[caret]],
        (cutBars (cutEnd bar (cutStart [sign,sign] line).1).1).1 = slash :: stop := by
      obtain hc | ⟨hc,-⟩ := cutEnd_eq_iff.mp h
      · exact ⟨[caret],by simp,hc⟩
      · exact ⟨[],by simp,hc⟩
    obtain ⟨start,hb,hc⟩ := cutBars_eq hc
    obtain ⟨last,hl,hc⟩ : ∃ last ∈ [[],[bar]],
        (cutStart [sign,sign] line).1 = start ++ slash :: stop ++ last := by
      obtain hc | ⟨hc,-⟩ := cutEnd_eq_iff.mp hc
      · exact ⟨[bar],by simp,hc⟩
      · exact ⟨[],by simp,by rw [hc,List.append_nil]⟩
    obtain ⟨exclude,he,rfl⟩ : ∃ exclude ∈ [[],[sign,sign]],
        line = exclude ++ (start ++ slash :: stop ++ last) := by
      obtain hc | ⟨hc,-⟩ := cutStart_eq_iff.mp hc
      · exact ⟨[sign,sign],by simp,hc⟩
      · exact ⟨[],by simp,hc⟩
    refine ⟨_,exclude,he,start,hb,stop ++ last,?_,rfl,by simp⟩
    simp only [List.mem_cons,List.not_mem_nil,or_false] at hs hl ⊢
    obtain rfl | rfl := hs <;> obtain rfl | rfl := hl <;> simp
  · rintro ⟨front,exclude,he,start,hs,stop,ht,-,rfl⟩
    simp only [List.mem_cons,List.not_mem_nil,or_false] at he hs ht
    obtain rfl | rfl := he <;> obtain rfl | rfl | rfl := hs <;>
      obtain rfl | rfl | rfl | rfl := ht <;> rfl

lemma Core.head {front core : Bytes} (h : Core front core) :
    dollar ∉ core ∧ slash ∈ core ∧ (core.head? ≠ some slash ↔ front ≠ []) ∧
      ∀ c ∈ core.head?,c = slash ∨ c = sign ∨ c = bar := by
  obtain ⟨exclude,he,start,hs,stop,ht,rfl,rfl⟩ := h
  simp only [List.mem_cons,List.not_mem_nil,or_false] at he hs ht
  obtain rfl | rfl := he <;> obtain rfl | rfl | rfl := hs <;>
    obtain rfl | rfl | rfl | rfl := ht <;> simp [dollar,slash,sign,bar,caret]

lemma Core.cutEnd {front core : Bytes} (h : Core front core) : Core front (cutEnd bar core).1 := by
  obtain ⟨exclude,he,start,hs,stop,ht,rfl,rfl⟩ := h
  refine ⟨exclude,he,start,hs,(AdGuard.cutEnd bar stop).1,?_,rfl,?_⟩
  · simp only [List.mem_cons,List.not_mem_nil,or_false] at ht
    obtain rfl | rfl | rfl | rfl := ht <;> decide
  · rw [List.append_assoc,List.singleton_append,cutEnd_append_cons (by decide)]
    simp

lemma parseModifiers_of_core {front core : Bytes} (h : Core front core) :
    parseModifiers lib core = some (core,false) := by
  rw [parseModifiers,if_neg]
  exact fun hd => h.head.1 hd.2

lemma parseModifiers_append {core : Bytes} (hd : dollar ∉ core)
    (hh : (core ++ [dollar]).head? ≠ some slash) (params : Bytes) :
    parseModifiers lib (core ++ dollar :: params) =
      ((params.splitOn 44).mapM (parseModifier lib)).map fun important =>
        (core,important.any id) := by
  have ha : ∀ c ∈ core,decide (c ≠ dollar) = true := fun c hm =>
    decide_eq_true (ne_of_mem_of_not_mem hm hd)
  have hs : (core ++ dollar :: params).head? ≠ some slash := by
    cases core with
    | nil => exact hh
    | cons c core => exact hh
  rw [parseModifiers,if_pos ⟨hs,by simp⟩,List.takeWhile_append_of_pos ha,
    List.dropWhile_append_of_pos ha]
  simp

/-- What is left of a line before its modifiers is a slash with its marks exactly if the line is a
lone slash. -/
lemma core_iff_loneSlash (text : Bytes) :
    (∃ line isImportant front,parseModifiers lib (cutEnd bar text).1 = some (line,isImportant) ∧
      Core front line) ↔ LoneSlash lib text := by
  constructor
  · rintro ⟨line,isImportant,front,hp,hc⟩
    have ht := cutEnd_eq_iff.mp (rfl : (cutEnd bar text).1 = _)
    by_cases hd : (cutEnd bar text).1.head? ≠ some slash ∧ dollar ∈ (cutEnd bar text).1
    · obtain ⟨core,params,he,hn⟩ := List.eq_append_cons_of_mem hd.2
      have hh : (core ++ [dollar]).head? ≠ some slash := by
        have hd := hd.1
        rw [he] at hd
        cases core with
        | nil => exact hd
        | cons c core => exact hd
      rw [he,parseModifiers_append lib hn hh] at hp
      obtain ⟨important,hm,hx⟩ := Option.map_eq_some_iff.mp hp
      obtain ⟨rfl,-⟩ := Prod.mk.inj hx
      have hf : front ≠ [] := by
        rw [← hc.head.2.2.1]
        cases core with
        | nil => exact absurd hc.head.2.1 (by simp)
        | cons c core => exact hh
      rw [he] at ht
      refine ⟨front,core,hc,.inr (.inr ⟨hf,?_⟩)⟩
      obtain ht | ⟨ht,hl⟩ := ht
      · refine ⟨params ++ [bar],by simp [ht],?_⟩
        have hx : (cutEnd bar (params ++ [bar])).1 = params := cutEnd_eq_iff.mpr (.inl rfl)
        rw [hx,hm]
        rfl
      · refine ⟨params,by simp [ht],?_⟩
        have hx : (cutEnd bar params).1 = params := by
          rw [ht,cutEnd_append_cons (by decide)] at he
          simpa using he
        rw [hx,hm]
        rfl
    · rw [parseModifiers,if_neg hd] at hp
      cases hp
      refine ⟨front,_,hc,?_⟩
      obtain ht | ⟨ht,-⟩ := ht
      · exact .inr (.inl ht)
      · exact .inl ht
  · rintro ⟨front,core,hc,rfl | rfl | ⟨hf,params,rfl,hs⟩⟩
    · exact ⟨_,_,front,parseModifiers_of_core lib hc.cutEnd,hc.cutEnd⟩
    · have he : (cutEnd bar (core ++ [bar])).1 = core := cutEnd_eq_iff.mpr (.inl rfl)
      rw [he]
      exact ⟨_,_,front,parseModifiers_of_core lib hc,hc⟩
    · obtain ⟨important,hi⟩ := Option.isSome_iff_exists.mp hs
      have hh : (core ++ [dollar]).head? ≠ some slash := by
        have hx := hc.head.2.2.1.mpr hf
        cases core with
        | nil => simp [dollar,slash]
        | cons c core => exact hx
      refine ⟨core,important.any id,front,?_,hc⟩
      rw [List.append_assoc,List.singleton_append,cutEnd_append_cons (by decide),
        parseModifiers_append lib hc.head.1 hh,hi]
      rfl

lemma parseRule_safe_iff (text : Bytes) : (parseRule lib text).Safe ↔ ¬ LoneSlash lib text := by
  rw [← core_iff_loneSlash,parseRule_eq]
  cases hp : parseModifiers lib (cutEnd bar text).1 with
  | none => simp [Outcome.Safe]
  | some p =>
    dsimp only
    rw [parseBody_safe_iff,ne_eq,anchors_eq_iff]
    refine not_congr ⟨fun ⟨front,hc⟩ => ⟨p.1,p.2,front,rfl,hc⟩,?_⟩
    rintro ⟨line,isImportant,front,he,hc⟩
    cases he
    exact ⟨front,hc⟩

lemma LoneSlash.mem {lib : NameLibrary} {text : Bytes} (h : LoneSlash lib text) :
    slash ∈ text ∧ ∃ c ∈ text.head?,c = slash ∨ c = sign ∨ c = bar := by
  obtain ⟨front,core,hc,ht⟩ := h
  obtain ⟨-,hs,-,hh⟩ := hc.head
  obtain ⟨rest,rfl⟩ : ∃ rest,text = core ++ rest := by
    obtain rfl | rfl | ⟨-,params,rfl,-⟩ := ht
    · exact ⟨[],by simp⟩
    · exact ⟨_,rfl⟩
    · exact ⟨_,List.append_assoc ..⟩
  refine ⟨List.mem_append_left _ hs,?_⟩
  cases core with
  | nil => simp at hs
  | cons c core => exact ⟨c,rfl,hh c rfl⟩

lemma parseAdGuardHostLine_of_loneSlash {text : Bytes} (h : LoneSlash lib text) :
    parseAdGuardHostLine lib text = .ok none := by
  obtain ⟨-,c,hc,hm⟩ := h.mem
  unfold parseAdGuardHostLine
  dsimp only
  split_ifs with hi
  · rfl
  · have hl : text.idxOf 32 < text.length := lt_of_le_of_ne List.idxOf_le_length hi
    have hp : lib.parseAddr (text.take (text.idxOf 32)) = none := by
      by_contra hn
      obtain ⟨rest,rfl⟩ := List.head?_eq_some_iff.mp hc
      have h0 : (c :: rest).idxOf 32 = rest.idxOf 32 + 1 := by
        apply List.idxOf_cons_ne
        rintro rfl
        revert hm
        decide
      have hx := lib.addr_head _ hn c (by simp [h0])
      tauto
    rw [slice_of_le (Nat.zero_le _) hl.le,sliceFrom_of_le hl]
    simp [hp]

lemma parseLine_safe_iff (text : Bytes) : (parseLine lib text).Safe ↔ ¬ LoneSlash lib text := by
  unfold parseLine
  split_ifs with h1 h2
  · simp only [Outcome.Safe,true_iff]
    intro h
    obtain ⟨-,c,hc,hm⟩ := h.mem
    rw [Option.mem_def] at hc
    obtain rfl | h1 | h1 := h1
    · cases hc
    all_goals
      rw [h1] at hc
      cases hc
      revert hm
      decide
  · simp only [Outcome.Safe,true_iff]
    exact fun h => lib.name_slash text h2 h.mem.1
  · by_cases h : LoneSlash lib text
    · rw [parseAdGuardHostLine_of_loneSlash lib h,ok_bind]
      exact parseRule_safe_iff lib text
    · obtain ⟨host,hh⟩ := parseAdGuardHostLine_ok lib text
      rw [hh,ok_bind]
      simp only [h,not_false_eq_true,iff_true]
      split
      · trivial
      · trivial
      · exact (parseRule_safe_iff lib text).mpr h

end bounds

lemma parseLines_safe_iff (lib : NameLibrary) (lines : List Bytes) :
    (parseLines lib lines).Safe ↔ ∀ line ∈ lines,¬ LoneSlash lib line := by
  induction lines with
  | nil => simp [parseLines,Outcome.Safe]
  | cons text lines ih =>
    rw [List.forall_mem_cons,← ih,← parseLine_safe_iff,parseLines]
    cases parseLine lib text with
    | ok line => cases parseLines lib lines <;> simp [Outcome.Safe]
    | error err => exact err.elim
    | outOfRange => simp [Outcome.Safe]
    | running => simp [Outcome.Safe]

/-- A text is converted, or refused with an error, exactly if no line of it is a lone slash. -/
theorem toOptions_safe_iff (lib : NameLibrary) (text : Bytes) :
    (toOptions lib text).Safe ↔ ∀ line ∈ scanLines text, ¬ LoneSlash lib line := by
  rw [← parseLines_safe_iff,toOptions]
  cases parseLines lib (scanLines text) with
  | ok lines =>
    rw [Outcome.handle]
    split_ifs <;> simp [Outcome.Safe]
  | error err => exact err.elim
  | outOfRange => rfl
  | running => rfl

def noNames : NameLibrary where
  isDomainName := fun _ => false
  parseAddr := fun _ => none
  isUnspecified := fun _ => false
  name_slash := by simp
  addr_head := by simp

/-- A line with nothing but a slash, and one with the mark of an exception before it. -/
theorem slash_out_of_range :
    toOptions noNames (ascii "/") = .outOfRange ∧
      toOptions noNames (ascii "@@||/^$important") = .outOfRange :=
  ⟨rfl,rfl⟩

end SingBoxAuth.AdGuard
