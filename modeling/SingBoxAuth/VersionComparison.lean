import Mathlib.Algebra.Order.Ring.Int
import Mathlib.Data.List.Basic

/-! Versions: what is read from a text, and their comparison, which ranks pre-releases while its
equality looks at every field. -/
namespace SingBoxAuth.VersionComparison

structure Version where
  major : ℤ
  minor : ℤ
  patch : ℤ
  commit : List Char
  preReleaseIdentifier : List Char
  preReleaseVersion : ℤ
  deriving DecidableEq

/-- The loop of ParseUint: a letter that is no digit is an error, unless the number has left the 64
bits before it. -/
def parseUint : ℕ → List Char → Option ℕ
  | n, [] => some n
  | n, c :: text =>
    if c.isDigit then
      let n₁ := n * 10 + (c.toNat - '0'.toNat)
      if n₁ < 2 ^ 64 then parseUint n₁ text else some (2 ^ 64 - 1)
    else none

/-- The number that Atoi returns with or without an error: 0 if the text is none, and the nearest one
if it is out of range. -/
def atoi (text : List Char) : ℤ :=
  let magnitude (digits : List Char) : ℕ :=
    if digits = [] then 0 else (parseUint 0 digits).getD 0
  match text with
  | '-' :: digits => -(min (magnitude digits) (2 ^ 63) : ℕ)
  | '+' :: digits => (min (magnitude digits) (2 ^ 63 - 1) : ℕ)
  | digits => (min (magnitude digits) (2 ^ 63 - 1) : ℕ)

def parseIdentifier (version : Version) (identifier : List Char) : Version :=
  if '.' ∈ identifier then
    let identifierParts := identifier.splitOn '.'
    { version with
      preReleaseIdentifier := identifierParts.headD []
      preReleaseVersion := (identifierParts[1]?.map atoi).getD 0 }
  else if "alpha".toList.isPrefixOf identifier then
    { version with
      preReleaseIdentifier := "alpha".toList, preReleaseVersion := atoi (identifier.drop 5) }
  else if "beta".toList.isPrefixOf identifier then
    { version with
      preReleaseIdentifier := "beta".toList, preReleaseVersion := atoi (identifier.drop 4) }
  else { version with commit := identifier }

def parse (versionName : List Char) : Version :=
  let versionName := if "v".toList.isPrefixOf versionName then versionName.drop 1 else versionName
  let parts := versionName.splitOn '-'
  let version : Version :=
    if '-' ∈ versionName then parseIdentifier ⟨0,0,0,[],[],0⟩ (parts[1]?.getD [])
    else ⟨0,0,0,[],[],0⟩
  let versionElements := (parts.headD []).splitOn '.'
  let number (i : ℕ) : ℤ := (versionElements[i]?.map atoi).getD 0
  { version with major := number 0, minor := number 1, patch := number 2 }

def parsePreReleaseIdentifier (identifier : List Char) : ℕ :=
  if "rc".toList.isPrefixOf identifier then 1
  else if "beta".toList.isPrefixOf identifier then 2
  else if "alpha".toList.isPrefixOf identifier then 3
  else 0

namespace Version

def greaterThan (v w : Version) : Bool :=
  if v.major > w.major then true
  else if v.major < w.major then false
  else if v.minor > w.minor then true
  else if v.minor < w.minor then false
  else if v.patch > w.patch then true
  else if v.patch < w.patch then false
  else if v.preReleaseIdentifier = [] ∧ w.preReleaseIdentifier ≠ [] then true
  else if v.preReleaseIdentifier ≠ [] ∧ w.preReleaseIdentifier = [] then false
  else if v.preReleaseIdentifier ≠ [] ∧ w.preReleaseIdentifier ≠ [] then
    if v.preReleaseIdentifier = w.preReleaseIdentifier ∧
      v.preReleaseVersion > w.preReleaseVersion then true
    else if v.preReleaseIdentifier = w.preReleaseIdentifier ∧
      v.preReleaseVersion < w.preReleaseVersion then false
    else parsePreReleaseIdentifier v.preReleaseIdentifier <
      parsePreReleaseIdentifier w.preReleaseIdentifier
  else false

def greaterThanOrEqual (v w : Version) : Bool := v = w || v.greaterThan w

def lessThan (v w : Version) : Bool := !v.greaterThanOrEqual w

def rank (v : Version) : ℕ := parsePreReleaseIdentifier v.preReleaseIdentifier

def SameNumbers (v w : Version) : Prop := v.major = w.major ∧ v.minor = w.minor ∧ v.patch = w.patch

def Newer (v w : Version) : Prop :=
  v.major > w.major ∨ v.major = w.major ∧ (v.minor > w.minor ∨
    v.minor = w.minor ∧ v.patch > w.patch)

/-- The order of versions with the same numbers. -/
def Riper (v w : Version) : Prop :=
  w.preReleaseIdentifier ≠ [] ∧ (v.preReleaseIdentifier = [] ∨
    v.preReleaseIdentifier = w.preReleaseIdentifier ∧ v.preReleaseVersion > w.preReleaseVersion ∨
    v.preReleaseIdentifier ≠ [] ∧ v.rank < w.rank)

/-- What sets two versions apart: the numbers, a pre-release on one side only, the version of the same
pre-release, or pre-releases of another rank. -/
def SetApart (v w : Version) : Prop :=
  ¬ v.SameNumbers w ∨
    (v.preReleaseIdentifier = [] ↔ w.preReleaseIdentifier ≠ []) ∨
    v.preReleaseIdentifier ≠ [] ∧ v.preReleaseIdentifier = w.preReleaseIdentifier ∧
      v.preReleaseVersion ≠ w.preReleaseVersion ∨
    v.preReleaseIdentifier ≠ [] ∧ v.rank ≠ w.rank

end Version

open Version

variable {u v w : Version}

lemma rank_congr (h : v.preReleaseIdentifier = w.preReleaseIdentifier) : v.rank = w.rank := by
  rw [rank,rank,h]

lemma greaterThan_iff : v.greaterThan w = true ↔ v.Newer w ∨ v.SameNumbers w ∧ v.Riper w := by
  obtain h1 | h1 | h1 := lt_trichotomy v.major w.major
  · simp [greaterThan,Newer,SameNumbers,h1,h1.not_gt,h1.ne]
  · obtain h2 | h2 | h2 := lt_trichotomy v.minor w.minor
    · simp [greaterThan,Newer,SameNumbers,h1,h2,h2.not_gt,h2.ne]
    · obtain h3 | h3 | h3 := lt_trichotomy v.patch w.patch
      · simp [greaterThan,Newer,SameNumbers,h1,h2,h3,h3.not_gt,h3.ne]
      · by_cases hv : v.preReleaseIdentifier = []
        · simp [greaterThan,Newer,SameNumbers,Riper,h1,h2,h3,hv]
        · by_cases hw : w.preReleaseIdentifier = []
          · simp [greaterThan,Newer,SameNumbers,Riper,h1,h2,h3,hv,hw]
          · by_cases he : v.preReleaseIdentifier = w.preReleaseIdentifier
            · simp [greaterThan,Newer,SameNumbers,Riper,h1,h2,h3,hw,he,rank]
            · simp [greaterThan,Newer,SameNumbers,Riper,h1,h2,h3,hv,hw,he,rank]
      · simp [greaterThan,Newer,SameNumbers,h1,h2,h3]
    · simp [greaterThan,Newer,SameNumbers,h1,h2]
  · simp [greaterThan,Newer,SameNumbers,h1]

lemma Version.Riper.trans (h : u.Riper v) (h' : v.Riper w) : u.Riper w := by
  obtain ⟨hv,h⟩ := h
  obtain ⟨hw,h'⟩ := h'
  refine ⟨hw,?_⟩
  obtain hu | ⟨he,hlt⟩ | ⟨hu,hr⟩ := h
  · exact .inl hu
  · obtain h0 | ⟨he',hlt'⟩ | ⟨-,hr'⟩ := h'
    · exact absurd h0 hv
    · exact .inr (.inl ⟨he.trans he',by omega⟩)
    · exact .inr (.inr ⟨he ▸ hv,rank_congr he ▸ hr'⟩)
  · obtain h0 | ⟨he',hlt'⟩ | ⟨-,hr'⟩ := h'
    · exact absurd h0 hv
    · exact .inr (.inr ⟨hu,rank_congr he' ▸ hr⟩)
    · exact .inr (.inr ⟨hu,hr.trans hr'⟩)

lemma greaterThan_trans (h : u.greaterThan v = true) (h' : v.greaterThan w = true) :
    u.greaterThan w = true := by
  rw [greaterThan_iff] at h h' ⊢
  obtain hn | ⟨hs,hr⟩ := h
  · refine .inl ?_
    obtain hn' | ⟨hs',-⟩ := h'
    · unfold Newer at *
      omega
    · unfold Newer SameNumbers at *
      omega
  · obtain hn' | ⟨hs',hr'⟩ := h'
    · unfold Newer SameNumbers at *
      omega
    · refine .inr ⟨?_,hr.trans hr'⟩
      exact ⟨hs.1.trans hs'.1,hs.2.1.trans hs'.2.1,hs.2.2.trans hs'.2.2⟩

lemma greaterThan_irrefl (v : Version) : v.greaterThan v = false := by
  rw [Bool.eq_false_iff,ne_eq,greaterThan_iff]
  simp [Newer,Riper]

lemma greaterThan_asymm (h : v.greaterThan w = true) : w.greaterThan v = false := by
  rw [Bool.eq_false_iff]
  intro h'
  have hv := greaterThan_trans h h'
  rw [greaterThan_irrefl] at hv
  cases hv

lemma greaterThan_or_iff : v.greaterThan w = true ∨ w.greaterThan v = true ↔ v.SetApart w := by
  rw [greaterThan_iff,greaterThan_iff]
  by_cases hs : v.SameNumbers w
  · have hs' : w.SameNumbers v := ⟨hs.1.symm,hs.2.1.symm,hs.2.2.symm⟩
    have hn : ¬ v.Newer w ∧ ¬ w.Newer v := by
      unfold Newer
      unfold SameNumbers at hs
      omega
    simp only [hs,hs',hn,false_or,true_and,SetApart,not_true_eq_false,Riper]
    by_cases hv : v.preReleaseIdentifier = []
    · simp [hv]
    · by_cases hw : w.preReleaseIdentifier = []
      · simp [hv,hw]
      · by_cases he : v.preReleaseIdentifier = w.preReleaseIdentifier
        · simp only [hw,he,rank_congr he,ne_eq,not_false_eq_true,true_and,false_or,
            lt_irrefl,and_false,or_false,iff_true,not_true_eq_false]
          omega
        · simp only [hv,hw,he,Ne.symm he,ne_eq,not_false_eq_true,true_and,false_or,
            false_and,iff_true]
          omega
  · have hn : v.Newer w ∨ w.Newer v := by
      unfold Newer
      unfold SameNumbers at hs
      omega
    refine iff_of_true ?_ (.inl hs)
    exact hn.imp .inl .inl

lemma greaterThanOrEqual_iff : v.greaterThanOrEqual w = true ↔ v = w ∨ v.greaterThan w = true := by
  simp [greaterThanOrEqual]

lemma greaterThanOrEqual_trans (h : u.greaterThanOrEqual v = true)
    (h' : v.greaterThanOrEqual w = true) : u.greaterThanOrEqual w = true := by
  rw [greaterThanOrEqual_iff] at h h' ⊢
  obtain rfl | h := h
  · exact h'
  · obtain rfl | h' := h'
    · exact .inr h
    · exact .inr (greaterThan_trans h h')

lemma lessThan_iff : v.lessThan w = true ↔ v ≠ w ∧ v.greaterThan w = false := by
  simp [lessThan,greaterThanOrEqual]

/-- The laws of a total preorder for two versions, with any third one that is read from a text, and
what is equal in it. -/
def Lawful (v w : Version) : Prop :=
  ¬ (v.lessThan w = true ∧ w.lessThan v = true) ∧
  (v.lessThan w = true ↔ w.greaterThan v = true) ∧
  (∀ c, (parse c).greaterThanOrEqual v = true → v.greaterThanOrEqual w = true →
    (parse c).greaterThanOrEqual w = true) ∧
  (v.SameNumbers w → v.preReleaseIdentifier = [] → w.preReleaseIdentifier = [] →
    v.greaterThanOrEqual w = true ∧ w.greaterThanOrEqual v = true)

/-- For all texts, the versions that are read from them obey the laws exactly if they are equal in all
fields or set apart by the order. -/
theorem lawful_parse_iff (a b : List Char) :
    Lawful (parse a) (parse b) ↔ parse a = parse b ∨ (parse a).SetApart (parse b) := by
  generalize parse a = v
  generalize parse b = w
  constructor
  · intro h
    by_contra hn
    obtain ⟨hne,hap⟩ := not_or.mp hn
    rw [← greaterThan_or_iff,not_or,Bool.not_eq_true,Bool.not_eq_true] at hap
    exact h.1 ⟨lessThan_iff.mpr ⟨hne,hap.1⟩,lessThan_iff.mpr ⟨Ne.symm hne,hap.2⟩⟩
  · intro h
    refine ⟨?_,?_,fun c => greaterThanOrEqual_trans,?_⟩
    · rw [lessThan_iff,lessThan_iff]
      rintro ⟨⟨hne,h1⟩,-,h2⟩
      have hap := h.resolve_left hne
      rw [← greaterThan_or_iff,h1,h2] at hap
      simp at hap
    · rw [lessThan_iff]
      constructor
      · intro ⟨hne,h1⟩
        have hap := h.resolve_left hne
        rw [← greaterThan_or_iff,h1] at hap
        exact hap.resolve_left (by simp)
      · intro hgt
        refine ⟨?_,greaterThan_asymm hgt⟩
        rintro rfl
        rw [greaterThan_irrefl] at hgt
        cases hgt
    · intro hs hv hw
      have heq : v = w := h.resolve_right (by simp [SetApart,hs,hv,hw])
      simp [greaterThanOrEqual,heq]

/-- Each of two builds of one version is less than the other, and so is each of two pre-releases of
the same rank. -/
theorem builds_below_each_other :
    (parse "1.0.0-a".toList).lessThan (parse "1.0.0-b".toList) = true ∧
      (parse "1.0.0-b".toList).lessThan (parse "1.0.0-a".toList) = true ∧
      (parse "1.0.0-dev.1".toList).lessThan (parse "1.0.0-test.2".toList) = true ∧
      (parse "1.0.0-test.2".toList).lessThan (parse "1.0.0-dev.1".toList) = true := by
  decide

end SingBoxAuth.VersionComparison
