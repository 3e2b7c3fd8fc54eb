import Mathlib

/-! The proleptic Gregorian calendar in UTC: day numbers, civil dates and the
two date layouts used for keys. Days are counted from 1 January of year 1, which
is a Monday. Instants are nanoseconds since 1 January 1970. -/
namespace SingBoxAuth.Calendar

def yearStart (p : ℤ) : ℤ := 365 * p + p / 4 - p / 100 + p / 400

/-- The 400-year cycle holds four centuries, the last of which is one day longer. -/
def century (d : ℤ) : ℤ := d / 36524 - d / 36524 / 4

/-- The four-year cycle holds four years, the last of which is one day longer. -/
def yearOfCycle (d : ℤ) : ℤ := d / 365 - d / 365 / 4

def yearsBefore (z : ℤ) : ℤ :=
  let d := z % 146097
  let rest := d - 36524 * century d
  400 * (z / 146097) + 100 * century d + 4 * (rest / 1461) + yearOfCycle (rest % 1461)

lemma century_spec {d : ℤ} (h : 0 ≤ d) (h' : d < 146097) :
    0 ≤ century d ∧ century d ≤ 3 ∧ 0 ≤ d - 36524 * century d ∧
      d - 36524 * century d ≤ 36524 ∧ (century d < 3 → d - 36524 * century d < 36524) := by
  unfold century
  omega

lemma yearOfCycle_spec {d : ℤ} (h : 0 ≤ d) (h' : d < 1461) :
    0 ≤ yearOfCycle d ∧ yearOfCycle d ≤ 3 ∧ 0 ≤ d - 365 * yearOfCycle d ∧
      d - 365 * yearOfCycle d ≤ 365 ∧ (yearOfCycle d < 3 → d - 365 * yearOfCycle d < 365) := by
  unfold yearOfCycle
  omega

section cycles

variable {e c q y : ℤ} (hc : 0 ≤ c) (hc' : c ≤ 3) (hq : 0 ≤ q) (hq' : q ≤ 24)
  (hy : 0 ≤ y) (hy' : y ≤ 3)
include hc hc' hq hq' hy hy'

lemma yearStart_cycles : yearStart (400 * e + 100 * c + 4 * q + y) =
    146097 * e + 36524 * c + 1461 * q + 365 * y := by
  unfold yearStart
  omega

lemma yearStart_cycles_succ : yearStart (400 * e + 100 * c + 4 * q + y + 1) =
    146097 * e + 36524 * c + 1461 * q + 365 * y + 365 +
      if y = 3 ∧ (q < 24 ∨ c = 3) then 1 else 0 := by
  unfold yearStart
  split <;> omega

end cycles

/-- Every day lies inside the year computed for it. -/
theorem yearsBefore_spec (z : ℤ) :
    yearStart (yearsBefore z) ≤ z ∧ z < yearStart (yearsBefore z + 1) := by
  obtain ⟨c0,c3,d0,d1,d2⟩ := century_spec (d := z % 146097) (by omega) (by omega)
  set c := century (z % 146097) with hc
  set r := z % 146097 - 36524 * c with hr
  obtain ⟨y0,y3,k0,k1,k2⟩ := yearOfCycle_spec (d := r % 1461) (by omega) (by omega)
  have hb : yearsBefore z =
      400 * (z / 146097) + 100 * c + 4 * (r / 1461) + yearOfCycle (r % 1461) := rfl
  set y := yearOfCycle (r % 1461)
  rw [hb,yearStart_cycles c0 c3 (by omega) (by omega) y0 y3,
    yearStart_cycles_succ c0 c3 (by omega) (by omega) y0 y3]
  split <;> omega

lemma yearStart_strictMono : StrictMono yearStart := by
  apply strictMono_int_of_lt_succ
  intro p
  unfold yearStart
  omega

lemma yearsBefore_mono : Monotone yearsBefore := by
  intro a b hab
  by_contra hlt
  have hs := yearStart_strictMono.monotone (show yearsBefore b + 1 ≤ yearsBefore a by omega)
  have ha := (yearsBefore_spec a).1
  have hb := (yearsBefore_spec b).2
  omega

def leapDay (p : ℤ) : ℤ := yearStart (p + 1) - yearStart p - 365

lemma leapDay_cases (p : ℤ) : leapDay p = 0 ∨ leapDay p = 1 := by
  unfold leapDay yearStart
  omega

/-- Days before the month. From March on the month lengths follow a fixed pattern. -/
def monthStart (leap m : ℤ) : ℤ :=
  if m ≤ 1 then 0 else if m = 2 then 31 else 59 + leap + (153 * (m - 3) + 2) / 5

def monthOf (leap d : ℤ) : ℤ :=
  if d < 31 then 1 else if d < 59 + leap then 2 else (5 * (d - 59 - leap) + 2) / 153 + 3

lemma monthOf_pos {leap : ℤ} (d : ℤ) : 1 ≤ monthOf leap d := by
  unfold monthOf
  split_ifs <;> omega

lemma monthOf_le {leap d : ℤ} (hd : d < 365 + leap) : monthOf leap d ≤ 12 := by
  unfold monthOf
  split_ifs <;> omega

lemma monthOf_mono (leap : ℤ) {d d' : ℤ} (h : d ≤ d') : monthOf leap d ≤ monthOf leap d' := by
  unfold monthOf
  split_ifs <;> omega

lemma monthStart_le (leap : ℤ) {d : ℤ} (hd : 0 ≤ d) : monthStart leap (monthOf leap d) ≤ d := by
  unfold monthOf monthStart
  split_ifs <;> omega

lemma day_le {leap : ℤ} (d : ℤ) (hl : leap ≤ 1) : d - monthStart leap (monthOf leap d) < 31 := by
  unfold monthOf monthStart
  split_ifs <;> omega

structure Date where
  year : ℤ
  month : ℤ
  day : ℤ
  deriving DecidableEq, Repr

attribute [ext] Date

def civil (z : ℤ) : Date :=
  let p := yearsBefore z
  let d := z - yearStart p
  let m := monthOf (leapDay p) d
  ⟨p + 1,m,d - monthStart (leapDay p) m + 1⟩

lemma civil_bounds (z : ℤ) : 1 ≤ (civil z).month ∧ (civil z).month ≤ 12 ∧
    1 ≤ (civil z).day ∧ (civil z).day ≤ 31 := by
  have hz := yearsBefore_spec z
  have hl := leapDay_cases (yearsBefore z)
  have hlt : z - yearStart (yearsBefore z) < 365 + leapDay (yearsBefore z) := by
    unfold leapDay
    omega
  refine ⟨monthOf_pos _,monthOf_le hlt,?_,?_⟩
  · have := monthStart_le (leapDay (yearsBefore z))
      (show 0 ≤ z - yearStart (yearsBefore z) by omega)
    simp only [civil]
    omega
  · have := day_le (z - yearStart (yearsBefore z)) (show leapDay (yearsBefore z) ≤ 1 by omega)
    simp only [civil]
    omega

theorem civil_injective : Function.Injective civil := by
  intro a b h
  simp only [civil,Date.mk.injEq] at h
  obtain ⟨hy,hm,hd⟩ := h
  have hp : yearsBefore a = yearsBefore b := by omega
  rw [hp] at hm hd
  rw [hm] at hd
  omega

def monthIndex (d : Date) : ℤ := 12 * d.year + d.month

theorem monthIndex_mono : Monotone fun z => monthIndex (civil z) := by
  intro a b hab
  have hy := yearsBefore_mono hab
  have ha := civil_bounds a
  have hb := civil_bounds b
  simp only [monthIndex,civil] at ha hb ⊢
  rcases hy.lt_or_eq with hlt | heq
  · omega
  · rw [heq] at ha ⊢
    have := monthOf_mono (leapDay (yearsBefore b))
      (show a - yearStart (yearsBefore b) ≤ b - yearStart (yearsBefore b) by omega)
    omega

def twoDigits (n : ℤ) : List Char :=
  [Nat.digitChar (n.toNat / 10),Nat.digitChar (n.toNat % 10)]

/-- The layout verb 2006: at least four digits, with a sign before them if negative. -/
def yearDigits (y : ℤ) : List Char :=
  (if y < 0 then ['-'] else []) ++ List.leftpad 4 '0' (Nat.toDigits 10 y.natAbs)

def formatDate (d : Date) : String :=
  String.ofList (yearDigits d.year ++ ('-' :: twoDigits d.month) ++ ('-' :: twoDigits d.day))

def formatMonth (d : Date) : String :=
  String.ofList (yearDigits d.year ++ ('-' :: twoDigits d.month))

lemma digitChar_inj {a b : ℕ} (ha : a < 10) (hb : b < 10) (h : a.digitChar = b.digitChar) :
    a = b := by
  interval_cases a <;> interval_cases b <;> first | rfl | simp [Nat.digitChar] at h

lemma twoDigits_inj {a b : ℤ} (ha : 0 ≤ a) (ha' : a < 100) (hb : 0 ≤ b) (hb' : b < 100)
    (h : twoDigits a = twoDigits b) : a = b := by
  simp only [twoDigits,List.cons.injEq,and_true] at h
  have h1 := digitChar_inj (by omega) (by omega) h.1
  have h2 := digitChar_inj (by omega) (by omega) h.2
  omega

lemma ofDigitChars_leftpad (n : ℕ) :
    Nat.ofDigitChars 10 (List.leftpad 4 '0' (Nat.toDigits 10 n)) 0 = n := by
  simp [List.leftpad,Nat.ofDigitChars_append]

lemma head_leftpad_ne (n : ℕ) (l l' : List Char) :
    List.leftpad 4 '0' (Nat.toDigits 10 n) ++ l ≠ '-' :: l' := by
  intro h
  have hm : ∀ c ∈ List.leftpad 4 '0' (Nat.toDigits 10 n),c.isDigit := by
    intro c hc
    simp only [List.leftpad,List.mem_append,List.mem_replicate] at hc
    rcases hc with ⟨-,rfl⟩ | hc
    · decide
    · exact Nat.isDigit_of_mem_toDigits (by omega) (by omega) hc
  cases hp : List.leftpad 4 '0' (Nat.toDigits 10 n) with
  | nil =>
    have hl := congrArg List.length hp
    simp [List.leftpad] at hl
  | cons c cs =>
    rw [hp] at h hm
    simp only [List.cons_append,List.cons.injEq] at h
    have := hm c (by simp)
    rw [h.1] at this
    exact absurd this (by decide)

lemma yearDigits_inj {a b : ℤ} (h : yearDigits a = yearDigits b) : a = b := by
  unfold yearDigits at h
  split_ifs at h with ha hb hb
  · have := congrArg (fun l => Nat.ofDigitChars 10 l 0) (List.append_cancel_left h)
    simp only [ofDigitChars_leftpad] at this
    omega
  · exact absurd (by simpa using h.symm) (head_leftpad_ne b.natAbs [] _)
  · exact absurd (by simpa using h) (head_leftpad_ne a.natAbs [] _)
  · have := congrArg (fun l => Nat.ofDigitChars 10 l 0) (List.append_cancel_left h)
    simp only [ofDigitChars_leftpad] at this
    omega

theorem formatMonth_inj {a b : ℤ} (h : formatMonth (civil a) = formatMonth (civil b)) :
    monthIndex (civil a) = monthIndex (civil b) := by
  have ha := civil_bounds a
  have hb := civil_bounds b
  have hl := String.ofList_injective h
  obtain ⟨hy,hm⟩ := List.append_inj' hl (by simp [twoDigits])
  have hy := yearDigits_inj hy
  have hm := twoDigits_inj (by omega) (by omega) (by omega) (by omega) (List.cons.inj hm).2
  simp only [monthIndex]
  omega

theorem formatDate_inj {a b : ℤ} (h : formatDate (civil a) = formatDate (civil b)) : a = b := by
  have ha := civil_bounds a
  have hb := civil_bounds b
  have hl := String.ofList_injective h
  obtain ⟨hym,hd⟩ := List.append_inj' hl (by simp [twoDigits])
  obtain ⟨hy,hm⟩ := List.append_inj' hym (by simp [twoDigits])
  have hy := yearDigits_inj hy
  have hm := twoDigits_inj (by omega) (by omega) (by omega) (by omega) (List.cons.inj hm).2
  have hd := twoDigits_inj (by omega) (by omega) (by omega) (by omega) (List.cons.inj hd).2
  exact civil_injective (Date.ext hy hm hd)

def dayLength : ℤ := 86400000000000

/-- The day number of an instant; 1 January 1970 is day 719162. -/
def dayOf (t : ℤ) : ℤ := t / dayLength + 719162

lemma dayOf_mono : Monotone dayOf := by
  intro a b h
  unfold dayOf dayLength
  omega

example : formatDate (civil (dayOf 1778752800000000000)) = "2026-05-14" := by decide

end SingBoxAuth.Calendar
