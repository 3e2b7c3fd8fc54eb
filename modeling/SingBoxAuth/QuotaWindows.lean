import SingBoxAuth.QuotaConfig

/-! The windows that quota periods are meant to be, and when the keys of two instants tell them
apart. -/
namespace SingBoxAuth.TrafficQuota
open Calendar

/-- The custom windows: days from start + k * days up to start + (k + 1) * days. Everything before
the start belongs to the first one. -/
def customWindow (start days : ℤ) (k : ℕ) : Set ℤ :=
  {day | (k = 0 ∨ start + k * days ≤ day) ∧ day < start + (k + 1) * days}

/-- The instants fall in the same window: UTC days, weeks that start on a Monday (as day 0 does),
calendar months, or custom windows counted from the day of the period's start. -/
def SameWindow (config : QuotaConfig) (s t : ℤ) : Prop :=
  match config.period with
  | .daily => dayOf s = dayOf t
  | .weekly => dayOf s / 7 = dayOf t / 7
  | .monthly => (civil (dayOf s)).year = (civil (dayOf t)).year ∧
      (civil (dayOf s)).month = (civil (dayOf t)).month
  | .custom => ∃ k, dayOf s ∈ customWindow (dayOf config.periodStart) config.periodDays k ∧
      dayOf t ∈ customWindow (dayOf config.periodStart) config.periodDays k

def customIndex (start days day : ℤ) : ℕ := ((day - start) / days).toNat

def firstDay (config : QuotaConfig) (t : ℤ) : ℤ :=
  match config.period with
  | .daily => dayOf t
  | .weekly => 7 * (dayOf t / 7)
  | .monthly => dayOf t - ((civil (dayOf t)).day - 1)
  | .custom =>
    let start := dayOf config.periodStart
    start + customIndex start config.periodDays (dayOf t) * config.periodDays

/-- How a window is written: by its first day, a month without the day. -/
def windowText (config : QuotaConfig) (day : ℤ) : String :=
  match config.period with
  | .monthly => formatMonth (civil day)
  | _ => formatDate (civil day)

/-- The keys of two instants name their windows by the first day, in order, and agree exactly
within one window. -/
structure Tiles (config : QuotaConfig) (s t : ℤ) : Prop where
  before : periodKey config s = .ok (windowText config (firstDay config s))
  after : periodKey config t = .ok (windowText config (firstDay config t))
  ordered : firstDay config s ≤ firstDay config t
  same : periodKey config s = periodKey config t ↔ SameWindow config s t

section months

lemma monthOf_monthStart {leap m : ℤ} (hl : leap = 0 ∨ leap = 1) (h1 : 1 ≤ m) (h12 : m ≤ 12) :
    monthOf leap (monthStart leap m) = m := by
  unfold monthOf monthStart
  obtain rfl | rfl := hl <;> split_ifs <;> omega

lemma monthStart_nonneg {leap m : ℤ} (hl : leap = 0 ∨ leap = 1) (h1 : 1 ≤ m) :
    0 ≤ monthStart leap m := by
  unfold monthStart
  obtain rfl | rfl := hl <;> split_ifs <;> omega

lemma yearsBefore_eq {z p : ℤ} (h : yearStart p ≤ z) (h' : z < yearStart (p + 1)) :
    yearsBefore z = p := by
  obtain ⟨hle,hlt⟩ := yearsBefore_spec z
  have h1 : yearsBefore z < p + 1 := yearStart_strictMono.lt_iff_lt.mp (by omega)
  have h2 : p < yearsBefore z + 1 := yearStart_strictMono.lt_iff_lt.mp (by omega)
  omega

lemma civil_monthStart {p m : ℤ} (h1 : 1 ≤ m) (h12 : m ≤ 12)
    (hlt : monthStart (leapDay p) m + yearStart p < yearStart (p + 1)) :
    civil (yearStart p + monthStart (leapDay p) m) = ⟨p + 1,m,1⟩ := by
  have hl := leapDay_cases p
  have hp := monthStart_nonneg hl h1
  have hye : yearsBefore (yearStart p + monthStart (leapDay p) m) = p :=
    yearsBefore_eq (by omega) (by omega)
  simp only [civil,hye,add_sub_cancel_left,monthOf_monthStart hl h1 h12,sub_self,zero_add]

lemma civil_firstOfMonth (z : ℤ) :
    civil (z - ((civil z).day - 1)) = ⟨(civil z).year,(civil z).month,1⟩ := by
  have hlt := (yearsBefore_spec z).2
  obtain ⟨h1,h12,hd,-⟩ := civil_bounds z
  have hf : z - ((civil z).day - 1) = yearStart (yearsBefore z) +
      monthStart (leapDay (yearsBefore z)) (civil z).month := by
    simp only [civil]
    omega
  rw [hf,civil_monthStart h1 h12 (by omega)]
  rfl

lemma firstOfMonth_mono : Monotone fun z => z - ((civil z).day - 1) := by
  intro a b hab
  by_contra hlt
  push Not at hlt
  have hi := monthIndex_mono hab
  have hf := monthIndex_mono hlt.le
  simp only [civil_firstOfMonth,monthIndex] at hi hf
  have ha := civil_bounds a
  have hb := civil_bounds b
  have hs : civil (a - ((civil a).day - 1)) = civil (b - ((civil b).day - 1)) := by
    rw [civil_firstOfMonth,civil_firstOfMonth,show (civil a).year = (civil b).year by omega,
      show (civil a).month = (civil b).month by omega]
  have := civil_injective hs
  omega

end months

section windows

variable {start days : ℤ}

lemma weekStart_eq (day : ℤ) : weekStart day = 7 * (day / 7) := by
  unfold weekStart
  dsimp only
  split_ifs <;> omega

lemma mem_customWindow_iff (hd : 0 < days) {day : ℤ} {k : ℕ} :
    day ∈ customWindow start days k ↔ k = customIndex start days day := by
  have hf : start + k * days ≤ day ↔ (k : ℤ) ≤ (day - start) / days := by
    rw [Int.le_ediv_iff_mul_le hd]
    omega
  have hto : day < start + (k + 1) * days ↔ (day - start) / days < k + 1 := by
    rw [Int.ediv_lt_iff_lt_mul hd]
    omega
  simp only [customWindow,Set.mem_setOf_eq,hf,hto,customIndex]
  omega

lemma elapsed_eq (x : ℤ) : min (x * dayLength) maxDuration / dayLength =
    min x (maxDuration / dayLength) := by
  unfold dayLength maxDuration
  omega

lemma customStart_eq_iff (hd : 0 < days) (day : ℤ) :
    customStart start days day = start + customIndex start days day * days ↔
      customIndex start days day * days * dayLength ≤ maxDuration := by
  have hp : 0 < dayLength := by decide
  rw [← Int.le_ediv_iff_mul_le hp]
  have hca : 0 ≤ maxDuration / dayLength := by decide
  unfold customStart
  split_ifs with hb
  · have hn : (day - start) / days < 0 := Int.ediv_neg_of_neg_of_pos (by omega) hd
    have hz : customIndex start days day = 0 := Int.toNat_of_nonpos hn.le
    simp [hz,hca]
  · have hq : (customIndex start days day : ℤ) = (day - start) / days :=
      Int.toNat_of_nonneg (Int.ediv_nonneg (by omega) hd.le)
    have hx : (day - start) / days * days ≤ day - start := Int.ediv_mul_le _ hd.ne'
    dsimp only
    rw [elapsed_eq,hq,add_right_inj]
    set x := day - start
    set cap := maxDuration / dayLength
    have hle : min x cap / days ≤ x / days := Int.ediv_le_ediv hd (min_le_left _ _)
    calc min x cap / days * days = x / days * days
        ↔ min x cap / days = x / days := mul_left_inj' hd.ne'
      _ ↔ x / days ≤ min x cap / days := ⟨fun h => h.ge,fun h => le_antisymm hle h⟩
      _ ↔ x / days * days ≤ min x cap := Int.le_ediv_iff_mul_le hd
      _ ↔ x / days * days ≤ cap := by rw [le_min_iff,and_iff_right hx]

end windows

/-- The window of the later instant starts within the longest Duration after the first one. -/
def WithinDuration (config : QuotaConfig) (t : ℤ) : Prop :=
  config.period = .custom →
    (firstDay config t - dayOf config.periodStart) * dayLength ≤ maxDuration

lemma firstDay_mono (config : QuotaConfig) : Monotone (firstDay config) := by
  intro s t h
  have hda := dayOf_mono h
  unfold firstDay
  cases hp : config.period with
  | daily => exact hda
  | weekly =>
    dsimp only
    omega
  | monthly => exact firstOfMonth_mono hda
  | custom =>
    have hd := config.customDays hp
    have hi : ((dayOf s - dayOf config.periodStart) / config.periodDays).toNat ≤
        ((dayOf t - dayOf config.periodStart) / config.periodDays).toNat :=
      Int.toNat_le_toNat (Int.ediv_le_ediv hd (by omega))
    have hmu := mul_le_mul_of_nonneg_right (Int.ofNat_le.mpr hi) hd.le
    dsimp only [customIndex]
    omega

lemma sameWindow_iff (config : QuotaConfig) (s t : ℤ) :
    SameWindow config s t ↔ firstDay config s = firstDay config t := by
  unfold SameWindow firstDay
  cases hp : config.period with
  | daily => exact Iff.rfl
  | weekly =>
    dsimp only
    omega
  | monthly =>
    have hf := civil_injective.eq_iff (a := dayOf s - ((civil (dayOf s)).day - 1))
      (b := dayOf t - ((civil (dayOf t)).day - 1))
    rw [civil_firstOfMonth,civil_firstOfMonth] at hf
    simpa only [Date.mk.injEq,and_true] using hf
  | custom =>
    have hd := config.customDays hp
    simp only [mem_customWindow_iff hd,exists_eq_left,add_right_inj,mul_left_inj' hd.ne',
      Nat.cast_inj]

lemma periodKey_eq_iff (config : QuotaConfig) (t : ℤ) :
    periodKey config t = .ok (windowText config (firstDay config t)) ↔ WithinDuration config t := by
  cases hp : config.period with
  | daily => simp [periodKey,windowText,firstDay,WithinDuration,hp]
  | weekly => simp [periodKey,windowText,firstDay,WithinDuration,hp,weekStart_eq]
  | monthly =>
    simp [periodKey,windowText,firstDay,WithinDuration,hp,formatMonth,civil_firstOfMonth]
  | custom =>
    have hd := config.customDays hp
    have hs := config.customStart hp
    have ht (a b : ℤ) : formatDate (civil a) = formatDate (civil b) ↔ a = b :=
      ⟨formatDate_inj,fun h => by rw [h]⟩
    simp only [periodKey,windowText,firstDay,WithinDuration,hp,hs,not_le.mpr hd,or_self,
      if_false,Except.ok.injEq,ht,customStart_eq_iff hd,forall_const,add_sub_cancel_left]

lemma windowText_firstDay_inj (config : QuotaConfig) {s t : ℤ}
    (h : windowText config (firstDay config s) = windowText config (firstDay config t)) :
    firstDay config s = firstDay config t := by
  unfold windowText at h
  cases hp : config.period with
  | daily =>
    rw [hp] at h
    exact formatDate_inj h
  | weekly =>
    rw [hp] at h
    exact formatDate_inj h
  | custom =>
    rw [hp] at h
    exact formatDate_inj h
  | monthly =>
    rw [hp] at h
    have hi := formatMonth_inj h
    rw [← sameWindow_iff]
    simp only [firstDay,hp,civil_firstOfMonth,monthIndex] at hi
    have hs := civil_bounds (dayOf s)
    have ht := civil_bounds (dayOf t)
    simp only [SameWindow,hp]
    omega

/-- The keys of two instants name their windows and tell them apart if and only if the window of
the later one starts within the longest Duration after the first custom window. The other periods
meet this without a condition. -/
theorem tiles_iff (config : QuotaConfig) {s t : ℤ} (h : s ≤ t) :
    Tiles config s t ↔ WithinDuration config t := by
  constructor
  · intro hti
    exact (periodKey_eq_iff config t).mp hti.after
  · intro ht
    have hmo := firstDay_mono config h
    have hs : WithinDuration config s := by
      intro hp
      have hle := ht hp
      have hpo : 0 ≤ dayLength := by decide
      have := mul_le_mul_of_nonneg_right (show firstDay config s - dayOf config.periodStart ≤
          firstDay config t - dayOf config.periodStart by omega) hpo
      omega
    have hb := (periodKey_eq_iff config s).mpr hs
    have ha := (periodKey_eq_iff config t).mpr ht
    refine ⟨hb,ha,hmo,?_⟩
    rw [hb,ha,sameWindow_iff,Except.ok.injEq]
    exact ⟨windowText_firstDay_inj config,fun heq => by rw [heq]⟩

def midnight (day : ℤ) : ℤ := (day - 719162) * dayLength

def oldStart : QuotaConfig :=
  ⟨1,.custom,midnight 620547,30,by decide,fun _ => by decide,fun _ => by decide⟩

def aprilStart : QuotaConfig :=
  ⟨1,.custom,midnight 739706,7,by decide,fun _ => by decide,fun _ => by decide⟩

/-- The last minute of 7 April and the beginning of 8 April 2026. -/
theorem tiles_april : midnight 739713 - 60000000000 ≤ midnight 739713 ∧
    WithinDuration aprilStart (midnight 739713) ∧
    Tiles aprilStart (midnight 739713 - 60000000000) (midnight 739713) ∧
    periodKey aprilStart (midnight 739713 - 60000000000) = .ok "2026-04-01" ∧
    periodKey aprilStart (midnight 739713) = .ok "2026-04-08" := by
  have hle : midnight 739713 - 60000000000 ≤ midnight 739713 := by decide
  have hw : WithinDuration aprilStart (midnight 739713) := fun _ => by decide
  exact ⟨hle,hw,(tiles_iff aprilStart hle).mpr hw,by decide,by decide⟩

/-- In 2026 the windows from 1700 have stopped: two instants two months apart have one key, which
names a day of 1992. -/
theorem old_windows_stop : periodKey oldStart (midnight 739749) = .ok "1992-03-31" ∧
    periodKey oldStart (midnight 739809) = .ok "1992-03-31" ∧
    ¬ SameWindow oldStart (midnight 739749) (midnight 739809) := by
  refine ⟨by decide,by decide,?_⟩
  rw [sameWindow_iff]
  decide

end SingBoxAuth.TrafficQuota
