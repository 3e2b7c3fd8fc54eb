import SingBoxAuth.Calendar

/-! Quota configurations: how options are resolved and validated, and the key of
the accounting period that an instant belongs to. A configuration value carries
the facts that validation establishes. -/
namespace SingBoxAuth.TrafficQuota
open Calendar

inductive PeriodType
  | daily
  | weekly
  | monthly
  | custom
  deriving DecidableEq, Repr

def zeroTime : ℤ := -(719162 * dayLength)

structure QuotaConfig where
  quotaBytes : Int64
  period : PeriodType
  periodStart : ℤ
  periodDays : ℤ
  positive : 0 < quotaBytes
  customStart : period = .custom → periodStart ≠ zeroTime
  customDays : period = .custom → 0 < periodDays
  deriving DecidableEq

lemma daily_start (h : PeriodType.daily = .custom) : zeroTime ≠ zeroTime := nomatch h

lemma daily_days (h : PeriodType.daily = .custom) : (0 : ℤ) < 0 := nomatch h

structure TrafficQuotaUser where
  name : String
  group : String
  quotaGB : ℚ
  period : String
  periodStart : String
  periodDays : ℤ
  deriving DecidableEq

inductive ConfigError
  | parsePeriodStart (value : String)
  | missingPeriodStart
  | missingPeriodDays
  | missingPeriod
  | unsupportedPeriod (period : String)
  deriving DecidableEq, Repr

/-- The fields as newQuotaConfig resolves them, before validation. -/
structure ResolvedConfig where
  quotaBytes : Int64
  period : String
  periodStart : ℤ
  periodDays : ℤ
  deriving DecidableEq

def PeriodType.text : PeriodType → String
  | .daily => "daily"
  | .weekly => "weekly"
  | .monthly => "monthly"
  | .custom => "custom"

def QuotaConfig.resolved (config : QuotaConfig) : ResolvedConfig :=
  ⟨config.quotaBytes,config.period.text,config.periodStart,config.periodDays⟩

/-- A quota in GiB is the exact value of a float64, and scaling by 2^30 is exact.
A rounded value outside int64 converts to the least int64. -/
def quotaBytes (quotaGB : ℚ) : Int64 :=
  let scaled := quotaGB * 2 ^ 30
  let rounded := if scaled < 0 then -round (-scaled) else round scaled
  if -2 ^ 63 ≤ rounded ∧ rounded < 2 ^ 63 then Int64.ofInt rounded else Int64.minValue

def validateQuotaConfig (config : ResolvedConfig) (positive : 0 < config.quotaBytes) :
    Except ConfigError QuotaConfig :=
  if config.period = "daily" then
    .ok ⟨config.quotaBytes,.daily,config.periodStart,config.periodDays,positive,nofun,nofun⟩
  else if config.period = "weekly" then
    .ok ⟨config.quotaBytes,.weekly,config.periodStart,config.periodDays,positive,nofun,nofun⟩
  else if config.period = "monthly" then
    .ok ⟨config.quotaBytes,.monthly,config.periodStart,config.periodDays,positive,nofun,nofun⟩
  else if config.period = "custom" then
    if hs : config.periodStart = zeroTime then .error .missingPeriodStart
    else if hd : config.periodDays ≤ 0 then .error .missingPeriodDays
    else .ok ⟨config.quotaBytes,.custom,config.periodStart,config.periodDays,positive,
      fun _ => hs,fun _ => by omega⟩
  else if config.period = "" then .error .missingPeriod
  else .error (.unsupportedPeriod config.period)

/-- Texts of instants: parsing of RFC 3339 or plain dates, and the RFC 3339 form. -/
structure TimeText where
  parse : String → Option ℤ
  format : ℤ → String

def TimeText.parsePeriodStart (text : TimeText) (value : String) : Except ConfigError ℤ :=
  match text.parse value with
  | some start => .ok start
  | none => .error (.parsePeriodStart value)

def TimeText.formatPeriodStart (text : TimeText) (value : ℤ) : String :=
  if value = zeroTime then "" else text.format value

/-- A missing configuration is reported as none: the quota is not positive. -/
def newQuotaConfig (text : TimeText) (quotaGB : ℚ) (period periodStart : String)
    (periodDays : ℤ) (base : Option QuotaConfig) : Except ConfigError (Option QuotaConfig) := do
  let base := (base.map QuotaConfig.resolved).getD ⟨0,"",zeroTime,0⟩
  let bytes := if 0 < quotaGB then quotaBytes quotaGB else base.quotaBytes
  let kind := if period ≠ "" then period else base.period
  let start ← if periodStart ≠ "" then text.parsePeriodStart periodStart else .ok base.periodStart
  let days := if 0 < periodDays then periodDays else base.periodDays
  if positive : 0 < bytes then
    some <$> validateQuotaConfig ⟨bytes,kind,start,days⟩ positive
  else .ok none

lemma validateQuotaConfig_ok {config : ResolvedConfig} {positive : 0 < config.quotaBytes}
    {c : QuotaConfig} (h : validateQuotaConfig config positive = .ok c) :
    config.period ≠ "" ∧ c.periodStart = config.periodStart ∧ c.periodDays = config.periodDays := by
  unfold validateQuotaConfig at h
  split_ifs at h with hd hw hmo hcu
  all_goals cases h
  · exact ⟨by rw [hd]; decide,rfl,rfl⟩
  · exact ⟨by rw [hw]; decide,rfl,rfl⟩
  · exact ⟨by rw [hmo]; decide,rfl,rfl⟩
  · exact ⟨by rw [hcu]; decide,rfl,rfl⟩

lemma newQuotaConfig_fresh {text : TimeText} {quotaGB : ℚ} {period periodStart : String}
    {periodDays : ℤ} {c : QuotaConfig}
    (h : newQuotaConfig text quotaGB period periodStart periodDays none = .ok (some c)) :
    period ≠ "" ∧ (periodStart = "" → c.periodStart = zeroTime) ∧
      (periodDays = 0 → c.periodDays = 0) := by
  have hva : ∀ config : ResolvedConfig,(if positive : 0 < config.quotaBytes then
      some <$> validateQuotaConfig config positive else .ok none) = .ok (some c) →
      config.period ≠ "" ∧ c.periodStart = config.periodStart ∧
        c.periodDays = config.periodDays := by
    intro config hc
    split_ifs at hc with positive
    · cases hv : validateQuotaConfig config positive with
      | error e =>
        rw [hv] at hc
        cases hc
      | ok c' =>
        rw [hv] at hc
        cases hc
        exact validateQuotaConfig_ok hv
    · cases hc
  have hn : (if ¬period = "" then period else "") ≠ "" → period ≠ "" := by
    intro hne h0
    simp [h0] at hne
  have hda : periodDays = 0 → (if 0 < periodDays then periodDays else 0) = 0 := by
    rintro rfl
    rfl
  unfold newQuotaConfig at h
  by_cases hstart : periodStart = ""
  · simp only [hstart,ne_eq,not_true_eq_false,if_false] at h
    obtain ⟨hp,hs,hd⟩ := hva ⟨_,_,zeroTime,_⟩ h
    exact ⟨hn hp,fun _ => hs,fun h0 => hd.trans (hda h0)⟩
  · simp only [hstart,ne_eq,not_false_eq_true,if_true] at h
    cases hpa : text.parsePeriodStart periodStart with
    | error e =>
      rw [hpa] at h
      cases h
    | ok start =>
      rw [hpa] at h
      obtain ⟨hp,-,hd⟩ := hva ⟨_,_,start,_⟩ h
      exact ⟨hn hp,fun h0 => absurd h0 hstart,fun h0 => hd.trans (hda h0)⟩

/-- The quota in GiB as a float64; the value of the integer is exact up to 2^53. -/
def quotaConfigToOption (text : TimeText) (user : String) (config : QuotaConfig) :
    TrafficQuotaUser :=
  ⟨user,"",(config.quotaBytes.toInt : ℚ) / 2 ^ 30,config.period.text,
    text.formatPeriodStart config.periodStart,config.periodDays⟩

/-- The largest time.Duration; a longer difference of instants saturates. -/
def maxDuration : ℤ := 2 ^ 63 - 1

def weekStart (day : ℤ) : ℤ :=
  let weekday := (day + 1) % 7
  let weekday := if weekday = 0 then 7 else weekday
  day - (weekday - 1)

/-- The first day of the custom window that holds the current day. -/
def customStart (start days current : ℤ) : ℤ :=
  if current < start then start
  else
    let elapsed := min ((current - start) * dayLength) maxDuration / dayLength
    start + elapsed / days * days

def periodKey (config : QuotaConfig) (now : ℤ) : Except String String :=
  match config.period with
  | .daily => .ok (formatDate (civil (dayOf now)))
  | .weekly => .ok (formatDate (civil (weekStart (dayOf now))))
  | .monthly => .ok (formatMonth (civil (dayOf now)))
  | .custom =>
    if config.periodStart = zeroTime ∨ config.periodDays ≤ 0 then
      .error "invalid custom period configuration"
    else .ok (formatDate (civil
      (customStart (dayOf config.periodStart) config.periodDays (dayOf now))))

/-- The error branches of periodKey are dead: validation excludes them. -/
theorem periodKey_ok (config : QuotaConfig) (now : ℤ) : ∃ key,periodKey config now = .ok key := by
  cases hp : config.period with
  | daily => exact ⟨_,by simp only [periodKey,hp]; rfl⟩
  | weekly => exact ⟨_,by simp only [periodKey,hp]; rfl⟩
  | monthly => exact ⟨_,by simp only [periodKey,hp]; rfl⟩
  | custom =>
    have hs := config.customStart hp
    have hd := config.customDays hp
    simp only [periodKey,hp,hs,false_or,show ¬ config.periodDays ≤ 0 by omega,if_false]
    exact ⟨_,rfl⟩

def keyAt (config : QuotaConfig) (now : ℤ) : String :=
  match periodKey config now with
  | .ok key => key
  | .error _ => ""

@[simp] theorem periodKey_eq (config : QuotaConfig) (now : ℤ) :
    periodKey config now = .ok (keyAt config now) := by
  obtain ⟨key,hk⟩ := periodKey_ok config now
  simp [keyAt,hk]

lemma weekStart_mono : Monotone weekStart := by
  intro a b h
  unfold weekStart
  dsimp only
  split_ifs <;> omega

lemma customStart_mono {start days : ℤ} (hd : 0 < days) : Monotone (customStart start days) := by
  intro a b h
  have hl : 0 < dayLength := by decide
  unfold customStart
  split_ifs with ha hb hb
  · exact le_rfl
  · have h0 : 0 ≤ min ((b - start) * dayLength) maxDuration / dayLength :=
      Int.ediv_nonneg (le_min (mul_nonneg (by omega) hl.le) (by decide)) hl.le
    have h1 := mul_nonneg (Int.ediv_nonneg h0 hd.le) hd.le
    dsimp only
    omega
  · omega
  · have h1 : (a - start) * dayLength ≤ (b - start) * dayLength :=
      mul_le_mul_of_nonneg_right (by omega) hl.le
    have h2 := Int.ediv_le_ediv hl (min_le_min_right maxDuration h1)
    have h3 := mul_le_mul_of_nonneg_right (Int.ediv_le_ediv hd h2) hd.le
    dsimp only
    omega

lemma formatDate_ne_empty (d : Date) : formatDate d ≠ "" := by
  intro h
  have := congrArg String.toList h
  simp [formatDate] at this

lemma formatMonth_ne_empty (d : Date) : formatMonth d ≠ "" := by
  intro h
  have := congrArg String.toList h
  simp [formatMonth] at this

/-- The empty text is never a key, so it can stand for a period not yet set. -/
theorem keyAt_ne_empty (config : QuotaConfig) (now : ℤ) : keyAt config now ≠ "" := by
  have hk := periodKey_eq config now
  cases hp : config.period with
  | daily =>
    simp only [periodKey,hp,Except.ok.injEq] at hk
    exact hk ▸ formatDate_ne_empty _
  | weekly =>
    simp only [periodKey,hp,Except.ok.injEq] at hk
    exact hk ▸ formatDate_ne_empty _
  | monthly =>
    simp only [periodKey,hp,Except.ok.injEq] at hk
    exact hk ▸ formatMonth_ne_empty _
  | custom =>
    simp only [periodKey,hp] at hk
    split at hk
    · cases hk
    · exact (Except.ok.inj hk) ▸ formatDate_ne_empty _

/-- A period is an interval of time: a key that returns was never left. -/
theorem keyAt_interval {config : QuotaConfig} {a b c : ℤ} (hab : a ≤ b) (hbc : b ≤ c)
    (h : keyAt config a = keyAt config c) : keyAt config b = keyAt config a := by
  have hda {w : ℤ → ℤ} (hw : Monotone w)
      (hk : ∀ t,keyAt config t = formatDate (civil (w (dayOf t)))) :
      keyAt config b = keyAt config a := by
    rw [hk,hk] at h
    have he := formatDate_inj h
    have h1 := hw (dayOf_mono hab)
    have h2 := hw (dayOf_mono hbc)
    rw [hk,hk,show w (dayOf b) = w (dayOf a) by omega]
  have hk := fun t => periodKey_eq config t
  cases hp : config.period with
  | daily =>
    simp only [periodKey,hp,Except.ok.injEq] at hk
    exact hda monotone_id fun t => (hk t).symm
  | weekly =>
    simp only [periodKey,hp,Except.ok.injEq] at hk
    exact hda weekStart_mono fun t => (hk t).symm
  | monthly =>
    simp only [periodKey,hp,Except.ok.injEq] at hk
    rw [← hk,← hk] at h
    have he := formatMonth_inj h
    have h1 := monthIndex_mono (dayOf_mono hab)
    have h2 := monthIndex_mono (dayOf_mono hbc)
    have hba : monthIndex (civil (dayOf b)) = monthIndex (civil (dayOf a)) := by
      dsimp only at h1 h2
      omega
    have ba := civil_bounds (dayOf a)
    have bb := civil_bounds (dayOf b)
    simp only [monthIndex] at hba
    rw [← hk,← hk,formatMonth,formatMonth,show (civil (dayOf b)).year = (civil (dayOf a)).year
      by omega,show (civil (dayOf b)).month = (civil (dayOf a)).month by omega]
  | custom =>
    have hs := config.customStart hp
    have hd := config.customDays hp
    simp only [periodKey,hp,hs,false_or,show ¬ config.periodDays ≤ 0 by omega,if_false,
      Except.ok.injEq] at hk
    exact hda (customStart_mono hd) fun t => (hk t).symm

/-- Once time has left a period, its key does not come back. -/
theorem keyAt_ne_of_left {config : QuotaConfig} {a b c : ℤ} (hab : a ≤ b) (hbc : b ≤ c)
    (h : keyAt config a ≠ keyAt config b) : keyAt config c ≠ keyAt config a := by
  intro hc
  exact h (keyAt_interval hab hbc hc.symm).symm

end SingBoxAuth.TrafficQuota
