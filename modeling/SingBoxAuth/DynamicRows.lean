import SingBoxAuth.SpeedLimiters
import SingBoxAuth.QuotaAccounts

/-! Partial rows of the dynamic configuration. The speed limiter and the quota service
both receive every row and turn it into a configuration of the whole user, so a field
that the row leaves out is cleared, not left as it is. -/
namespace SingBoxAuth.DynamicConfig
open Interleaving SpeedLimiter

structure ConfigRow where
  user : String
  uploadMbps : ℤ
  downloadMbps : ℤ
  perClient : Option Bool
  quotaGB : ℚ
  period : String
  periodStart : String
  periodDays : ℤ
  authoritative : Bool

namespace ConfigRow

variable (row : ConfigRow)

def speed : SpeedLimiter.ConfigRow :=
  ⟨row.user,row.uploadMbps,row.downloadMbps,row.perClient,row.authoritative⟩

def quota : TrafficQuota.ConfigRow :=
  ⟨row.user,row.quotaGB,row.period,row.periodStart,row.periodDays,row.authoritative⟩

end ConfigRow

section speed

structure SpeedSettings where
  upload : Option ℤ
  download : Option ℤ
  perClient : Option Bool
  group : Option String
  deriving DecidableEq

def speedSet (mbps : ℤ) : Option ℤ := if 0 < mbps then some mbps else none

def settings (s : ConfigSnapshot) (u : String) : SpeedSettings :=
  ⟨(s.userOverrides u).bind fun c => speedSet c.uploadMbps,
    (s.userOverrides u).bind fun c => speedSet c.downloadMbps,
    (s.userRawConfig u).bind SpeedLimiterUser.perClient,s.userGroups u⟩

/-- What the row does not set is as before, and so is every other user. A row has no
group at all. -/
structure SpeedKept (row : ConfigRow) (s s' : ConfigSnapshot) : Prop where
  upload : row.uploadMbps = 0 → (settings s' row.user).upload = (settings s row.user).upload
  download : row.downloadMbps = 0 →
    (settings s' row.user).download = (settings s row.user).download
  perClient : row.perClient = none →
    (settings s' row.user).perClient = (settings s row.user).perClient
  group : (settings s' row.user).group = (settings s row.user).group
  others : ∀ v, v ≠ row.user → s'.ofUser v = s.ofUser v

/-- A row that succeeds keeps what it does not set. Every speed and every value of
per_client is valid by itself, so a row that names a user is not refused. -/
def SpeedPartial (zone : ℤ → ℤ) (m : LimiterManager) (now : ℤ) (row : ConfigRow) : Prop :=
  (∀ m', m.applyDynamic zone row.speed now = .ok m' → SpeedKept row m.config m'.config) ∧
    (row.user ≠ "" → ∃ m', m.applyDynamic zone row.speed now = .ok m')

/-- The row sets everything that the user has set, and the user is in no group. -/
structure SpeedFits (row : ConfigRow) (s : SpeedSettings) : Prop where
  upload : row.uploadMbps = 0 → s.upload = none
  download : row.downloadMbps = 0 → s.download = none
  perClient : row.perClient = none → s.perClient = none
  group : s.group = none

instance (row : ConfigRow) (s : SpeedSettings) : Decidable (SpeedFits row s) :=
  decidable_of_iff ((row.uploadMbps = 0 → s.upload = none) ∧
    (row.downloadMbps = 0 → s.download = none) ∧ (row.perClient = none → s.perClient = none) ∧
    s.group = none) ⟨fun h => ⟨h.1,h.2.1,h.2.2.1,h.2.2.2⟩,fun h =>
      ⟨h.upload,h.download,h.perClient,h.group⟩⟩

lemma settings_applied {s s' : ConfigSnapshot} {user : SpeedLimiterUser}
    (h : s.applyConfig user = .ok s') : settings s' user.name =
      ⟨user.override.bind fun c => speedSet c.uploadMbps,
        user.override.bind fun c => speedSet c.downloadMbps,user.perClient,user.groupName⟩ := by
  unfold ConfigSnapshot.applyConfig at h
  split_ifs at h
  cases h
  simp [settings,ConfigSnapshot.setMaps]

lemma others_applied {s s' : ConfigSnapshot} {user : SpeedLimiterUser}
    (h : s.applyConfig user = .ok s') {v : String} (hv : v ≠ user.name) :
    s'.ofUser v = s.ofUser v := by
  unfold ConfigSnapshot.applyConfig at h
  split_ifs at h
  cases h
  simp [ConfigSnapshot.ofUser,ConfigSnapshot.setMaps,Function.update_of_ne hv]

lemma settings_empty (s : ConfigSnapshot) : settings s "" = ⟨none,none,none,none⟩ := by
  have hra : s.userRawConfig "" = none := by
    cases hr : s.userRawConfig "" with
    | none => rfl
    | some raw => exact absurd rfl (s.named "" raw hr).2
  obtain ⟨hg,ho⟩ := s.coherent "" hra
  simp [settings,hra,hg,ho]

variable {zone : ℤ → ℤ} {m : LimiterManager} {now : ℤ} {row : ConfigRow}

lemma applyDynamic_noSpeed (hr : row.authoritative = false) (h : row.speed.noSpeed = true) :
    m.applyDynamic zone row.speed now = .ok m := by
  have ha : row.speed.authoritative = false := hr
  simp [LimiterManager.applyDynamic,h,ha]

lemma applyDynamic_speed (h : ¬ row.speed.noSpeed = true) :
    m.applyDynamic zone row.speed now = m.applyConfig zone row.speed.toUser now := by
  rw [LimiterManager.applyDynamic,if_neg h]

lemma speed_of_not_noSpeed (h : ¬ row.speed.noSpeed = true) :
    0 < row.uploadMbps ∨ 0 < row.downloadMbps := by
  by_contra hn
  rw [not_or,not_lt,not_lt] at hn
  exact h (by simp [SpeedLimiter.ConfigRow.noSpeed,ConfigRow.speed,hn.1,hn.2])

lemma applyDynamic_ok (hn : row.user ≠ "") (h : ¬ row.speed.noSpeed = true) :
    ∃ m',m.applyDynamic zone row.speed now = .ok m' := by
  have hs := speed_of_not_noSpeed h
  have hmi : ¬ (row.uploadMbps ≤ 0 ∧ row.downloadMbps ≤ 0) := by omega
  rw [applyDynamic_speed h,LimiterManager.applyConfig,ConfigSnapshot.applyConfig]
  simp [SpeedLimiter.ConfigRow.toUser,ConfigRow.speed,hn,hmi,Except.map]

lemma settings_applyDynamic {m' : LimiterManager} (h : ¬ row.speed.noSpeed = true)
    (hm : m.applyDynamic zone row.speed now = .ok m') :
    settings m'.config row.user =
      ⟨speedSet row.uploadMbps,speedSet row.downloadMbps,row.perClient,none⟩ ∧
    ∀ v,v ≠ row.user → m'.config.ofUser v = m.config.ofUser v := by
  rw [applyDynamic_speed h,LimiterManager.applyConfig] at hm
  obtain ⟨s',hs',rfl⟩ := map_eq_ok hm
  have ho : row.speed.toUser.override =
      some ⟨row.uploadMbps,row.downloadMbps,false⟩ := if_pos (speed_of_not_noSpeed h)
  have hset := settings_applied hs'
  rw [ho] at hset
  exact ⟨hset,fun v hv => others_applied hs' hv⟩

lemma speedKept_iff {m' : LimiterManager} (h : ¬ row.speed.noSpeed = true)
    (hm : m.applyDynamic zone row.speed now = .ok m') :
    SpeedKept row m.config m'.config ↔ SpeedFits row (settings m.config row.user) := by
  obtain ⟨hset,ho⟩ := settings_applyDynamic h hm
  constructor
  · intro hk
    have hup := hk.upload
    have hd := hk.download
    have hcl := hk.perClient
    have hg := hk.group
    rw [hset] at hup hd hcl hg
    refine ⟨fun h0 => ?_,fun h0 => ?_,fun h0 => ?_,hg.symm⟩
    · rw [← hup h0,h0]
      rfl
    · rw [← hd h0,h0]
      rfl
    · rw [← hcl h0,h0]
  · intro hfits
    refine ⟨fun h0 => ?_,fun h0 => ?_,fun h0 => ?_,?_,ho⟩
    · rw [hset,hfits.upload h0,h0]
      rfl
    · rw [hset,hfits.download h0,h0]
      rfl
    · rw [hset,hfits.perClient h0,h0]
    · rw [hset,hfits.group]

lemma speedPartial_iff (hr : row.authoritative = false) : SpeedPartial zone m now row ↔
    row.speed.noSpeed = true ∨ SpeedFits row (settings m.config row.user) := by
  by_cases h : row.speed.noSpeed = true
  · have hs : m.applyDynamic zone row.speed now = .ok m := applyDynamic_noSpeed hr h
    refine ⟨fun _ => .inl h,fun _ => ⟨fun m' hm => ?_,fun _ => ⟨m,hs⟩⟩⟩
    rw [hs] at hm
    cases hm
    exact ⟨fun _ => rfl,fun _ => rfl,fun _ => rfl,rfl,fun _ _ => rfl⟩
  · constructor
    · intro hp
      by_cases hn : row.user = ""
      · rw [hn,settings_empty]
        exact .inr ⟨fun _ => rfl,fun _ => rfl,fun _ => rfl,rfl⟩
      · obtain ⟨m',hm⟩ := hp.2 hn
        exact .inr ((speedKept_iff h hm).mp (hp.1 m' hm))
    · intro hfits
      rcases hfits with hno | hfits
      · exact absurd hno h
      · exact ⟨fun m' hm => (speedKept_iff h hm).mpr hfits,fun hn => applyDynamic_ok hn h⟩

end speed

section quota

open TrafficQuota

structure QuotaSettings where
  quotaBytes : Int64
  period : Option PeriodType
  periodStart : ℤ
  periodDays : ℤ
  deriving DecidableEq

def quotaSettings (config : Option QuotaConfig) : QuotaSettings :=
  match config with
  | none => ⟨0,none,zeroTime,0⟩
  | some c => ⟨c.quotaBytes,some c.period,c.periodStart,c.periodDays⟩

structure QuotaKept (row : ConfigRow) (s s' : QuotaSettings) : Prop where
  quota : row.quotaGB = 0 → s'.quotaBytes = s.quotaBytes
  period : row.period = "" → s'.period = s.period
  periodStart : row.periodStart = "" → s'.periodStart = s.periodStart
  periodDays : row.periodDays = 0 → s'.periodDays = s.periodDays

def isConfig (result : Except ConfigError (Option QuotaConfig)) : Bool :=
  match result with
  | .ok (some _) => true
  | _ => false

/-- Each field that the row sets, alone and over the existing configuration, gives a
configuration. -/
def FieldsValid (text : TimeText) (existing : Option QuotaConfig) (row : ConfigRow) : Prop :=
  row.user ≠ "" ∧
    (row.quotaGB ≠ 0 → isConfig (newQuotaConfig text row.quotaGB "" "" 0 existing)) ∧
    (row.period ≠ "" → isConfig (newQuotaConfig text 0 row.period "" 0 existing)) ∧
    (row.periodStart ≠ "" → isConfig (newQuotaConfig text 0 "" row.periodStart 0 existing)) ∧
    (row.periodDays ≠ 0 → isConfig (newQuotaConfig text 0 "" "" row.periodDays existing))

instance (text : TimeText) (existing : Option QuotaConfig) (row : ConfigRow) :
    Decidable (FieldsValid text existing row) := instDecidableAnd

def QuotaPartial (text : TimeText) (t : ℕ) (w : World) (row : ConfigRow) : Prop :=
  ∀ r w', (r,w') ∈ (applyDynamic text row.quota).runs outcomes t w →
    (r = .ok () →
      QuotaKept row (quotaSettings (w.userConfigs.lookup row.user))
        (quotaSettings (w'.userConfigs.lookup row.user)) ∧
      ∀ v, v ≠ row.user → w'.userConfigs.lookup v = w.userConfigs.lookup v) ∧
    (FieldsValid text (w.userConfigs.lookup row.user) row → r = .ok ())

def rowConfig (text : TimeText) (row : ConfigRow) : Except QuotaError QuotaConfig :=
  userConfig text ⟨row.user,"",row.quotaGB,row.period,row.periodStart,row.periodDays⟩

/-- The row is a whole configuration if its fields are valid, and if it is one, it sets
the start and the days that the user has set. -/
structure QuotaFits (text : TimeText) (existing : Option QuotaConfig) (row : ConfigRow) :
    Prop where
  complete : FieldsValid text existing row → (rowConfig text row).isOk
  periodStart : (rowConfig text row).isOk → row.periodStart = "" →
    (quotaSettings existing).periodStart = zeroTime
  periodDays : (rowConfig text row).isOk → row.periodDays = 0 →
    (quotaSettings existing).periodDays = 0

lemma rowConfig_ok {text : TimeText} {row : ConfigRow} {c : QuotaConfig}
    (h : rowConfig text row = .ok c) : row.period ≠ "" ∧
      (row.periodStart = "" → c.periodStart = zeroTime) ∧
      (row.periodDays = 0 → c.periodDays = 0) := by
  unfold rowConfig userConfig at h
  split_ifs at h
  split at h
  · cases h
  · cases h
  · next config hn =>
    cases h
    exact newQuotaConfig_fresh hn

lemma quotaKept_iff {text : TimeText} {row : ConfigRow} {c : QuotaConfig}
    {existing : Option QuotaConfig} (hqu : ¬ row.quotaGB ≤ 0) (h : rowConfig text row = .ok c) :
    QuotaKept row (quotaSettings existing) (quotaSettings (some c)) ↔
      QuotaFits text existing row := by
  obtain ⟨hp,hstart,hd⟩ := rowConfig_ok h
  have hok : (rowConfig text row).isOk := by
    rw [h]
    rfl
  constructor
  · intro hk
    refine ⟨fun _ => hok,fun _ h0 => ?_,fun _ h0 => ?_⟩
    · rw [← hk.periodStart h0]
      exact hstart h0
    · rw [← hk.periodDays h0]
      exact hd h0
  · intro hfits
    refine ⟨fun h0 => absurd h0.le hqu,fun h0 => absurd h0 hp,fun h0 => ?_,fun h0 => ?_⟩
    · rw [hfits.periodStart hok h0]
      exact hstart h0
    · rw [hfits.periodDays hok h0]
      exact hd h0

lemma quotaPartial_iff {text : TimeText} {t : ℕ} {w : World} {row : ConfigRow}
    (hro : row.authoritative = false) (hw : Unlocked w) : QuotaPartial text t w row ↔
      row.quotaGB ≤ 0 ∨ QuotaFits text (w.userConfigs.lookup row.user) row := by
  have hre := applyDynamic_results (t := t) text row.quota hw
  by_cases hqu : row.quotaGB ≤ 0
  · have hs : w.accounts.applyDynamic text row.quota = [(.ok (),w.accounts)] := by
      have hau : row.quota.authoritative = false := hro
      have hno : row.quota.quotaGB ≤ 0 := hqu
      rw [Accounts.applyDynamic,if_pos hno,if_neg (by simp [hau])]
    rw [hs] at hre
    refine ⟨fun _ => .inl hqu,fun _ r w' hr => ?_⟩
    have ho := (hre (r,w'.accounts)).mpr ⟨r,w',hr,rfl⟩
    rw [List.mem_singleton,Prod.mk.injEq] at ho
    obtain ⟨rfl,hw'⟩ := ho
    have hcn : ∀ v,w'.userConfigs.lookup v = w.userConfigs.lookup v := fun v =>
      congrArg (fun l => (l.account v).config) hw'
    rw [hcn]
    exact ⟨fun _ => ⟨⟨fun _ => rfl,fun _ => rfl,fun _ => rfl,fun _ => rfl⟩,
      fun v _ => hcn v⟩,fun _ => rfl⟩
  · have ha : w.accounts.applyDynamic text row.quota =
        w.accounts.apply row.user (rowConfig text row) := if_neg hqu
    rw [ha] at hre
    constructor
    · intro hp
      obtain ⟨o,ho⟩ := List.exists_mem_of_ne_nil _ (w.accounts.apply_ne_nil row.user
        (rowConfig text row))
      obtain ⟨r,w',hr,rfl⟩ := (hre o).mp ho
      obtain ⟨hk,hva⟩ := hp r w' hr
      cases hco : rowConfig text row with
      | error err =>
        rw [hco] at ho
        obtain rfl : r = .error err := congrArg Prod.fst (List.mem_singleton.mp ho)
        have hn : ¬ (rowConfig text row).isOk = true := by
          rw [hco]
          exact Bool.false_ne_true
        exact .inr ⟨fun hf => absurd (hva hf) nofun,fun h => absurd h hn,fun h => absurd h hn⟩
      | ok c =>
        rw [hco] at ho
        obtain ⟨hok,hc,-⟩ := Accounts.apply_ok ho
        have hl : w'.userConfigs.lookup row.user = some c := hc
        obtain ⟨hk,-⟩ := hk hok
        rw [hl] at hk
        exact .inr ((quotaKept_iff hqu hco).mp hk)
    · intro hfits r w' hr
      have hfits := hfits.resolve_left hqu
      have ho := (hre (r,w'.accounts)).mpr ⟨r,w',hr,rfl⟩
      cases hco : rowConfig text row with
      | error err =>
        rw [hco] at ho
        obtain rfl : r = .error err := congrArg Prod.fst (List.mem_singleton.mp ho)
        have hn : ¬ FieldsValid text (w.userConfigs.lookup row.user) row := by
          intro hf
          have hok := hfits.complete hf
          rw [hco] at hok
          exact Bool.false_ne_true hok
        exact ⟨nofun,fun hf => absurd hf hn⟩
      | ok c =>
        rw [hco] at ho
        obtain ⟨hok,hc,hot⟩ := Accounts.apply_ok ho
        have hl : w'.userConfigs.lookup row.user = some c := hc
        rw [hl]
        exact ⟨fun _ => ⟨(quotaKept_iff hqu hco).mpr hfits,fun v hv =>
          congrArg Account.config (hot v hv)⟩,fun _ => hok⟩

end quota

/-- Exactly which partial rows leave alone what they do not set. -/
theorem partial_rows_iff (zone : ℤ → ℤ) (m : LimiterManager) (now : ℤ) (text : TrafficQuota.TimeText)
    (t : ℕ) (w : TrafficQuota.World) (row : ConfigRow) (hrow : row.authoritative = false)
    (hw : TrafficQuota.Unlocked w) :
    (SpeedPartial zone m now row ↔
      row.speed.noSpeed = true ∨ SpeedFits row (settings m.config row.user)) ∧
    (QuotaPartial text t w row ↔
      row.quotaGB ≤ 0 ∨ QuotaFits text (w.userConfigs.lookup row.user) row) :=
  ⟨speedPartial_iff hrow,quotaPartial_iff hrow hw⟩

def noTimes : TrafficQuota.TimeText := ⟨fun _ => none,fun _ => ""⟩

def plainSnapshot : ConfigSnapshot :=
  ⟨none,fun _ => none,fun _ => none,fun _ => none,fun _ => none,[],fun _ => [],
    10 * minute,ConfigSnapshot.coherent_none,ConfigSnapshot.named_none⟩

def plainWorld : TrafficQuota.World :=
  { TrafficQuota.aliceWorld with userConfigs := ∅, states := fun _ => none }

/-- Alice's first row sets everything, the second one an upload speed and a quota only. -/
def wholeRow : ConfigRow := ⟨"alice",10,20,none,1,"daily","",0,false⟩

def partialRow : ConfigRow := ⟨"alice",5,0,none,2,"","",0,false⟩

def dailyGigabyte : TrafficQuota.QuotaConfig :=
  ⟨1073741824,.daily,TrafficQuota.zeroTime,0,by decide,TrafficQuota.daily_start,
    TrafficQuota.daily_days⟩

lemma rowConfig_wholeRow : rowConfig noTimes wholeRow = .ok dailyGigabyte := by decide +kernel

lemma plainWorld_unlocked : TrafficQuota.Unlocked plainWorld := ⟨fun _ => rfl,rfl,rfl⟩

/-- The download speed is dropped, and the larger quota is refused. -/
theorem partial_row_clears :
    (∃ m, (LimiterManager.new plainSnapshot).applyDynamic id wholeRow.speed 0 = .ok m ∧
      ¬ SpeedPartial id m 0 partialRow) ∧
    ∃ w, (.ok (),w) ∈ (TrafficQuota.applyDynamic noTimes wholeRow.quota).runs
        TrafficQuota.outcomes 0 plainWorld ∧ ¬ QuotaPartial noTimes 0 w partialRow := by
  constructor
  · obtain ⟨m,hm⟩ : ∃ m, (LimiterManager.new plainSnapshot).applyDynamic id wholeRow.speed 0 =
        .ok m := applyDynamic_ok (by decide) (by decide)
    obtain ⟨hset,-⟩ := settings_applyDynamic (by decide) hm
    refine ⟨m,hm,fun hp => ?_⟩
    have hfits := ((speedPartial_iff rfl).mp hp).resolve_left (by decide)
    have hd : (settings m.config "alice").download = none := hfits.download rfl
    rw [show settings m.config "alice" = _ from hset] at hd
    exact absurd hd (by decide)
  · have ha : plainWorld.accounts.applyDynamic noTimes wholeRow.quota =
        plainWorld.accounts.apply "alice" (.ok dailyGigabyte) := by
      rw [← rowConfig_wholeRow]
      exact if_neg (by decide +kernel)
    obtain ⟨o,ho⟩ := List.exists_mem_of_ne_nil _ (plainWorld.accounts.apply_ne_nil "alice"
      (.ok dailyGigabyte))
    have hre := TrafficQuota.applyDynamic_results (t := 0) noTimes wholeRow.quota
      plainWorld_unlocked
    rw [ha] at hre
    obtain ⟨r,w,hr,rfl⟩ := (hre o).mp ho
    obtain ⟨rfl,hc,-⟩ := TrafficQuota.Accounts.apply_ok ho
    have hl : w.userConfigs.lookup "alice" = some dailyGigabyte := hc
    have hw := plainWorld_unlocked.of_sameLocks (plainWorld.accounts.apply_locks ho)
    refine ⟨w,hr,fun hp => ?_⟩
    have hfits := ((quotaPartial_iff rfl hw).mp hp).resolve_left (by decide +kernel)
    have hv : FieldsValid noTimes (some dailyGigabyte) partialRow := by decide +kernel
    have hok := hfits.complete (hl.symm ▸ hv)
    exact absurd hok (by decide +kernel)

/-- The whole row for a new user takes nothing away. -/
theorem partial_rows_iff_alice : SpeedPartial id (LimiterManager.new plainSnapshot) 0 wholeRow ∧
    QuotaPartial noTimes 0 plainWorld wholeRow := by
  obtain ⟨hs,hqu⟩ := partial_rows_iff id (LimiterManager.new plainSnapshot) 0 noTimes 0
    plainWorld wholeRow rfl plainWorld_unlocked
  have hok : (rowConfig noTimes wholeRow).isOk := by
    rw [rowConfig_wholeRow]
    rfl
  exact ⟨hs.mpr (.inr (by decide)),hqu.mpr (.inr ⟨fun _ => hok,fun _ _ => rfl,fun _ _ => rfl⟩)⟩

end SingBoxAuth.DynamicConfig
