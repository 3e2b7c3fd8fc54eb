import SingBoxAuth.SpeedLimiters

/-! The speed that is in effect for a user as the first positive value of six layers, and the
per-client mode as the first explicit one of three. -/
namespace SingBoxAuth.SpeedLimiter

section Layers

def SpeedConfig.speed (cfg : SpeedConfig) : Direction → ℤ
  | .upload => cfg.uploadMbps
  | .download => cfg.downloadMbps

def ScheduleEntry.speed (entry : ScheduleEntry) : Direction → ℤ
  | .upload => entry.uploadMbps
  | .download => entry.downloadMbps

def SpeedLimiterUser.speed (user : SpeedLimiterUser) : Direction → ℤ
  | .upload => user.uploadMbps
  | .download => user.downloadMbps

namespace ConfigSnapshot

variable (s : ConfigSnapshot) (userName : String)

def groupConfig : Option SpeedConfig := (s.userGroups userName).bind s.groups

def defaultSpeed (d : Direction) : ℤ := (s.defaultConfig.map (·.speed d)).getD 0

def groupSpeed (d : Direction) : ℤ := ((s.groupConfig userName).map (·.speed d)).getD 0

def overrideSpeed (d : Direction) : ℤ := ((s.userOverrides userName).map (·.speed d)).getD 0

def ownSpeed (d : Direction) : ℤ := ((s.userRawConfig userName).map (·.speed d)).getD 0

/-- The values that compete for a direction, the strongest one first. The override differs from the
user's own speed only where an earlier entry of the same name left it. -/
def layers (now : TimeOfDay) (d : Direction) : List ℤ :=
  [s.ownSpeed userName d,((s.activeUserSchedule userName now).map (·.speed d)).getD 0,
    ((s.activeGlobalSchedule userName now).map (·.speed d)).getD 0,
    s.overrideSpeed userName d,s.groupSpeed userName d,s.defaultSpeed d]

end ConfigSnapshot

end Layers

section Snapshots

inductive BuiltFrom (options : SpeedLimiterOptions) : ConfigSnapshot → Prop
  | new {s : ConfigSnapshot} (h : newSnapshot options = .ok s) : BuiltFrom options s
  | applyConfig {s t : ConfigSnapshot} {user : SpeedLimiterUser} (hs : BuiltFrom options s)
      (h : s.applyConfig user = .ok t) : BuiltFrom options t
  | removeConfig {s t : ConfigSnapshot} {user : String} (hs : BuiltFrom options s)
      (h : s.removeConfig user = .ok t) : BuiltFrom options t
  | replaceUserSchedules {s t : ConfigSnapshot} {user : String} {schedules : List UserSchedule}
      (hs : BuiltFrom options s) (h : s.replaceUserSchedules user schedules = .ok t) :
      BuiltFrom options t
  | removeUserSchedules {s t : ConfigSnapshot} {user : String} (hs : BuiltFrom options s)
      (h : s.removeUserSchedules user = .ok t) : BuiltFrom options t

def OwnOverrides (s : ConfigSnapshot) : Prop :=
  ∀ user raw, s.userRawConfig user = some raw → raw.override ≠ none →
    s.userOverrides user = raw.override

structure SameBase (s t : ConfigSnapshot) : Prop where
  defaultConfig : t.defaultConfig = s.defaultConfig
  groups : t.groups = s.groups

variable {s t : ConfigSnapshot}

lemma applyConfig_eq_ok {user : SpeedLimiterUser} (h : s.applyConfig user = .ok t) :
    SameBase s t ∧ t.userRawConfig = Function.update s.userRawConfig user.name (some user) ∧
      t.userOverrides = Function.update s.userOverrides user.name user.override := by
  unfold ConfigSnapshot.applyConfig at h
  split_ifs at h
  cases h
  exact ⟨⟨rfl,rfl⟩,rfl,rfl⟩

lemma removeConfig_eq_ok {user : String} (h : s.removeConfig user = .ok t) :
    SameBase s t ∧ t.userRawConfig = Function.update s.userRawConfig user none ∧
      t.userOverrides = Function.update s.userOverrides user none := by
  unfold ConfigSnapshot.removeConfig at h
  split_ifs at h
  cases h
  exact ⟨⟨rfl,rfl⟩,rfl,rfl⟩

lemma replaceUserSchedules_eq_ok {user : String} {schedules : List UserSchedule}
    (h : s.replaceUserSchedules user schedules = .ok t) :
    SameBase s t ∧ t.userRawConfig = s.userRawConfig ∧ t.userOverrides = s.userOverrides := by
  unfold ConfigSnapshot.replaceUserSchedules at h
  split_ifs at h
  split at h
  · cases h
  · cases h
    exact ⟨⟨rfl,rfl⟩,rfl,rfl⟩

lemma removeUserSchedules_eq_ok {user : String} (h : s.removeUserSchedules user = .ok t) :
    SameBase s t ∧ t.userRawConfig = s.userRawConfig ∧ t.userOverrides = s.userOverrides := by
  unfold ConfigSnapshot.removeUserSchedules at h
  split_ifs at h
  cases h
  exact ⟨⟨rfl,rfl⟩,rfl,rfl⟩

lemma addUser_eq_ok {user : SpeedLimiterUser} (h : addUser s user = .ok t) :
    SameBase s t ∧ t.userRawConfig = Function.update s.userRawConfig user.name (some user) ∧
      t.userOverrides = Function.update s.userOverrides user.name
        (user.override <|> s.userOverrides user.name) := by
  unfold addUser at h
  split_ifs at h
  cases h
  exact ⟨⟨rfl,rfl⟩,rfl,rfl⟩

lemma addGroup_eq_ok {g : SpeedLimiterGroup} (h : addGroup s g = .ok t) :
    t.defaultConfig = s.defaultConfig ∧ t.userRawConfig = s.userRawConfig ∧
      t.userOverrides = s.userOverrides ∧
      t.groups = Function.update s.groups g.name
        (some ⟨g.uploadMbps,g.downloadMbps,g.perClient.getD false⟩) := by
  unfold addGroup at h
  split_ifs at h
  cases h
  exact ⟨rfl,rfl,rfl,rfl⟩

lemma addSchedule_eq_ok {schedule : SpeedLimiterSchedule} (h : addSchedule s schedule = .ok t) :
    SameBase s t ∧ t.userRawConfig = s.userRawConfig ∧ t.userOverrides = s.userOverrides := by
  unfold addSchedule at h
  split at h
  · cases h
  · cases h
    exact ⟨⟨rfl,rfl⟩,rfl,rfl⟩

lemma foldlM_invariant {ε α σ : Type} {f : σ → α → Except ε σ} (P : σ → Prop)
    (hst : ∀ s a t,P s → f s a = .ok t → P t) (l : List α) {s t : σ} (hs : P s)
    (h : l.foldlM f s = .ok t) : P t := by
  induction l generalizing s with
  | nil =>
    cases h
    exact hs
  | cons a l ih =>
    rw [List.foldlM_cons] at h
    cases hfa : f s a with
    | error e =>
      rw [hfa] at h
      cases h
    | ok s' =>
      rw [hfa] at h
      exact ih (hst s a s' hs hfa) h

lemma bind_eq_ok {ε α β : Type} {x : Except ε α} {f : α → Except ε β} {b : β}
    (h : x >>= f = .ok b) : ∃ a,x = .ok a ∧ f a = .ok b := by
  cases x with
  | error e => cases h
  | ok a => exact ⟨a,rfl,h⟩

lemma OwnOverrides.congr (h : OwnOverrides s) (hra : t.userRawConfig = s.userRawConfig)
    (ho : t.userOverrides = s.userOverrides) :
    OwnOverrides t := by
  intro user raw hr hne
  rw [hra] at hr
  rw [ho]
  exact h user raw hr hne

lemma OwnOverrides.update (h : OwnOverrides s) {name : String} {raw : Option SpeedLimiterUser}
    {override : Option SpeedConfig}
    (hra : t.userRawConfig = Function.update s.userRawConfig name raw)
    (ho : t.userOverrides = Function.update s.userOverrides name override)
    (how : ∀ r,raw = some r → r.override ≠ none → override = r.override) : OwnOverrides t := by
  intro user r hr hne
  rw [hra] at hr
  rw [ho]
  by_cases hu : user = name
  · subst hu
    rw [Function.update_self] at hr ⊢
    exact how r hr hne
  · rw [Function.update_of_ne hu] at hr ⊢
    exact h user r hr hne

lemma OwnOverrides.addUser {user : SpeedLimiterUser} (hs : OwnOverrides s)
    (h : addUser s user = .ok t) : OwnOverrides t := by
  obtain ⟨-,hra,hov⟩ := addUser_eq_ok h
  refine hs.update hra hov ?_
  intro r hr hne
  cases hr
  obtain ⟨o,ho⟩ := Option.ne_none_iff_exists'.mp hne
  rw [ho]
  rfl

lemma newSnapshot_eq_ok {options : SpeedLimiterOptions} (h : newSnapshot options = .ok s) :
    ∃ start grouped listed : ConfigSnapshot,
      (start.defaultConfig = options.default.map fun d => ⟨d.uploadMbps,d.downloadMbps,
        d.perClient⟩) ∧
      (∀ g,start.groups g = none) ∧ (∀ u,start.userRawConfig u = none) ∧
      options.groups.foldlM addGroup start = .ok grouped ∧
      options.users.foldlM addUser grouped = .ok listed ∧
      options.schedules.foldlM addSchedule listed = .ok s := by
  unfold newSnapshot at h
  obtain ⟨grouped,hg,h⟩ := bind_eq_ok h
  obtain ⟨listed,hl,h⟩ := bind_eq_ok h
  exact ⟨_,grouped,listed,rfl,fun _ => rfl,fun _ => rfl,hg,hl,h⟩

lemma BuiltFrom.ownOverrides {options : SpeedLimiterOptions} (h : BuiltFrom options s) :
    OwnOverrides s := by
  induction h with
  | new h =>
    obtain ⟨start,grouped,listed,-,-,hra,hgr,hu,hsc⟩ := newSnapshot_eq_ok h
    have hstart : OwnOverrides start := by
      intro user raw hr
      rw [hra] at hr
      cases hr
    have hg : OwnOverrides grouped := by
      refine foldlM_invariant OwnOverrides ?_ options.groups hstart hgr
      intro s g t hs hst
      obtain ⟨-,hr',ho,-⟩ := addGroup_eq_ok hst
      exact hs.congr hr' ho
    have hl : OwnOverrides listed := by
      refine foldlM_invariant OwnOverrides ?_ options.users hg hu
      intro s u t hs hst
      exact hs.addUser hst
    refine foldlM_invariant OwnOverrides ?_ options.schedules hl hsc
    intro s schedule t hs hst
    obtain ⟨-,hr',ho⟩ := addSchedule_eq_ok hst
    exact hs.congr hr' ho
  | applyConfig _ hst ih =>
    obtain ⟨-,hra,ho⟩ := applyConfig_eq_ok hst
    refine ih.update hra ho ?_
    intro r hr _
    cases hr
    rfl
  | removeConfig _ hst ih =>
    obtain ⟨-,hra,ho⟩ := removeConfig_eq_ok hst
    refine ih.update hra ho ?_
    intro r hr
    cases hr
  | replaceUserSchedules _ hst ih =>
    obtain ⟨-,hra,ho⟩ := replaceUserSchedules_eq_ok hst
    exact ih.congr hra ho
  | removeUserSchedules _ hst ih =>
    obtain ⟨-,hra,ho⟩ := removeUserSchedules_eq_ok hst
    exact ih.congr hra ho

end Snapshots

section Speeds

open ConfigSnapshot

variable {s : ConfigSnapshot} {userName : String}

lemma positiveOr_zero (base : ℤ) : positiveOr 0 base = base := if_neg (lt_irrefl 0)

lemma foldr_positiveOr (values : List ℤ) (base : ℤ) :
    values.foldr positiveOr base = (values.find? (0 < ·)).getD base := by
  induction values with
  | nil => rfl
  | cons v values ih =>
    rw [List.foldr_cons,ih,positiveOr]
    by_cases hv : 0 < v
    · simp [hv]
    · simp [hv]

lemma applyGroup_speed (d : Direction) :
    ((s.applyGroup userName s.defaultConfig).map (·.speed d)).getD 0 =
      positiveOr (s.groupSpeed userName d) (s.defaultSpeed d) := by
  unfold applyGroup groupSpeed groupConfig defaultSpeed
  cases (s.userGroups userName).bind s.groups with
  | none => simp [positiveOr_zero]
  | some group =>
    cases s.defaultConfig with
    | none => cases d <;> rfl
    | some base => cases d <;> rfl

lemma applyOverride_speed (base : Option SpeedConfig) (d : Direction) :
    ((s.applyOverride userName base).map (·.speed d)).getD 0 =
      positiveOr (s.overrideSpeed userName d) ((base.map (·.speed d)).getD 0) := by
  unfold applyOverride overrideSpeed
  cases s.userOverrides userName with
  | none => simp [positiveOr_zero]
  | some override =>
    cases base with
    | none => cases d <;> rfl
    | some base => cases d <;> rfl

lemma applyPerClient_speed (base : Option SpeedConfig) (d : Direction) :
    ((s.applyPerClient userName base).map (·.speed d)).getD 0 = (base.map (·.speed d)).getD 0 := by
  unfold applyPerClient
  cases (s.userRawConfig userName).bind SpeedLimiterUser.perClient with
  | none => rfl
  | some perClient =>
    cases base with
    | none => cases d <;> rfl
    | some base => cases d <;> rfl

lemma resolveConfig_speed (d : Direction) : ((s.resolveConfig userName).map (·.speed d)).getD 0 =
      [s.overrideSpeed userName d,s.groupSpeed userName d].foldr positiveOr (s.defaultSpeed d) := by
  unfold resolveConfig
  rw [applyPerClient_speed,applyOverride_speed,applyGroup_speed]
  rfl

def hasFixed (s : ConfigSnapshot) (userName : String) : Direction → Bool
  | .upload => s.hasFixedUserUploadOverride userName
  | .download => s.hasFixedUserDownloadOverride userName

lemma hasFixed_iff (d : Direction) : hasFixed s userName d = true ↔ 0 < s.ownSpeed userName d := by
  unfold ownSpeed
  cases hr : s.userRawConfig userName with
  | none => cases d <;> simp [hasFixed,hasFixedUserUploadOverride,hasFixedUserDownloadOverride,hr]
  | some raw =>
    cases d <;> simp [hasFixed,hasFixedUserUploadOverride,hasFixedUserDownloadOverride,hr,
      SpeedLimiterUser.speed]

lemma applySchedule_speed (active : Option ScheduleEntry) (base : SpeedConfig) (d : Direction) :
    (s.applySchedule userName active base).speed d = if hasFixed s userName d then base.speed d
      else positiveOr ((active.map (·.speed d)).getD 0) (base.speed d) := by
  unfold applySchedule
  cases active with
  | none => simp [positiveOr_zero]
  | some entry => cases d <;> rfl

lemma overrideSpeed_of_ownSpeed (h : OwnOverrides s) {d : Direction}
    (hp : 0 < s.ownSpeed userName d) : s.overrideSpeed userName d = s.ownSpeed userName d := by
  unfold ownSpeed at hp ⊢
  cases hr : s.userRawConfig userName with
  | none => simp [hr] at hp
  | some raw =>
    have hraw_pos : 0 < raw.speed d := by simpa [hr] using hp
    have ho : raw.override = some ⟨raw.uploadMbps,raw.downloadMbps,false⟩ := by
      unfold SpeedLimiterUser.override
      cases d with
      | upload => exact if_pos (.inl hraw_pos)
      | download => exact if_pos (.inr hraw_pos)
    have hs := h userName raw hr (by rw [ho]; exact Option.some_ne_none _)
    rw [overrideSpeed,hs,ho]
    cases d <;> rfl

lemma effectiveSpeed_eq_some {now : TimeOfDay} {cfg : SpeedConfig}
    (h : s.effectiveSpeed userName now = some cfg) :
    ∃ base : SpeedConfig,(∀ d,base.speed d = ((s.resolveConfig userName).map (·.speed d)).getD 0) ∧
      cfg = s.applySchedule userName (s.activeUserSchedule userName now)
        (s.applySchedule userName (s.activeGlobalSchedule userName now) base) := by
  unfold effectiveSpeed at h
  cases hr : s.resolveConfig userName with
  | some base =>
    simp only [hr,Option.map_some,Option.some.injEq] at h
    exact ⟨base,fun d => rfl,h.symm⟩
  | none =>
    simp only [hr] at h
    split_ifs at h
    · simp only [Option.map_some,Option.some.injEq] at h
      exact ⟨.zero,fun d => by cases d <;> rfl,h.symm⟩
    · cases h

lemma effectiveSpeed_speed (ho : OwnOverrides s) {now : TimeOfDay} {cfg : SpeedConfig}
    (h : s.effectiveSpeed userName now = some cfg) (d : Direction) :
    cfg.speed d = ((s.layers userName now d).find? (0 < ·)).getD (s.defaultSpeed d) := by
  obtain ⟨base,hb,rfl⟩ := effectiveSpeed_eq_some h
  rw [← foldr_positiveOr,applySchedule_speed,applySchedule_speed,hb,resolveConfig_speed]
  have hl : positiveOr (s.defaultSpeed d) (s.defaultSpeed d) = s.defaultSpeed d := by
    unfold positiveOr
    split_ifs <;> rfl
  simp only [layers,List.foldr_cons,List.foldr_nil,hl]
  by_cases hf : hasFixed s userName d = true
  · have hp := hasFixed_iff d |>.mp hf
    rw [if_pos hf,if_pos hf,overrideSpeed_of_ownSpeed ho hp,positiveOr,if_pos hp,
      positiveOr,if_pos hp]
  · have hn : ¬ 0 < s.ownSpeed userName d := mt (hasFixed_iff d).mpr hf
    rw [if_neg hf,if_neg hf]
    exact (if_neg hn).symm

lemma nothing_of_effectiveSpeed_none {now : TimeOfDay} (h : s.effectiveSpeed userName now = none) :
    s.defaultConfig = none ∧ s.groupConfig userName = none ∧ s.userOverrides userName = none ∧
      (s.userRawConfig userName).bind SpeedLimiterUser.perClient = none ∧
      s.activeUserSchedule userName now = none := by
  unfold effectiveSpeed at h
  have hre : s.resolveConfig userName = none := by
    cases hr : s.resolveConfig userName with
    | none => rfl
    | some base => simp [hr] at h
  have hac : s.activeUserSchedule userName now = none := by
    cases ha : s.activeUserSchedule userName now with
    | none => rfl
    | some entry => simp [hre,ha] at h
  unfold resolveConfig at hre
  have hcl : (s.userRawConfig userName).bind SpeedLimiterUser.perClient = none := by
    cases hc : (s.userRawConfig userName).bind SpeedLimiterUser.perClient with
    | none => rfl
    | some mode => simp [applyPerClient,hc] at hre
  simp only [applyPerClient,hcl] at hre
  have hov : s.userOverrides userName = none := by
    cases ho : s.userOverrides userName with
    | none => rfl
    | some override => simp [applyOverride,ho] at hre
  simp only [applyOverride,hov] at hre
  have hgr : s.groupConfig userName = none := by
    unfold groupConfig
    cases hg : (s.userGroups userName).bind s.groups with
    | none => rfl
    | some group => simp [applyGroup,hg] at hre
  unfold groupConfig at hgr
  simp only [applyGroup,hgr] at hre
  exact ⟨hre,hgr,hov,hcl,hac⟩

lemma TimeOfDay.minutes_lt (t : TimeOfDay) : t.minutes < 1440 := by
  have hh := t.hour.isLt
  have hmi := t.minute.isLt
  unfold TimeOfDay.minutes
  omega

lemma matchesTime_iff (e : ScheduleEntry) (now : TimeOfDay) : e.matchesTime now = true ↔
      ((now.minutes : ℤ) - e.start.minutes) % 1440 < ((e.stop.minutes : ℤ) - e.start.minutes) % 1440
    := by
  have hn := now.minutes_lt
  have hstart := e.start.minutes_lt
  have hs := e.stop.minutes_lt
  unfold ScheduleEntry.matchesTime
  split_ifs with ho
  · simp only [Bool.and_eq_true,decide_eq_true_eq]
    omega
  · simp only [Bool.or_eq_true,decide_eq_true_eq]
    omega

/-- In every snapshot a speed in effect is, in each direction, the first positive one of the layers,
or that of the default if none is positive. -/
theorem effectiveSpeed_first_positive : (∀ options s, BuiltFrom options s → ∀ userName now,
      (∀ cfg, s.effectiveSpeed userName now = some cfg → ∀ d,
        cfg.speed d = ((s.layers userName now d).find? (0 < ·)).getD (s.defaultSpeed d)) ∧
      (s.effectiveSpeed userName now = none →
        s.defaultConfig = none ∧ s.groupConfig userName = none ∧ s.userOverrides userName = none ∧
          (s.userRawConfig userName).bind SpeedLimiterUser.perClient = none ∧
          s.activeUserSchedule userName now = none)) ∧
    ∀ (e : ScheduleEntry) (now : TimeOfDay), e.matchesTime now = true ↔
      ((now.minutes : ℤ) - e.start.minutes) % 1440 <
        ((e.stop.minutes : ℤ) - e.start.minutes) % 1440 := by
  refine ⟨?_,matchesTime_iff⟩
  intro options s hs userName now
  exact ⟨fun cfg h d => effectiveSpeed_speed hs.ownOverrides h d,nothing_of_effectiveSpeed_none⟩

def noon : TimeOfDay := ⟨12,0⟩

def defaultOptions (uploadMbps downloadMbps : ℤ) : SpeedLimiterOptions :=
  ⟨some ⟨uploadMbps,downloadMbps,false,0⟩,[],[],[]⟩

theorem default_speed_in_effect : ∃ s, newSnapshot (defaultOptions 50 100) = .ok s ∧
      s.effectiveSpeed "alice" noon = some ⟨50,100,false⟩ ∧
      50 = ((s.layers "alice" noon .upload).find? (0 < ·)).getD (s.defaultSpeed .upload) :=
  ⟨_,rfl,rfl,(effectiveSpeed_first_positive.1 (defaultOptions 50 100) _ (.new rfl) "alice" noon).1
      ⟨50,100,false⟩ rfl .upload⟩

/-- A default below zero is in effect as it is, and a user who is listed without any setting has no
speed. A schedule for everybody does not change the latter. -/
theorem speed_not_first_positive : (∃ s, newSnapshot (defaultOptions (-5) 10) = .ok s ∧
      (s.effectiveSpeed "alice" noon).map (·.uploadMbps) = some (-5)) ∧
    ∃ s, newSnapshot ⟨none,[],[⟨"alice","",0,0,none⟩],[⟨"08:00-20:00",5,5,[]⟩]⟩ = .ok s ∧
      (s.userRawConfig "alice").isSome ∧ (s.activeGlobalSchedule "alice" noon).isSome ∧
      s.effectiveSpeed "alice" noon = none :=
  ⟨⟨_,rfl,rfl⟩,_,rfl,rfl,rfl,rfl⟩

end Speeds

section PerClient

open ConfigSnapshot

def optionGroup (options : SpeedLimiterOptions) (name : String) : Option SpeedLimiterGroup :=
  options.groups.reverse.find? (·.name = name)

def SpeedLimiterGroup.toConfig (g : SpeedLimiterGroup) : SpeedConfig :=
  ⟨g.uploadMbps,g.downloadMbps,g.perClient.getD false⟩

def defaultPerClient (options : SpeedLimiterOptions) : Bool :=
  (options.default.map (·.perClient)).getD false

/-- The mode of the user if it is explicit, else that of their group if it is, else the default. -/
def wantedPerClient (options : SpeedLimiterOptions) (s : ConfigSnapshot) (userName : String) : Bool :=
  ((s.userRawConfig userName).bind (·.perClient) <|>
    ((s.userGroups userName).bind (optionGroup options)).bind (·.perClient)).getD
      (defaultPerClient options)

structure Grounded (options : SpeedLimiterOptions) (s : ConfigSnapshot) : Prop where
  default : s.defaultConfig = options.default.map fun d => ⟨d.uploadMbps,d.downloadMbps,d.perClient⟩
  groups : ∀ name, s.groups name = (optionGroup options name).map SpeedLimiterGroup.toConfig

variable {s : ConfigSnapshot}

lemma Grounded.congr {options : SpeedLimiterOptions} {t : ConfigSnapshot} (h : Grounded options s)
    (hb : SameBase s t) : Grounded options t :=
  ⟨hb.defaultConfig.trans h.default,fun name => by rw [hb.groups]; exact h.groups name⟩

lemma foldlM_addGroup {l : List SpeedLimiterGroup} {t : ConfigSnapshot}
    (h : l.foldlM addGroup s = .ok t) :
    t.defaultConfig = s.defaultConfig ∧ ∀ name,t.groups name =
      ((l.reverse.find? (·.name = name)).map SpeedLimiterGroup.toConfig <|> s.groups name) := by
  induction l generalizing s with
  | nil =>
    cases h
    exact ⟨rfl,fun name => rfl⟩
  | cons g l ih =>
    rw [List.foldlM_cons] at h
    obtain ⟨s',hs,h⟩ := bind_eq_ok h
    obtain ⟨hd,-,-,hg⟩ := addGroup_eq_ok hs
    obtain ⟨hd',hr⟩ := ih h
    refine ⟨hd'.trans hd,?_⟩
    intro name
    rw [hr,List.reverse_cons,List.find?_append,hg]
    cases l.reverse.find? (·.name = name) with
    | some later => rfl
    | none =>
      by_cases hn : g.name = name
      · subst hn
        simp [SpeedLimiterGroup.toConfig]
      · simp [hn,Function.update_of_ne (Ne.symm hn)]

lemma BuiltFrom.grounded {options : SpeedLimiterOptions} (h : BuiltFrom options s) :
    Grounded options s := by
  induction h with
  | new h =>
    obtain ⟨start,grouped,listed,hd,hn,-,hgo,hu,hsc⟩ := newSnapshot_eq_ok h
    obtain ⟨hsa,hf⟩ := foldlM_addGroup hgo
    have hgr : Grounded options grouped := by
      refine ⟨hsa.trans hd,?_⟩
      intro name
      rw [hf,hn]
      cases hg : optionGroup options name with
      | none =>
        rw [optionGroup] at hg
        rw [hg]
        rfl
      | some g =>
        rw [optionGroup] at hg
        rw [hg]
        rfl
    have hl : Grounded options listed := by
      refine foldlM_invariant (Grounded options) ?_ options.users hgr hu
      intro s u t hs hst
      exact hs.congr (addUser_eq_ok hst).1
    refine foldlM_invariant (Grounded options) ?_ options.schedules hl hsc
    intro s schedule t hs hst
    exact hs.congr (addSchedule_eq_ok hst).1
  | applyConfig _ hst ih => exact ih.congr (applyConfig_eq_ok hst).1
  | removeConfig _ hst ih => exact ih.congr (removeConfig_eq_ok hst).1
  | replaceUserSchedules _ hst ih => exact ih.congr (replaceUserSchedules_eq_ok hst).1
  | removeUserSchedules _ hst ih => exact ih.congr (removeUserSchedules_eq_ok hst).1

lemma resolveConfig_perClient {userName : String} {cfg : SpeedConfig}
    (h : s.resolveConfig userName = some cfg) :
    cfg.perClient = ((s.userRawConfig userName).bind (·.perClient)).getD
      (((s.groupConfig userName).map (·.perClient)).getD
        ((s.defaultConfig.map (·.perClient)).getD false)) := by
  unfold resolveConfig at h
  have hg : ((s.applyGroup userName s.defaultConfig).map (·.perClient)).getD false =
      ((s.groupConfig userName).map (·.perClient)).getD
        ((s.defaultConfig.map (·.perClient)).getD false) := by
    unfold applyGroup groupConfig
    cases (s.userGroups userName).bind s.groups with
    | none => rfl
    | some group => rfl
  have ho : ((s.applyOverride userName (s.applyGroup userName s.defaultConfig)).map
      (·.perClient)).getD false =
        ((s.applyGroup userName s.defaultConfig).map (·.perClient)).getD false := by
    unfold applyOverride
    cases s.userOverrides userName with
    | none => rfl
    | some override =>
      cases s.applyGroup userName s.defaultConfig with
      | none => rfl
      | some below => rfl
  rw [← hg,← ho]
  unfold applyPerClient at h
  cases hmo : (s.userRawConfig userName).bind SpeedLimiterUser.perClient with
  | none =>
    simp only [hmo] at h
    rw [h]
    rfl
  | some mode =>
    simp only [hmo,Option.some.injEq] at h
    rw [← h]
    rfl

/-- The resolved mode is the wanted one exactly when no group without a mode of its own stands
between the user and a default that is on. -/
theorem perClient_wanted_iff (options : SpeedLimiterOptions) (s : ConfigSnapshot)
    (hs : BuiltFrom options s) (userName : String) (cfg : SpeedConfig)
    (hcfg : s.resolveConfig userName = some cfg) :
    cfg.perClient = wantedPerClient options s userName ↔
      ¬ ((s.userRawConfig userName).bind (·.perClient) = none ∧
        (∃ g, (s.userGroups userName).bind (optionGroup options) = some g ∧ g.perClient = none) ∧
        defaultPerClient options = true) := by
  have hg := hs.grounded
  rw [resolveConfig_perClient hcfg,wantedPerClient,groupConfig]
  have hgr : (s.userGroups userName).bind s.groups =
      ((s.userGroups userName).bind (optionGroup options)).map SpeedLimiterGroup.toConfig := by
    cases s.userGroups userName with
    | none => rfl
    | some name => exact hg.groups name
  have hd : (s.defaultConfig.map (·.perClient)).getD false = defaultPerClient options := by
    rw [hg.default,defaultPerClient]
    cases options.default with
    | none => rfl
    | some d => rfl
  rw [hgr,hd]
  cases (s.userRawConfig userName).bind (·.perClient) with
  | some mode => simp
  | none =>
    cases (s.userGroups userName).bind (optionGroup options) with
    | none => simp
    | some g =>
      cases hmo : g.perClient with
      | some mode => simp [SpeedLimiterGroup.toConfig,hmo]
      | none =>
        cases defaultPerClient options with
        | false => simp [SpeedLimiterGroup.toConfig,hmo]
        | true => simp [SpeedLimiterGroup.toConfig,hmo]

/-- A default that is on, and a user in a group with the given mode. -/
def groupOptions (perClient : Option Bool) : SpeedLimiterOptions :=
  ⟨some ⟨50,100,true,0⟩,[⟨"premium",100,200,perClient⟩],[⟨"alice","premium",0,0,none⟩],[]⟩

theorem explicit_group_mode_wanted : ∃ s cfg, newSnapshot (groupOptions (some true)) = .ok s ∧
      s.resolveConfig "alice" = some cfg ∧
      cfg.perClient = wantedPerClient (groupOptions (some true)) s "alice" := by
  refine ⟨_,_,rfl,rfl,(perClient_wanted_iff (groupOptions (some true)) _ (.new rfl) "alice" _
    rfl).mpr ?_⟩
  rintro ⟨-,⟨g,hg,hmo⟩,-⟩
  cases hg
  cases hmo

/-- A group that does not mention the mode turns the default off for its members. -/
theorem silent_group_turns_off_default :
    ∃ s cfg, newSnapshot (groupOptions none) = .ok s ∧ s.resolveConfig "alice" = some cfg ∧
      wantedPerClient (groupOptions none) s "alice" = true ∧ cfg.perClient = false :=
  ⟨_,_,rfl,rfl,rfl,rfl⟩

end PerClient

end SingBoxAuth.SpeedLimiter
