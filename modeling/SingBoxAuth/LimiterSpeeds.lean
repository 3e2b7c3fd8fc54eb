import SingBoxAuth.LimiterOwners
import SingBoxAuth.SpeedResolution
import SingBoxAuth.ThrottledWaits

/-! The limiters of the map carry the speed that is in effect for their user. -/
namespace SingBoxAuth.SpeedLimiter
open LimiterManager

def LimiterManager.currentSpeed (zone : ℤ → ℤ) (m : LimiterManager) (userName : String) :
    ℤ × ℤ × Bool :=
  match m.currentConfig zone userName with
  | none => (0,0,false)
  | some cfg => (cfg.uploadMbps,cfg.downloadMbps,true)

/-- A limiter for a speed: none for a speed that is not positive, else one with that rate. -/
def Carries (current : Option ℕ) (lane : Lane) (mbps : ℤ) : Prop :=
  match current with
  | none => mbps ≤ 0
  | some n => 0 < mbps ∧ lane.rate n = .mbps mbps

def Slot.Agrees (slot : Slot) (cfg : Option SpeedConfig) : Prop :=
  ∀ ul, slot.entry = some ul → ∃ c, cfg = some c ∧
    ∀ d, Carries (ul.pointer d) (slot.lane d) (c.speed d)

lemma agrees_of_no_entry {slot : Slot} (h : slot.entry = none) (cfg : Option SpeedConfig) :
    slot.Agrees cfg := by
  intro ul hul
  rw [h] at hul
  cases hul

lemma carries_newLimiter (mbps : ℤ) (lane : Lane) :
    Carries (newLimiter mbps lane).1 (newLimiter mbps lane).2 mbps := by
  unfold newLimiter
  split_ifs with h
  · exact h
  · exact ⟨not_le.mp h,Function.update_self _ _ _⟩

lemma carries_reconcile (current : Option ℕ) (mbps : ℤ) (lane : Lane) :
    Carries (reconcileLimiterDirection current mbps lane).1
      (reconcileLimiterDirection current mbps lane).2 mbps := by
  by_cases hp : 0 < mbps
  · cases hn : (reconcileLimiterDirection current mbps lane).1 with
    | some n => exact ⟨hp,rate_reconcile hn⟩
    | none =>
      cases current with
      | none => simp [reconcileLimiterDirection,newLimiter,hp,not_le.mpr hp] at hn
      | some n => simp [reconcileLimiterDirection,hp] at hn
  · have hno : (reconcileLimiterDirection current mbps lane).1 = none := by
      simp [reconcileLimiterDirection,hp]
    rw [hno]
    exact not_lt.mp hp

lemma agrees_update (slot : Slot) (cfg : Option SpeedConfig) : (slot.update cfg).Agrees cfg := by
  cases he : slot.entry with
  | none =>
    rw [update_of_no_entry he]
    exact agrees_of_no_entry he cfg
  | some old =>
    cases cfg with
    | none =>
      refine agrees_of_no_entry ?_ none
      simp only [Slot.update,he]
      rfl
    | some c =>
      obtain ⟨hup,hdo,hu,hd⟩ := update_some he c
      intro ul hul
      have hp : ∀ d,(slot.update (some c)).pointer d = ul.pointer d := by
        intro d
        rw [Slot.pointer,hul,Option.bind_some]
      refine ⟨c,rfl,?_⟩
      intro d
      cases d with
      | upload =>
        have hca := carries_reconcile old.upload c.uploadMbps slot.upload
        rw [← hup,← hu,hp] at hca
        exact hca
      | download =>
        have hca := carries_reconcile old.download c.downloadMbps slot.download
        rw [← hdo,← hd,hp] at hca
        exact hca

section Keys

variable {user key : String}

lemma ownsKey_of_extractUserName (h : extractUserName key = user) : ownsKey user key = true := by
  have ht : key.toList.takeWhile (· ≠ clientLimiterKeySep) = user.toList := by
    rw [← h,extractUserName,String.toList_ofList]
  have hs := List.takeWhile_append_dropWhile (p := (· ≠ clientLimiterKeySep)) (l := key.toList)
  rw [ownsKey,Bool.or_eq_true,decide_eq_true_eq]
  cases hd : key.toList.dropWhile (· ≠ clientLimiterKeySep) with
  | nil =>
    left
    rw [hd,List.append_nil,ht] at hs
    exact (String.toList_inj.mp hs).symm
  | cons c rest =>
    right
    have hc : c = clientLimiterKeySep := by
      have hh := List.head?_dropWhile_not (· ≠ clientLimiterKeySep) key.toList
      rw [hd] at hh
      simpa using hh
    rw [hd,ht,hc] at hs
    rw [List.isPrefixOf_iff_prefix,← hs]
    exact ⟨rest,by simp⟩

end Keys

section Steps

variable {zone : ℤ → ℤ} {m : LimiterManager}

/-- Every entry has the limiters of the configuration that is in effect for its user. -/
def InEffect (zone : ℤ → ℤ) (m : LimiterManager) : Prop :=
  ∀ key, (m.slots key).Agrees (m.currentConfig zone (extractUserName key))

lemma inEffect_applyRuntimeState (m : LimiterManager) (now : ℤ) :
    InEffect zone (m.applyRuntimeState zone now) := by
  intro key
  exact agrees_update (m.slots key) _

lemma InEffect.cleanExpired (h : InEffect zone m) (now : ℤ) :
    InEffect zone (m.cleanExpiredClientLimiters now) := by
  intro key
  simp only [cleanExpiredClientLimiters]
  split_ifs
  · exact agrees_of_no_entry rfl _
  · exact h key

lemma InEffect.change {handed : List Handed} {result : Except SpeedError LimiterManager}
    (h : InEffect zone m) (hok : ∀ m',result = .ok m' → InEffect zone m') :
    InEffect zone (Tracked.change ⟨m,handed⟩ result).manager := by
  cases result with
  | error err => exact h
  | ok m' => exact hok m' rfl

/-- Two snapshots that differ only for other users give a user the same speed. -/
structure SameFor (s t : ConfigSnapshot) (user : String) : Prop where
  defaultConfig : t.defaultConfig = s.defaultConfig
  groups : t.groups = s.groups
  userGroups : t.userGroups user = s.userGroups user
  userOverrides : t.userOverrides user = s.userOverrides user
  userRawConfig : t.userRawConfig user = s.userRawConfig user
  schedules : t.schedules = s.schedules
  userSchedules : t.userSchedules user = s.userSchedules user

lemma SameFor.resolveConfig {s t : ConfigSnapshot} {user : String} (h : SameFor s t user) :
    t.resolveConfig user = s.resolveConfig user := by
  simp only [ConfigSnapshot.resolveConfig,ConfigSnapshot.applyPerClient,
    ConfigSnapshot.applyOverride,ConfigSnapshot.applyGroup,h.defaultConfig,h.groups,
    h.userGroups,h.userOverrides,h.userRawConfig]

lemma SameFor.applySchedule {s t : ConfigSnapshot} {user : String} (h : SameFor s t user) :
    t.applySchedule user = s.applySchedule user := by
  have hu : t.hasFixedUserUploadOverride user = s.hasFixedUserUploadOverride user := by
    simp only [ConfigSnapshot.hasFixedUserUploadOverride,h.userRawConfig]
  have hd : t.hasFixedUserDownloadOverride user = s.hasFixedUserDownloadOverride user := by
    simp only [ConfigSnapshot.hasFixedUserDownloadOverride,h.userRawConfig]
  funext active base
  unfold ConfigSnapshot.applySchedule
  rw [hu,hd]

lemma SameFor.effectiveSpeed {s t : ConfigSnapshot} {user : String} (h : SameFor s t user)
    (now : TimeOfDay) : t.effectiveSpeed user now = s.effectiveSpeed user now := by
  have hg : t.activeGlobalSchedule user now = s.activeGlobalSchedule user now := by
    simp only [ConfigSnapshot.activeGlobalSchedule,h.schedules,h.userGroups]
  have hu : t.activeUserSchedule user now = s.activeUserSchedule user now := by
    simp only [ConfigSnapshot.activeUserSchedule,h.userSchedules]
  unfold ConfigSnapshot.effectiveSpeed
  rw [h.resolveConfig,h.applySchedule,hg,hu]

lemma sameFor_removeConfig {s t : ConfigSnapshot} {user other : String}
    (h : s.removeConfig user = .ok t) (hne : other ≠ user) : SameFor s t other := by
  unfold ConfigSnapshot.removeConfig at h
  split_ifs at h
  cases h
  exact ⟨rfl,rfl,Function.update_of_ne hne _ _,Function.update_of_ne hne _ _,
    Function.update_of_ne hne _ _,rfl,rfl⟩

lemma currentConfig_removeConfig {config : ConfigSnapshot} {user other : String}
    (h : m.config.removeConfig user = .ok config) (hne : other ≠ user) (slots : String → Slot) :
    LimiterManager.currentConfig zone ⟨config,slots,m.lastCheck⟩ other =
      m.currentConfig zone other := by
  have hs := sameFor_removeConfig h hne
  unfold LimiterManager.currentConfig
  cases m.lastCheck with
  | none => exact hs.resolveConfig
  | some checked => exact hs.effectiveSpeed (timeOfDay zone checked)

lemma InEffect.removeConfig (h : InEffect zone m) {user : String} {m' : LimiterManager}
    (hr : m.removeConfig user = .ok m') : InEffect zone m' := by
  obtain ⟨config,hco,rfl⟩ := map_eq_ok hr
  intro key
  by_cases hk : extractUserName key = user
  · refine agrees_of_no_entry ?_ _
    simp only [ownsKey_of_extractUserName hk,if_true]
    rfl
  · rw [currentConfig_removeConfig hco hk]
    simp only
    split_ifs
    · exact agrees_of_no_entry rfl _
    · exact h key

lemma InEffect.setSlot (h : InEffect zone m) {key : String} {slot : Slot}
    (hs : slot.Agrees (m.currentConfig zone (extractUserName key))) :
    InEffect zone (m.setSlot key slot) := by
  intro other
  by_cases ho : other = key
  · subst ho
    have hset : (m.setSlot other slot).slots other = slot := Function.update_self _ _ _
    rw [hset]
    exact hs
  · have hset : (m.setSlot key slot).slots other = m.slots other := Function.update_of_ne ho _ _
    rw [hset]
    exact h other

lemma InEffect.getOrCreate (h : InEffect zone m) {user : String} (hp : Plain user)
    (addr : Option String) (now : ℤ) :
    InEffect zone (m.getOrCreateLimiterForClient zone user addr now).2 := by
  unfold getOrCreateLimiterForClient
  cases hcf : m.currentConfig zone user with
  | none => exact h
  | some cfg =>
    have hu : extractUserName (limiterKey cfg user addr) = user :=
      extractUserName_limiterKey hp cfg addr
    cases he : (m.slots (limiterKey cfg user addr)).entry with
    | some ul =>
      simp only [he]
      refine h.setSlot ?_
      intro ul' hul'
      cases hul'
      obtain ⟨c,hc,hca⟩ := h (limiterKey cfg user addr) ul he
      exact ⟨c,hc,hca⟩
    | none =>
      simp only [he]
      split_ifs
      · exact h
      · refine h.setSlot ?_
        rw [hu,hcf]
        intro ul hul
        cases hul
        refine ⟨cfg,rfl,?_⟩
        intro d
        cases d with
        | upload => exact carries_newLimiter cfg.uploadMbps _
        | download => exact carries_newLimiter cfg.downloadMbps _

lemma InEffect.step (h : InEffect zone m) {e : LimiterOp × ℤ}
    (hp : ∀ user,e.1.user = some user → Plain user) : InEffect zone (m.step zone e) := by
  obtain ⟨op,now⟩ := e
  cases op with
  | getOrCreate user addr =>
    have hs : m.step zone (.getOrCreate user addr,now) =
        (m.getOrCreateLimiterForClient zone user addr now).2 := by
      unfold LimiterManager.step Tracked.step
      dsimp only
      cases (m.getOrCreateLimiterForClient zone user addr now).1 <;> rfl
    rw [hs]
    exact h.getOrCreate (hp user rfl) addr now
  | checkSchedules => exact (inEffect_applyRuntimeState m now).cleanExpired now
  | applyConfig user =>
    refine h.change fun m' hm' => ?_
    obtain ⟨config,-,rfl⟩ := map_eq_ok hm'
    exact inEffect_applyRuntimeState _ now
  | removeConfig user => exact h.change fun m' hm' => h.removeConfig hm'
  | replaceUserSchedules user schedules =>
    refine h.change fun m' hm' => ?_
    obtain ⟨config,-,rfl⟩ := map_eq_ok hm'
    exact inEffect_applyRuntimeState _ now
  | removeUserSchedules user =>
    refine h.change fun m' hm' => ?_
    obtain ⟨config,-,rfl⟩ := map_eq_ok hm'
    exact inEffect_applyRuntimeState _ now

lemma inEffect_run (zone : ℤ → ℤ) (config : ConfigSnapshot) {history : List (LimiterOp × ℤ)}
    (hp : ∀ e ∈ history,∀ user,e.1.user = some user → Plain user) :
    InEffect zone (history.foldl (LimiterManager.step zone) (.new config)) := by
  induction history using List.reverseRecOn with
  | nil => exact fun key => agrees_of_no_entry rfl _
  | append_singleton history e ih =>
    rw [List.foldl_append]
    exact (ih fun e' he' => hp e' (List.mem_append_left _ he')).step
      (hp e (List.mem_append_right _ (List.mem_singleton_self e)))

end Steps

lemma newLimiter_exact {mbps : ℤ} (hp : 0 < mbps) (hle : mbps * 125000 < 2 ^ 53) :
    RateLimiter.newLimiter mbps = some ⟨some (mbps * 125000),mbps * 125000⟩ := by
  obtain ⟨n,rfl⟩ := Int.eq_ofNat_of_zero_le hp.le
  have hs : n * 125000 < 2 ^ 53 := by exact_mod_cast hle
  have hb : bps n = n * 125000 := by
    have hsi : (n : ℤ).sign = 1 := Int.sign_eq_one_of_pos hp
    have he : roundDouble n = n := roundDouble_of_le (by omega)
    rw [bps,hsi,Int.natAbs_natCast,he,mbpsToBps,roundDouble_of_le hs]
    push_cast
    ring
  have ht : truncate (n * 125000 : ℤ) = n * 125000 := by
    refine if_pos ⟨by omega,?_⟩
    exact lt_trans hle (by norm_num)
  have hbu : burstOf n = n * 125000 := by
    rw [burstOf,hb,ht]
    exact if_neg (by omega)
  rw [RateLimiter.newLimiter,if_neg (not_le.mpr hp),hb,hbu]

/-- **Speeds of the limiters.** After every history over plain names each entry of the map has, in
each direction, no limiter exactly when the speed in effect for its user is not positive, and else
one with rate and burst of that speed. -/
theorem limiters_carry_current_speed (zone : ℤ → ℤ) (config : ConfigSnapshot)
    (history : List (LimiterOp × ℤ))
    (hplain : ∀ e ∈ history, ∀ user, e.1.user = some user → Plain user) :
    let m := history.foldl (LimiterManager.step zone) (.new config)
    ∀ key ul, (m.slots key).entry = some ul → ∃ cfg : SpeedConfig,
        m.currentSpeed zone (extractUserName key) = (cfg.uploadMbps,cfg.downloadMbps,true) ∧
        ∀ d, (ul.pointer d = none ↔ cfg.speed d ≤ 0) ∧ ∀ n, ul.pointer d = some n →
            ((m.slots key).lane d).rate n = .mbps (cfg.speed d) ∧
            (∀ old : RateLimiter,
              some (old.setLimiterRate (cfg.speed d)) = RateLimiter.newLimiter (cfg.speed d)) ∧
            (cfg.speed d * 125000 < 2 ^ 53 → RateLimiter.newLimiter (cfg.speed d) =
              some ⟨some (cfg.speed d * 125000),cfg.speed d * 125000⟩) := by
  intro m key ul hul
  obtain ⟨cfg,hcf,hca⟩ := inEffect_run zone config hplain key ul hul
  refine ⟨cfg,by rw [LimiterManager.currentSpeed,hcf],?_⟩
  intro d
  have hd := hca d
  cases hp : ul.pointer d with
  | none =>
    rw [hp] at hd
    exact ⟨iff_of_true rfl hd,nofun⟩
  | some n =>
    rw [hp] at hd
    obtain ⟨hpo,hr⟩ := hd
    refine ⟨iff_of_false (Option.some_ne_none n) (not_le.mpr hpo),?_⟩
    intro k hk
    cases hk
    exact ⟨hr,fun old => (if_neg (not_le.mpr hpo)).symm,newLimiter_exact hpo⟩

lemma plain_alice : Plain "alice" := by
  unfold Plain
  decide

lemma plain_history (addr : Option String) :
    ∀ e ∈ [(LimiterOp.getOrCreate "alice" addr,(0 : ℤ))],∀ user,e.1.user = some user →
      Plain user := by
  intro e he user hu
  cases List.mem_singleton.mp he
  cases hu
  exact plain_alice

def lookedUp (config : ConfigSnapshot) : LimiterManager :=
  [(LimiterOp.getOrCreate "alice" none,(0 : ℤ))].foldl (LimiterManager.step fun _ => 0)
    (.new config)

theorem alice_carries_default_speed :
    ∃ config ul, newSnapshot (defaultOptions 50 100) = .ok config ∧
      ((lookedUp config).slots "alice").entry = some ul ∧
      ∃ cfg : SpeedConfig, (lookedUp config).currentSpeed (fun _ => 0) (extractUserName "alice") =
        (cfg.uploadMbps,cfg.downloadMbps,true) := by
  have hs : ∀ config ul, ((lookedUp config).slots "alice").entry = some ul →
      ∃ cfg : SpeedConfig, (lookedUp config).currentSpeed (fun _ => 0) (extractUserName "alice") =
        (cfg.uploadMbps,cfg.downloadMbps,true) := by
    intro config ul hul
    obtain ⟨cfg,hcf,-⟩ := limiters_carry_current_speed (fun _ => 0) config _
      (plain_history none) "alice" ul hul
    exact ⟨cfg,hcf⟩
  exact ⟨_,⟨some 0,some 0,0⟩,rfl,rfl,hs _ _ rfl⟩

/-- With a default below zero an entry has no limiter although the speed in effect is not zero. -/
theorem no_limiter_for_speed_below_zero :
    ∃ config ul, newSnapshot (defaultOptions (-5) 10) = .ok config ∧
      ((lookedUp config).slots "alice").entry = some ul ∧ ul.pointer .upload = none ∧
      (lookedUp config).currentSpeed (fun _ => 0) "alice" = (-5,10,true) :=
  ⟨_,⟨none,some 0,0⟩,rfl,rfl,rfl,rfl⟩

end SingBoxAuth.SpeedLimiter
