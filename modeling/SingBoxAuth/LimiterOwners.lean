import SingBoxAuth.LimitersInUse

/-! Which user a limiter was created for, and what the operations of other users do to
it. -/
namespace SingBoxAuth.SpeedLimiter
open LimiterManager

def LimiterOp.user : LimiterOp → Option String
  | .getOrCreate user _ => some user
  | .checkSchedules => none
  | .applyConfig user => some user.name
  | .removeConfig user => some user
  | .replaceUserSchedules user _ => some user
  | .removeUserSchedules user => some user

def LimiterOp.refreshes : LimiterOp → Bool
  | .applyConfig _ => true
  | .replaceUserSchedules _ _ => true
  | .removeUserSchedules _ => true
  | _ => false

def LimiterManager.step (zone : ℤ → ℤ) (m : LimiterManager) (e : LimiterOp × ℤ) : LimiterManager :=
  (Tracked.step zone ⟨m,[]⟩ e).manager

def LimiterManager.returned (zone : ℤ → ℤ) (m : LimiterManager) :
    LimiterOp × ℤ → Option (String × UserLimiter)
  | (.getOrCreate user addr,now) => (m.getOrCreateLimiterForClient zone user addr now).1
  | _ => none

/-- The manager with the user that each entry, and each limiter, was created for. A
limiter that is created for an entry later is created for the user of the entry. -/
structure Owned where
  manager : LimiterManager
  entryUser : String → String
  limiterUser : Handed → String

namespace Owned

def Created (s : Owned) (h : Handed) : Prop :=
  h.number < ((s.manager.slots h.key).lane h.direction).count

instance (s : Owned) (h : Handed) : Decidable (s.Created h) :=
  inferInstanceAs (Decidable (_ < _))

def step (zone : ℤ → ℤ) (s : Owned) (e : LimiterOp × ℤ) : Owned :=
  let manager := s.manager.step zone e
  let entryUser := fun key =>
    match e.1 with
    | .getOrCreate user _ =>
      if (s.manager.slots key).entry = none ∧ (manager.slots key).entry ≠ none then user
      else s.entryUser key
    | _ => s.entryUser key
  ⟨manager,entryUser,fun h => if s.Created h then s.limiterUser h else entryUser h.key⟩

def new (config : ConfigSnapshot) : Owned := ⟨.new config,fun _ => "",fun _ => ""⟩

def run (zone : ℤ → ℤ) (config : ConfigSnapshot) (history : List (LimiterOp × ℤ)) : Owned :=
  history.foldl (step zone) (new config)

end Owned

def limitOf (cfg : Option SpeedConfig) (d : Direction) : Limit :=
  match cfg with
  | none => .inf
  | some cfg =>
    let mbps := match d with
      | .upload => cfg.uploadMbps
      | .download => cfg.downloadMbps
    if 0 < mbps then .mbps mbps else .inf

def LimiterManager.rate (m : LimiterManager) (h : Handed) : Limit :=
  ((m.slots h.key).lane h.direction).rate h.number

def LimiterManager.Current (m : LimiterManager) (h : Handed) : Prop :=
  (m.slots h.key).pointer h.direction = some h.number

/-- An operation that names another user leaves a limiter of this user alone; one that
ends in updateLimiterRates gives it the user's own speed. -/
structure Apart (zone : ℤ → ℤ) (m : LimiterManager) (e : LimiterOp × ℤ) (user : String)
    (h : Handed) : Prop where
  notReturned : ∀ key ul, m.returned zone e = some (key,ul) → h ∉ handedBy key ul
  kept : m.Current h → (m.step zone e).Current h ∨ e.1.refreshes = true ∧
    limitOf ((m.step zone e).config.effectiveSpeed user (timeOfDay zone e.2)) h.direction = .inf
  rate : (m.step zone e).rate h = m.rate h ∨ e.1.refreshes = true ∧ (m.step zone e).rate h =
    limitOf ((m.step zone e).config.effectiveSpeed user (timeOfDay zone e.2)) h.direction

def Plain (user : String) : Prop := clientLimiterKeySep ∉ user.toList

section keys

variable {user : String}

lemma extractUserName_append (hu : Plain user) (rest : List Char) :
    extractUserName (String.ofList (user.toList ++ clientLimiterKeySep :: rest)) = user := by
  have ht : (user.toList ++ clientLimiterKeySep :: rest).takeWhile
      (· ≠ clientLimiterKeySep) = user.toList := by
    rw [List.takeWhile_append_of_pos fun c hc => ?_]
    · simp
    · exact decide_eq_true fun heq => hu (heq ▸ hc)
  rw [extractUserName,String.toList_ofList,ht,String.ofList_toList]

lemma extractUserName_plain (hu : Plain user) : extractUserName user = user := by
  have ht : user.toList.takeWhile (· ≠ clientLimiterKeySep) = user.toList := by
    rw [List.takeWhile_eq_self_iff]
    intro c hc
    exact decide_eq_true fun heq => hu (heq ▸ hc)
  rw [extractUserName,ht,String.ofList_toList]

lemma extractUserName_limiterKey (hu : Plain user) (cfg : SpeedConfig) (addr : Option String) :
    extractUserName (limiterKey cfg user addr) = user := by
  unfold limiterKey
  cases addr with
  | none => exact extractUserName_plain hu
  | some addr =>
    dsimp only
    split_ifs
    · have hk : clientKey user addr =
          String.ofList (user.toList ++ clientLimiterKeySep :: addr.toList) := by
        apply String.toList_inj.mp
        simp [clientKey]
      rw [hk]
      exact extractUserName_append hu addr.toList
    · exact extractUserName_plain hu

lemma extractUserName_of_ownsKey (hu : Plain user) {key : String} (h : ownsKey user key = true) :
    extractUserName key = user := by
  rw [ownsKey,Bool.or_eq_true,decide_eq_true_eq] at h
  rcases h with rfl | h
  · exact extractUserName_plain hu
  · obtain ⟨rest,hr⟩ := List.isPrefixOf_iff_prefix.mp h
    have hk : key = String.ofList (user.toList ++ clientLimiterKeySep :: rest) := by
      apply String.toList_inj.mp
      rw [String.toList_ofList,← hr]
      simp
    rw [hk]
    exact extractUserName_append hu rest

end keys

section slots

variable (zone : ℤ → ℤ) (m : LimiterManager)

lemma getOrCreate_slots (user : String) (addr : Option String) (now : ℤ) (key : String) :
    (m.step zone (.getOrCreate user addr,now)).slots key = m.slots key ∨
      ∃ cfg,key = limiterKey cfg user addr ∧
        ((m.step zone (.getOrCreate user addr,now)).slots key).entry ≠ none := by
  have hs : (m.step zone (.getOrCreate user addr,now)).slots key =
      ((m.getOrCreateLimiterForClient zone user addr now).2).slots key := by
    unfold LimiterManager.step Tracked.step
    dsimp only
    cases (m.getOrCreateLimiterForClient zone user addr now).1 <;> rfl
  rw [hs]
  unfold getOrCreateLimiterForClient
  cases m.currentConfig zone user with
  | none => exact .inl rfl
  | some cfg =>
    by_cases hk : key = limiterKey cfg user addr
    · subst hk
      dsimp only
      cases hul : (m.slots (limiterKey cfg user addr)).entry with
      | some ul => exact .inr ⟨cfg,rfl,by simp [setSlot]⟩
      | none =>
        dsimp only
        split_ifs
        · exact .inl rfl
        · exact .inr ⟨cfg,rfl,by simp [setSlot]⟩
    · refine .inl ?_
      dsimp only
      cases hul : (m.slots (limiterKey cfg user addr)).entry with
      | some ul => exact Function.update_of_ne hk _ _
      | none =>
        dsimp only
        split_ifs
        · rfl
        · exact Function.update_of_ne hk _ _

lemma returned_key {zone : ℤ → ℤ} {m : LimiterManager} {user key : String} {addr : Option String}
    {now : ℤ} {ul : UserLimiter}
    (h : m.returned zone (.getOrCreate user addr,now) = some (key,ul)) :
    ∃ cfg,key = limiterKey cfg user addr := by
  change (m.getOrCreateLimiterForClient zone user addr now).1 = _ at h
  unfold getOrCreateLimiterForClient at h
  cases hcf : m.currentConfig zone user with
  | none =>
    rw [hcf] at h
    cases h
  | some cfg =>
    refine ⟨cfg,?_⟩
    simp only [hcf] at h
    cases hul : (m.slots (limiterKey cfg user addr)).entry with
    | some ul' =>
      simp only [hul] at h
      exact (congrArg Prod.fst (Option.some.inj h)).symm
    | none =>
      simp only [hul] at h
      split_ifs at h
      exact (congrArg Prod.fst (Option.some.inj h)).symm

lemma refresh_slots {e : LimiterOp × ℤ} (he : e.1.refreshes = true) (key : String) :
    (m.step zone e).slots key = m.slots key ∨ (m.step zone e).slots key = (m.slots key).update
        ((m.step zone e).config.effectiveSpeed (extractUserName key) (timeOfDay zone e.2)) := by
  have hch : ∀ {result : Except SpeedError LimiterManager},
      (∀ m',result = .ok m' → m'.slots key = (m.slots key).update
        (m'.config.effectiveSpeed (extractUserName key) (timeOfDay zone e.2))) →
      ((Tracked.change ⟨m,[]⟩ result).manager.slots key = m.slots key ∨
        (Tracked.change ⟨m,[]⟩ result).manager.slots key = (m.slots key).update
          ((Tracked.change ⟨m,[]⟩ result).manager.config.effectiveSpeed (extractUserName key)
            (timeOfDay zone e.2))) := by
    intro result h
    cases result with
    | error err => exact .inl rfl
    | ok m' => exact .inr (h m' rfl)
  obtain ⟨op,now⟩ := e
  cases op with
  | applyConfig user =>
    refine hch fun m' hm' => ?_
    obtain ⟨config,-,rfl⟩ := map_eq_ok hm'
    rfl
  | replaceUserSchedules user schedules =>
    refine hch fun m' hm' => ?_
    obtain ⟨config,-,rfl⟩ := map_eq_ok hm'
    rfl
  | removeUserSchedules user =>
    refine hch fun m' hm' => ?_
    obtain ⟨config,-,rfl⟩ := map_eq_ok hm'
    rfl
  | getOrCreate user addr => cases he
  | checkSchedules => cases he
  | removeConfig user => cases he

lemma removeConfig_slots (user : String) (now : ℤ) (key : String) :
    (m.step zone (.removeConfig user,now)).slots key = m.slots key ∨ ownsKey user key = true ∧
        (m.step zone (.removeConfig user,now)).slots key = (m.slots key).drop := by
  change (Tracked.change ⟨m,[]⟩ (m.removeConfig user)).manager.slots key = _ ∨ _ ∧
    (Tracked.change ⟨m,[]⟩ (m.removeConfig user)).manager.slots key = _
  cases hr : m.removeConfig user with
  | error err => exact .inl rfl
  | ok m' =>
    obtain ⟨config,-,rfl⟩ := map_eq_ok hr
    by_cases ho : ownsKey user key = true
    · exact .inr ⟨ho,if_pos ho⟩
    · exact .inl (if_neg ho)

lemma update_of_no_entry {slot : Slot} (h : slot.entry = none) (cfg : Option SpeedConfig) :
    slot.update cfg = slot := by
  rw [Slot.update,h]

lemma drop_of_no_entry {slot : Slot} (h : slot.entry = none) : slot.drop = slot := by
  obtain ⟨entry,upload,download⟩ := slot
  obtain rfl : entry = none := h
  rfl

lemma slots_of_no_entry {key : String} (h : (m.slots key).entry = none) (e : LimiterOp × ℤ) :
    (m.step zone e).slots key = m.slots key ∨
      ∃ user addr cfg,e.1 = .getOrCreate user addr ∧ key = limiterKey cfg user addr ∧
        ((m.step zone e).slots key).entry ≠ none := by
  obtain ⟨op,now⟩ := e
  have hr : op.refreshes = true → (m.step zone (op,now)).slots key = m.slots key := by
    intro hop
    rcases refresh_slots zone m (e := (op,now)) hop key with hs | hu
    · exact hs
    · rw [hu,update_of_no_entry h]
  cases op with
  | getOrCreate user addr =>
    rcases getOrCreate_slots zone m user addr now key with hs | ⟨cfg,hk,he⟩
    · exact .inl hs
    · exact .inr ⟨user,addr,cfg,rfl,hk,he⟩
  | checkSchedules =>
    refine .inl ?_
    have hu : ((m.applyRuntimeState zone now).slots key) = m.slots key := update_of_no_entry h _
    change (cleanExpiredClientLimiters (m.applyRuntimeState zone now) now).slots key = _
    simp only [cleanExpiredClientLimiters,hu,h,Option.any_none,Bool.false_eq_true,if_false]
  | removeConfig user =>
    rcases removeConfig_slots zone m user now key with hs | ⟨-,hd⟩
    · exact .inl hs
    · rw [hd,drop_of_no_entry h]
      exact .inl rfl
  | applyConfig user => exact .inl (hr rfl)
  | replaceUserSchedules user schedules => exact .inl (hr rfl)
  | removeUserSchedules user => exact .inl (hr rfl)

lemma slots_of_other {e : LimiterOp × ℤ} {user key : String} (hop : e.1.user = some user)
    (hu : Plain user) (hk : extractUserName key ≠ user) :
    (m.step zone e).slots key = m.slots key ∨ e.1.refreshes = true ∧
      (m.step zone e).slots key = (m.slots key).update
        ((m.step zone e).config.effectiveSpeed (extractUserName key) (timeOfDay zone e.2)) := by
  by_cases hr : e.1.refreshes = true
  · exact (refresh_slots zone m hr key).imp_right fun h => ⟨hr,h⟩
  · refine .inl ?_
    obtain ⟨op,now⟩ := e
    cases op with
    | getOrCreate u addr =>
      obtain rfl : u = user := Option.some.inj hop
      rcases getOrCreate_slots zone m u addr now key with hs | ⟨cfg,rfl,-⟩
      · exact hs
      · exact absurd (extractUserName_limiterKey hu cfg addr) hk
    | removeConfig u =>
      obtain rfl : u = user := Option.some.inj hop
      rcases removeConfig_slots zone m u now key with hs | ⟨ho,-⟩
      · exact hs
      · exact absurd (extractUserName_of_ownsKey hu ho) hk
    | checkSchedules => cases hop
    | applyConfig u => exact absurd rfl hr
    | replaceUserSchedules u schedules => exact absurd rfl hr
    | removeUserSchedules u => exact absurd rfl hr

end slots

section rates

lemma reconcile_limiter (current : Option ℕ) (mbps : ℤ) {lane : Lane} {n : ℕ}
    (hn : n < lane.count) :
    ((reconcileLimiterDirection current mbps lane).2.rate n =
      if current = some n then (if 0 < mbps then .mbps mbps else .inf) else lane.rate n) ∧
    (current = some n → 0 < mbps → (reconcileLimiterDirection current mbps lane).1 = some n) := by
  unfold reconcileLimiterDirection
  by_cases hp : 0 < mbps
  · cases current with
    | none => simp [hp,newLimiter,not_le.mpr hp,Function.update_of_ne hn.ne]
    | some k =>
      by_cases hk : k = n
      · simp [hp,hk,setLimiterRate,setLimit]
      · have hne : n ≠ k := Ne.symm hk
        simp [hp,hk,setLimiterRate,setLimit,Function.update_of_ne hne]
  · cases current with
    | none => simp [hp,neutralizeLimiter,setLimit]
    | some k =>
      by_cases hk : k = n
      · simp [hp,hk,neutralizeLimiter,setLimit]
      · have hne : n ≠ k := Ne.symm hk
        simp [hp,hk,neutralizeLimiter,setLimit,Function.update_of_ne hne]

lemma update_limiter {slot : Slot} {d : Direction} {n : ℕ} (hn : n < (slot.lane d).count)
    (cfg : Option SpeedConfig) :
    ((slot.update cfg).lane d).rate n =
        (if slot.pointer d = some n then limitOf cfg d else (slot.lane d).rate n) ∧
      (slot.pointer d = some n → (slot.update cfg).pointer d = some n ∨ limitOf cfg d = .inf) := by
  cases hul : slot.entry with
  | none =>
    have hp : slot.pointer d = none := by rw [Slot.pointer,hul]; rfl
    rw [update_of_no_entry hul,hp]
    refine ⟨rfl,?_⟩
    rintro ⟨⟩
  | some ul =>
    cases cfg with
    | none =>
      have hdr : slot.update none = slot.drop := by simp only [Slot.update,hul]
      have hl : (slot.drop.lane d) = neutralizeLimiter (slot.pointer d) (slot.lane d) := by
        cases d <;> rfl
      rw [hdr,hl]
      refine ⟨?_,fun _ => .inr rfl⟩
      cases slot.pointer d with
      | none => rfl
      | some k =>
        by_cases hk : k = n
        · simp [hk,neutralizeLimiter,setLimit,limitOf]
        · have hne : n ≠ k := Ne.symm hk
          simp [hk,neutralizeLimiter,setLimit,Function.update_of_ne hne]
    | some cfg =>
      have hdi : ∃ mbps,limitOf (some cfg) d = (if 0 < mbps then .mbps mbps else .inf) ∧
          (slot.update (some cfg)).pointer d =
            (reconcileLimiterDirection (slot.pointer d) mbps (slot.lane d)).1 ∧
          (slot.update (some cfg)).lane d =
            (reconcileLimiterDirection (slot.pointer d) mbps (slot.lane d)).2 := by
        obtain ⟨hup,hdo,hu,hd⟩ := update_some hul cfg
        have hp : slot.pointer d = ul.pointer d := by rw [Slot.pointer,hul]; rfl
        rw [hp]
        cases d with
        | upload => exact ⟨cfg.uploadMbps,rfl,hup,hu⟩
        | download => exact ⟨cfg.downloadMbps,rfl,hdo,hd⟩
      obtain ⟨mbps,hli,hp,hl⟩ := hdi
      obtain ⟨hr,hcu⟩ := reconcile_limiter (slot.pointer d) mbps hn
      rw [hli,hp,hl]
      refine ⟨hr,fun h => ?_⟩
      by_cases hpo : 0 < mbps
      · exact .inl (hcu h hpo)
      · exact .inr (if_neg hpo)

end rates

structure Keyed (s : Owned) : Prop where
  numbered : Numbered ⟨s.manager,[]⟩
  entries : ∀ key, (s.manager.slots key).entry ≠ none → s.entryUser key = extractUserName key
  limiters : ∀ h, s.Created h → s.limiterUser h = extractUserName h.key

section runs

variable {zone : ℤ → ℤ} {s : Owned}

lemma Keyed.new (config : ConfigSnapshot) : Keyed (.new config) := by
  refine ⟨⟨fun _ _ _ => nofun,nofun⟩,fun key h => absurd rfl h,fun h hc => ?_⟩
  have hco : (((Owned.new config).manager.slots h.key).lane h.direction).count = 0 := by
    cases h.direction <;> rfl
  rw [Owned.Created,hco] at hc
  exact absurd hc (Nat.not_lt_zero _)

lemma entryUser_step {key : String} (h : (s.manager.slots key).entry ≠ none)
    (e : LimiterOp × ℤ) : (s.step zone e).entryUser key = s.entryUser key := by
  obtain ⟨op,now⟩ := e
  cases op with
  | getOrCreate user addr => exact if_neg fun hn => h hn.1
  | checkSchedules => rfl
  | applyConfig user => rfl
  | removeConfig user => rfl
  | replaceUserSchedules user schedules => rfl
  | removeUserSchedules user => rfl

lemma Keyed.step (hs : Keyed s) {e : LimiterOp × ℤ} (he : ∀ user,e.1.user = some user → Plain user) :
    Keyed (s.step zone e) := by
  have hn : Numbered ⟨(s.step zone e).manager,[]⟩ := by
    have hma : Managed ⟨s.manager,[]⟩ := nofun
    exact ⟨(managed_step zone hs.numbered hma e).1.current,nofun⟩
  have het : ∀ key,((s.step zone e).manager.slots key).entry ≠ none →
      (s.step zone e).entryUser key = extractUserName key := by
    intro key hk
    by_cases hen : (s.manager.slots key).entry = none
    · rcases slots_of_no_entry zone s.manager hen e with hsa | ⟨user,addr,cfg,hop,rfl,hne⟩
      · rw [show (s.step zone e).manager.slots key = _ from hsa] at hk
        exact absurd hen hk
      · obtain ⟨op,now⟩ := e
        obtain rfl : op = .getOrCreate user addr := hop
        rw [extractUserName_limiterKey (he user rfl)]
        exact if_pos ⟨hen,hne⟩
    · rw [entryUser_step hen,hs.entries key hen]
  refine ⟨hn,het,fun h hc => ?_⟩
  by_cases hold : s.Created h
  · exact (if_pos hold).trans (hs.limiters h hold)
  · -- the limiter is new, and belongs to the user of the entry
    have hu : (s.step zone e).limiterUser h = (s.step zone e).entryUser h.key := if_neg hold
    rw [hu]
    by_cases hen : (s.manager.slots h.key).entry = none
    · rcases slots_of_no_entry zone s.manager hen e with hsa | ⟨-,-,-,-,-,hne⟩
      · rw [Owned.Created,show (s.step zone e).manager.slots h.key = _ from hsa] at hc
        exact absurd hc hold
      · exact het h.key hne
    · rw [entryUser_step hen,hs.entries h.key hen]

lemma Keyed.run (zone : ℤ → ℤ) (config : ConfigSnapshot) {history : List (LimiterOp × ℤ)}
    (h : ∀ e ∈ history,∀ user,e.1.user = some user → Plain user) :
    Keyed (Owned.run zone config history) := by
  induction history using List.reverseRecOn with
  | nil => exact Keyed.new config
  | append_singleton history e ih =>
    have hl : Owned.run zone config (history ++ [e]) =
        (Owned.run zone config history).step zone e := by
      simp [Owned.run]
    rw [hl]
    exact (ih fun e' he' => h e' (List.mem_append_left _ he')).step
      (h e (List.mem_append_right _ (List.mem_singleton_self e)))

lemma Keyed.apart (hs : Keyed s) {h : Handed} (hc : s.Created h) {e : LimiterOp × ℤ}
    {user : String} (hop : e.1.user = some user) (hus : Plain user)
    (hne : user ≠ s.limiterUser h) : Apart zone s.manager e (s.limiterUser h) h := by
  have hke : extractUserName h.key = s.limiterUser h := (hs.limiters h hc).symm
  have hsl := slots_of_other zone s.manager hop hus (hke ▸ hne.symm)
  rw [hke] at hsl
  refine ⟨fun key ul hr hme => ?_,fun hcu => ?_,?_⟩
  · obtain ⟨op,now⟩ := e
    cases op with
    | getOrCreate u addr =>
      obtain rfl : u = user := Option.some.inj hop
      obtain ⟨cfg,rfl⟩ := returned_key hr
      obtain ⟨hk,-⟩ := mem_handedBy hme
      rw [hk,extractUserName_limiterKey hus] at hke
      exact hne hke
    | checkSchedules => cases hr
    | applyConfig u => cases hr
    | removeConfig u => cases hr
    | replaceUserSchedules u schedules => cases hr
    | removeUserSchedules u => cases hr
  · rcases hsl with hsa | ⟨hre,hu⟩
    · rw [Current,hsa]
      exact .inl hcu
    · rw [Current,hu]
      exact ((update_limiter hc _).2 hcu).imp_right fun hi => ⟨hre,hi⟩
  · rcases hsl with hsa | ⟨hre,hu⟩
    · exact .inl (by rw [LimiterManager.rate,hsa,LimiterManager.rate])
    · obtain ⟨hra,-⟩ := update_limiter hc
        ((s.manager.step zone e).config.effectiveSpeed (s.limiterUser h) (timeOfDay zone e.2))
      rw [← hu] at hra
      by_cases hcu : (s.manager.slots h.key).pointer h.direction = some h.number
      · exact .inr ⟨hre,hra.trans (if_pos hcu)⟩
      · exact .inl (hra.trans (if_neg hcu))

end runs

/-- **Users in the speed limiter.** In every run in which no user has a name with the
separator, an operation leaves the limiters of other users alone, and updateLimiterRates
gives each limiter the speed of the user it was created for. -/
theorem plain_users_apart (zone : ℤ → ℤ) (config : ConfigSnapshot) (history : List (LimiterOp × ℤ))
    (hplain : ∀ e ∈ history, ∀ user, e.1.user = some user → Plain user) :
    let s := Owned.run zone config history
    ∀ h, s.Created h → (∀ e user, e.1.user = some user → Plain user → user ≠ s.limiterUser h →
        Apart zone s.manager e (s.limiterUser h) h) ∧
      ∀ now, s.manager.Current h → (s.manager.updateLimiterRates zone now).rate h =
        limitOf (s.manager.config.effectiveSpeed (s.limiterUser h) (timeOfDay zone now))
          h.direction := by
  intro s h hc
  have hs : Keyed s := Keyed.run zone config hplain
  refine ⟨fun e user hop hu hne => hs.apart hc hop hu hne,fun now hcu => ?_⟩
  have hk : extractUserName h.key = s.limiterUser h := (hs.limiters h hc).symm
  rw [← hk]
  exact (update_limiter hc _).1.trans (if_pos hcu)

def phoneLimiter : Handed := ⟨"alice|192.0.2.1",.upload,0⟩

def aliceRun : Owned :=
  .run id perClientConfig [(.getOrCreate "alice" (some "192.0.2.1"),1000)]

def pipeRun : Owned := .run id perClientConfig [(.getOrCreate "alice|192.0.2.1" none,1000)]

/-- A user is given the limiter of alice's phone, and removing alice lifts the limiter of
a user whose name begins with alice's. -/
theorem separator_mixes_users :
    (aliceRun.Created phoneLimiter ∧ aliceRun.limiterUser phoneLimiter = "alice" ∧
      ¬ Apart id aliceRun.manager (.getOrCreate "alice|192.0.2.1" none,1001) "alice"
        phoneLimiter) ∧
    pipeRun.Created phoneLimiter ∧ pipeRun.limiterUser phoneLimiter = "alice|192.0.2.1" ∧
      ¬ Apart id pipeRun.manager (.removeConfig "alice",1001) "alice|192.0.2.1"
        phoneLimiter := by
  refine ⟨⟨by decide +kernel,by decide +kernel,fun h => ?_⟩,by decide +kernel,
    by decide +kernel,fun h => ?_⟩
  · exact h.notReturned "alice|192.0.2.1" ⟨some 0,some 0,1001⟩ (by decide +kernel)
      (by decide +kernel)
  · rcases h.rate with hra | ⟨hr,-⟩
    · exact absurd hra (by decide +kernel)
    · cases hr

/-- Removing bob does not reach the limiter of alice's phone. -/
theorem plain_users_apart_alice :
    Apart id aliceRun.manager (.removeConfig "bob",1001) "alice" phoneLimiter := by
  have hp : ∀ e ∈ [(LimiterOp.getOrCreate "alice" (some "192.0.2.1"),(1000 : ℤ))],
      ∀ user, e.1.user = some user → Plain user := by
    intro e he user hu
    rw [List.mem_singleton.mp he] at hu
    cases hu
    unfold Plain
    decide
  have hcr : aliceRun.Created phoneLimiter := by decide +kernel
  have hb : Plain "bob" := by
    unfold Plain
    decide
  have hu : aliceRun.limiterUser phoneLimiter = "alice" := by decide +kernel
  have hne : "bob" ≠ aliceRun.limiterUser phoneLimiter := by
    rw [hu]
    decide
  have ha := (plain_users_apart id perClientConfig _ hp phoneLimiter hcr).1
    (.removeConfig "bob",1001) "bob" rfl hb hne
  rw [← hu]
  exact ha

end SingBoxAuth.SpeedLimiter
