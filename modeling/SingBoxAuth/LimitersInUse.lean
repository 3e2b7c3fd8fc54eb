import SingBoxAuth.SpeedLimiters

/-! Which limiters that connections hold are still managed or have been lifted. -/
namespace SingBoxAuth.SpeedLimiter

/-- From one state of a lane and its current limiter to another: what was current or
lifted before is current or lifted afterwards. -/
structure Lane.Keeps (current : Option ℕ) (lane : Lane) (current' : Option ℕ) (lane' : Lane) :
    Prop where
  count : lane.count ≤ lane'.count
  bounded : (∀ n, current = some n → n < lane.count) → ∀ n, current' = some n → n < lane'.count
  lifted : ∀ n < lane.count, current = some n ∨ lane.rate n = .inf →
    current' = some n ∨ lane'.rate n = .inf

lemma Lane.Keeps.refl (current : Option ℕ) (lane : Lane) : lane.Keeps current current lane :=
  ⟨le_rfl,fun h => h,fun _ _ h => h⟩

lemma keeps_neutralizeLimiter (current : Option ℕ) (lane : Lane) :
    lane.Keeps current none (neutralizeLimiter current lane) := by
  cases current with
  | none => exact ⟨le_rfl,fun _ => nofun,fun n _ h => h⟩
  | some k =>
    refine ⟨le_rfl,fun _ => nofun,fun n _ h => .inr ?_⟩
    by_cases hn : n = k
    · simp [neutralizeLimiter,setLimit,hn]
    · have hi : lane.rate n = .inf := h.resolve_left fun heq => hn (Option.some.inj heq).symm
      simpa [neutralizeLimiter,setLimit,Function.update_of_ne hn] using hi

lemma keeps_newLimiter (mbps : ℤ) (lane : Lane) :
    lane.Keeps none (newLimiter mbps lane).1 (newLimiter mbps lane).2 := by
  unfold newLimiter
  split_ifs
  · exact Lane.Keeps.refl none lane
  · refine ⟨Nat.le_succ _,fun _ n hn => ?_,fun n hn h => .inr ?_⟩
    · cases hn
      exact Nat.lt_succ_self _
    · have hi : lane.rate n = .inf := h.resolve_left nofun
      simpa [Function.update_of_ne hn.ne] using hi

lemma keeps_reconcile (current : Option ℕ) (mbps : ℤ) (lane : Lane) :
    lane.Keeps current (reconcileLimiterDirection current mbps lane).1
      (reconcileLimiterDirection current mbps lane).2 := by
  unfold reconcileLimiterDirection
  split_ifs
  · cases current with
    | none => exact keeps_newLimiter mbps lane
    | some k =>
      refine ⟨le_rfl,fun h => h,fun n _ h => ?_⟩
      by_cases hn : n = k
      · exact .inl (hn ▸ rfl)
      · exact h.imp_right fun hi => by
          simpa [setLimiterRate,setLimit,Function.update_of_ne hn] using hi
  · exact keeps_neutralizeLimiter current lane

lemma rate_reconcile {current : Option ℕ} {mbps : ℤ} {lane : Lane} {n : ℕ}
    (h : (reconcileLimiterDirection current mbps lane).1 = some n) :
    (reconcileLimiterDirection current mbps lane).2.rate n = .mbps mbps := by
  unfold reconcileLimiterDirection at h ⊢
  split_ifs at h ⊢ with hp
  cases current with
  | none =>
    simp only [newLimiter,not_le.mpr hp,if_false,Option.some.injEq] at h ⊢
    simp [← h]
  | some k =>
    obtain rfl : k = n := Option.some.inj h
    simp [setLimiterRate,setLimit]

def Slot.Keeps (slot slot' : Slot) : Prop :=
  ∀ d, (slot.lane d).Keeps (slot.pointer d) (slot'.pointer d) (slot'.lane d)

lemma Slot.Keeps.refl (slot : Slot) : slot.Keeps slot := fun _ => Lane.Keeps.refl _ _

lemma keeps_drop (slot : Slot) : slot.Keeps slot.drop := fun d => by
  cases d <;> exact keeps_neutralizeLimiter _ _

lemma update_some {slot : Slot} {ul : UserLimiter} (hul : slot.entry = some ul)
    (cfg : SpeedConfig) :
    (slot.update (some cfg)).pointer .upload =
        (reconcileLimiterDirection ul.upload cfg.uploadMbps slot.upload).1 ∧
      (slot.update (some cfg)).pointer .download =
        (reconcileLimiterDirection ul.download cfg.downloadMbps slot.download).1 ∧
      (slot.update (some cfg)).upload =
        (reconcileLimiterDirection ul.upload cfg.uploadMbps slot.upload).2 ∧
      (slot.update (some cfg)).download =
        (reconcileLimiterDirection ul.download cfg.downloadMbps slot.download).2 := by
  simp only [Slot.update,hul]
  split_ifs with hn
  · exact ⟨hn.1.symm,hn.2.symm,rfl,rfl⟩
  · exact ⟨rfl,rfl,rfl,rfl⟩

lemma keeps_update (slot : Slot) (cfg : Option SpeedConfig) : slot.Keeps (slot.update cfg) := by
  cases hul : slot.entry with
  | none =>
    rw [Slot.update,hul]
    exact Slot.Keeps.refl slot
  | some ul =>
    cases cfg with
    | none =>
      simp only [Slot.update,hul]
      exact keeps_drop slot
    | some cfg =>
      obtain ⟨hup,hd,hul',hdl'⟩ := update_some hul cfg
      intro d
      cases d with
      | upload =>
        have h := keeps_reconcile ul.upload cfg.uploadMbps slot.upload
        rw [← hup,← hul'] at h
        simpa [Slot.pointer,hul,UserLimiter.pointer,Slot.lane] using h
      | download =>
        have h := keeps_reconcile ul.download cfg.downloadMbps slot.download
        rw [← hd,← hdl'] at h
        simpa [Slot.pointer,hul,UserLimiter.pointer,Slot.lane] using h

lemma rate_update {slot : Slot} {cfg : Option SpeedConfig} {d : Direction} {n : ℕ}
    (h : (slot.update cfg).pointer d = some n) : ((slot.update cfg).lane d).rate n ≠ .inf := by
  cases hul : slot.entry with
  | none => simp [Slot.update,hul,Slot.pointer] at h
  | some ul =>
    cases cfg with
    | none => simp [Slot.update,hul,Slot.drop,Slot.pointer] at h
    | some cfg =>
      obtain ⟨hup,hd,hul',hdl'⟩ := update_some hul cfg
      cases d with
      | upload =>
        rw [Slot.lane,hul',rate_reconcile (hup ▸ h)]
        nofun
      | download =>
        rw [Slot.lane,hdl',rate_reconcile (hd ▸ h)]
        nofun

/-- The limiter that a connection holds is the current one of its key, or lifted. -/
def Handed.Managed (m : LimiterManager) (h : Handed) : Prop :=
  (m.slots h.key).pointer h.direction = some h.number ∨
    ((m.slots h.key).lane h.direction).rate h.number = .inf

def Managed (s : Tracked) : Prop := ∀ h ∈ s.handed, h.Managed s.manager

/-- Connections with the same key share one limiter, unless one of theirs is lifted. -/
def Shared (s : Tracked) : Prop := ∀ h ∈ s.handed, ∀ h' ∈ s.handed, h.key = h'.key →
  h.direction = h'.direction → ((s.manager.slots h.key).lane h.direction).rate h.number ≠ .inf →
  ((s.manager.slots h'.key).lane h'.direction).rate h'.number ≠ .inf → h.number = h'.number

lemma Managed.shared {s : Tracked} (h : Managed s) : Shared s := by
  intro x hx y hy hk hd hrx hry
  have hpx := (h x hx).resolve_right hrx
  have hpy := (h y hy).resolve_right hry
  rw [hk,hd,hpy] at hpx
  exact (Option.some.inj hpx).symm

structure Numbered (s : Tracked) : Prop where
  current : ∀ key d n, (s.manager.slots key).pointer d = some n →
    n < ((s.manager.slots key).lane d).count
  issued : ∀ h ∈ s.handed, h.number < ((s.manager.slots h.key).lane h.direction).count

section step

variable (zone : ℤ → ℤ) {s : Tracked}

lemma Numbered.keep {m : LimiterManager} (hn : Numbered s)
    (hk : ∀ key,(s.manager.slots key).Keeps (m.slots key)) : Numbered ⟨m,s.handed⟩ :=
  ⟨fun key d => (hk key d).bounded fun n => hn.current key d n,fun h hh =>
    (hn.issued h hh).trans_le (hk h.key h.direction).count⟩

lemma Managed.keep {m : LimiterManager} (hm : Managed s) (hn : Numbered s)
    (hk : ∀ key,(s.manager.slots key).Keeps (m.slots key)) : Managed ⟨m,s.handed⟩ :=
  fun h hh => (hk h.key h.direction).lifted h.number (hn.issued h hh) (hm h hh)

lemma keeps_applyRuntimeState (m : LimiterManager) (now : ℤ) (key : String) :
    (m.slots key).Keeps ((m.applyRuntimeState zone now).slots key) := keeps_update _ _

lemma keeps_setSlot {m : LimiterManager} {key : String} {slot : Slot}
    (h : (m.slots key).Keeps slot) (k : String) :
    (m.slots k).Keeps ((m.setSlot key slot).slots k) := by
  by_cases hk : k = key
  · subst hk
    simpa [LimiterManager.setSlot] using h
  · simpa [LimiterManager.setSlot,Function.update_of_ne hk] using Slot.Keeps.refl (m.slots k)

lemma getOrCreate_spec (m : LimiterManager) (user : String) (addr : Option String) (now : ℤ) :
    (∀ k,(m.slots k).Keeps ((m.getOrCreateLimiterForClient zone user addr now).2.slots k)) ∧
    ∀ key ul,(m.getOrCreateLimiterForClient zone user addr now).1 = some (key,ul) →
      ((m.getOrCreateLimiterForClient zone user addr now).2.slots key).entry = some ul := by
  unfold LimiterManager.getOrCreateLimiterForClient
  cases m.currentConfig zone user with
  | none => exact ⟨fun k => Slot.Keeps.refl _,nofun⟩
  | some cfg =>
    cases hul : (m.slots (LimiterManager.limiterKey cfg user addr)).entry with
    | some ul =>
      simp only [hul]
      refine ⟨keeps_setSlot fun d => ?_,fun key ul' h => ?_⟩
      · cases d <;>
          simpa [Slot.pointer,hul,UserLimiter.pointer,Slot.lane] using Lane.Keeps.refl _ _
      · cases h
        simp [LimiterManager.setSlot]
    | none =>
      simp only [hul]
      split_ifs with hn
      · exact ⟨fun k => Slot.Keeps.refl _,nofun⟩
      · refine ⟨keeps_setSlot fun d => ?_,fun key ul' h => ?_⟩
        · cases d
          · simpa [Slot.pointer,hul,UserLimiter.pointer,Slot.lane] using keeps_newLimiter _ _
          · simpa [Slot.pointer,hul,UserLimiter.pointer,Slot.lane] using keeps_newLimiter _ _
        · cases h
          simp [LimiterManager.setSlot]

lemma mem_handedBy {key : String} {ul : UserLimiter} {h : Handed} (hh : h ∈ handedBy key ul) :
    h.key = key ∧ ul.pointer h.direction = some h.number := by
  simp only [handedBy,List.mem_append,Option.mem_toList,Option.map_eq_some_iff] at hh
  obtain ⟨n,hn,rfl⟩ | ⟨n,hn,rfl⟩ := hh <;> exact ⟨rfl,hn⟩

/-- An entry that this check deletes points to a limiter that a connection holds. -/
def Orphans (zone : ℤ → ℤ) (s : Tracked) (now : ℤ) : Prop :=
  ∃ h ∈ s.handed, ∃ ul, ((s.manager.applyRuntimeState zone now).slots h.key).entry = some ul ∧
    s.manager.expired now h.key ul = true ∧ ul.pointer h.direction = some h.number

lemma slots_change {result : Except SpeedError LimiterManager}
    (h : ∀ m,result = .ok m → ∀ key,(s.manager.slots key).Keeps (m.slots key)) :
    ∃ m,s.change result = ⟨m,s.handed⟩ ∧ ∀ key,(s.manager.slots key).Keeps (m.slots key) := by
  cases result with
  | error e => exact ⟨s.manager,rfl,fun _ => Slot.Keeps.refl _⟩
  | ok m => exact ⟨m,rfl,h m rfl⟩

lemma change_keeps {op : LimiterOp} (now : ℤ) (hg : ∀ user addr,op ≠ .getOrCreate user addr)
    (hch : op ≠ .checkSchedules) : ∃ m,s.step zone (op,now) = ⟨m,s.handed⟩ ∧
      ∀ key,(s.manager.slots key).Keeps (m.slots key) := by
  cases op with
  | getOrCreate user addr => exact absurd rfl (hg user addr)
  | checkSchedules => exact absurd rfl hch
  | applyConfig user =>
    refine slots_change fun m hm key => ?_
    obtain ⟨config,-,rfl⟩ := map_eq_ok hm
    exact keeps_update _ _
  | removeConfig user =>
    refine slots_change fun m hm key => ?_
    obtain ⟨config,-,rfl⟩ := map_eq_ok hm
    dsimp only
    split_ifs
    · exact keeps_drop _
    · exact Slot.Keeps.refl _
  | replaceUserSchedules user schedules =>
    refine slots_change fun m hm key => ?_
    obtain ⟨config,-,rfl⟩ := map_eq_ok hm
    exact keeps_update _ _
  | removeUserSchedules user =>
    refine slots_change fun m hm key => ?_
    obtain ⟨config,-,rfl⟩ := map_eq_ok hm
    exact keeps_update _ _

lemma step_getOrCreate (user : String) (addr : Option String) (now : ℤ)
    (hn : Numbered s) (hm : Managed s) : Numbered (s.step zone (.getOrCreate user addr,now)) ∧
      Managed (s.step zone (.getOrCreate user addr,now)) := by
  obtain ⟨hk,he⟩ := getOrCreate_spec zone s.manager user addr now
  have hn' := hn.keep hk
  have hm' := hm.keep hn hk
  simp only [Tracked.step]
  cases hr : (s.manager.getOrCreateLimiterForClient zone user addr now).1 with
  | none => exact ⟨hn',hm'⟩
  | some result =>
    obtain ⟨key,ul⟩ := result
    have hul := he key ul hr
    -- what is handed out now is what the entry points to
    have hne : ∀ h ∈ handedBy key ul,
        ((s.manager.getOrCreateLimiterForClient zone user addr now).2.slots h.key).pointer
          h.direction = some h.number := fun h hh => by
      obtain ⟨rfl,hp⟩ := mem_handedBy hh
      rw [Slot.pointer,hul]
      exact hp
    refine ⟨⟨hn'.current,fun h hh => ?_⟩,fun h hh => ?_⟩
    · obtain hh | hh := List.mem_append.mp hh
      · exact hn'.current _ _ _ (hne h hh)
      · exact hn'.issued h hh
    · obtain hh | hh := List.mem_append.mp hh
      · exact .inl (hne h hh)
      · exact hm' h hh

lemma expired_applyRuntimeState (m : LimiterManager) (now : ℤ) :
    (m.applyRuntimeState zone now).expired now = m.expired now := rfl

lemma step_checkSchedules (now : ℤ) (hn : Numbered s) (hm : Managed s) :
    Numbered (s.step zone (.checkSchedules,now)) ∧
      (Managed (s.step zone (.checkSchedules,now)) ↔ ¬ Orphans zone s now) := by
  have hn' := hn.keep (keeps_applyRuntimeState zone s.manager now)
  have hm' := hm.keep hn (keeps_applyRuntimeState zone s.manager now)
  -- cleaning up drops entries and leaves the lanes alone
  have hl : ∀ key d,((s.manager.checkSchedules zone now).slots key).lane d =
      ((s.manager.applyRuntimeState zone now).slots key).lane d := fun key d => by
    simp only [LimiterManager.checkSchedules,LimiterManager.cleanExpiredClientLimiters]
    split_ifs <;> cases d <;> rfl
  have hpo : ∀ key d n,((s.manager.checkSchedules zone now).slots key).pointer d = some n ↔
      ((s.manager.applyRuntimeState zone now).slots key).pointer d = some n ∧
        ((s.manager.applyRuntimeState zone now).slots key).entry.any
          (s.manager.expired now key) = false := fun key d n => by
    simp only [LimiterManager.checkSchedules,LimiterManager.cleanExpiredClientLimiters,
      expired_applyRuntimeState]
    split_ifs with he
    · simp [Slot.pointer,he]
    · simp [he]
  refine ⟨⟨fun key d n hp => ?_,fun h hh => ?_⟩,fun hma => ?_,fun ho h hh => ?_⟩
  · exact (congrArg Lane.count (hl key d)) ▸ hn'.current key d n ((hpo key d n).mp hp).1
  · exact (congrArg Lane.count (hl h.key h.direction)) ▸ hn'.issued h hh
  · rintro ⟨h,hh,ul,hul,he,hp⟩
    have hcu : ((s.manager.applyRuntimeState zone now).slots h.key).pointer h.direction =
        some h.number := by
      rw [Slot.pointer,hul]
      exact hp
    obtain hk | hi := hma h hh
    · have hg := ((hpo _ _ _).mp hk).2
      simp [hul,he] at hg
    · have hr := (congrArg Lane.rate (hl h.key h.direction)) ▸ hi
      exact rate_update hcu hr
  · refine (hm' h hh).imp (fun hp => (hpo _ _ _).mpr ⟨hp,?_⟩) fun hi =>
      (congrArg (fun lane => lane.rate h.number) (hl h.key h.direction)).trans hi
    cases hul : ((s.manager.applyRuntimeState zone now).slots h.key).entry with
    | none => rfl
    | some ul =>
      rw [Option.any_some,Bool.eq_false_iff]
      intro he
      exact ho ⟨h,hh,ul,hul,he,by simpa [Slot.pointer,hul] using hp⟩

/-- The check, if the operation is one, orphans no limiter in use. -/
def SafeCheck (zone : ℤ → ℤ) (s : Tracked) (op : LimiterOp × ℤ) : Prop :=
  op.1 = .checkSchedules → ¬ Orphans zone s op.2

theorem managed_step (hn : Numbered s) (hm : Managed s) (op : LimiterOp × ℤ) :
    Numbered (s.step zone op) ∧ (Managed (s.step zone op) ↔ SafeCheck zone s op) := by
  obtain ⟨op,now⟩ := op
  by_cases hch : op = .checkSchedules
  · subst hch
    obtain ⟨hn',hm'⟩ := step_checkSchedules zone now hn hm
    exact ⟨hn',hm'.trans ⟨fun h _ => h,fun h => h rfl⟩⟩
  · have hs : SafeCheck zone s (op,now) := fun h => absurd h hch
    by_cases hg : ∃ user addr,op = .getOrCreate user addr
    · obtain ⟨user,addr,rfl⟩ := hg
      obtain ⟨hn',hm'⟩ := step_getOrCreate zone user addr now hn hm
      exact ⟨hn',fun _ => hs,fun _ => hm'⟩
    · obtain ⟨m,hst,hk⟩ := change_keeps zone (s := s) now (fun user addr h => hg ⟨user,addr,h⟩) hch
      rw [hst]
      exact ⟨hn.keep hk,fun _ => hs,fun _ => hm.keep hn hk⟩

end step

lemma run_append (zone : ℤ → ℤ) (config : ConfigSnapshot) (past : List (LimiterOp × ℤ))
    (op : LimiterOp × ℤ) :
    Tracked.run zone config (past ++ [op]) = (Tracked.run zone config past).step zone op := by
  simp [Tracked.run]

def SafeHistory (zone : ℤ → ℤ) (config : ConfigSnapshot) (history : List (LimiterOp × ℤ)) : Prop :=
  ∀ past op, past ++ [op] <+: history → SafeCheck zone (Tracked.run zone config past) op

lemma managed_of_safe {zone : ℤ → ℤ} {config : ConfigSnapshot} {history : List (LimiterOp × ℤ)}
    (hs : SafeHistory zone config history) :
    Numbered (Tracked.run zone config history) ∧ Managed (Tracked.run zone config history) := by
  induction history using List.reverseRecOn with
  | nil => exact ⟨⟨fun _ d _ h => (by cases d <;> cases h),nofun⟩,nofun⟩
  | append_singleton past op ih =>
    obtain ⟨hn,hm⟩ := ih fun p o hp => hs p o (hp.trans (List.prefix_append past [op]))
    rw [run_append]
    obtain ⟨hn',hm'⟩ := managed_step zone hn hm op
    exact ⟨hn',hm'.mpr (hs past op (List.prefix_refl _))⟩

/-- Throughout a history every limiter in use is managed or lifted, and shared by the
connections of its key, if and only if no check of the history deletes an expired entry
whose limiters a connection holds. -/
theorem limiters_managed_iff (zone : ℤ → ℤ) (config : ConfigSnapshot)
    (history : List (LimiterOp × ℤ)) :
    (∀ past, past <+: history →
      Managed (Tracked.run zone config past) ∧ Shared (Tracked.run zone config past)) ↔
    SafeHistory zone config history := by
  refine ⟨fun ha past op hpr => ?_,fun hs past hpr => ?_⟩
  · -- up to the first unsafe check the numbering invariant holds
    have hb : ∀ past', past' <+: past → SafeHistory zone config past' := by
      intro past'
      induction past' using List.reverseRecOn with
      | nil =>
        intro _ p o hp
        have hni := List.prefix_nil.mp hp
        simp at hni
      | append_singleton p' o' ih =>
        intro hp p o hpo
        have hp' : p' <+: past := (List.prefix_append p' [o']).trans hp
        obtain heq | hlt := List.prefix_concat_iff.mp hpo
        · obtain ⟨rfl,rfl⟩ := List.append_singleton_inj.mp heq
          obtain ⟨hn,hm⟩ := managed_of_safe (ih hp')
          have hw := hp.trans ((List.prefix_append past [op]).trans hpr)
          have hma := (ha (p ++ [o]) hw).1
          rw [run_append] at hma
          exact (managed_step zone hn hm o).2.mp hma
        · exact ih hp' p o hlt
    obtain ⟨hn,hm⟩ := managed_of_safe (hb past (List.prefix_refl past))
    have hma := (ha (past ++ [op]) hpr).1
    rw [run_append] at hma
    exact (managed_step zone hn hm op).2.mp hma
  · have hm := (managed_of_safe fun p o hp => hs p o (hp.trans hpr)).2
    exact ⟨hm,hm.shared⟩

def perClientConfig : ConfigSnapshot :=
  ⟨some ⟨10,10,true⟩,fun _ => none,fun _ => none,fun _ => none,fun _ => none,[],fun _ => [],
    10 * minute,ConfigSnapshot.coherent_none,ConfigSnapshot.named_none⟩

/-- A connection lasts longer than the time to live; then a second one comes. -/
def lastingHistory : List (LimiterOp × ℤ) :=
  [(.getOrCreate "alice" (some "192.0.2.1"),1000),(.checkSchedules,1700),
    (.getOrCreate "alice" (some "192.0.2.1"),1701)]

/-- The two connections hold two limiters with a finite rate for the same key. -/
theorem limiter_orphaned :
    ¬ Managed (Tracked.run (fun _ => 0) perClientConfig (lastingHistory.take 2)) ∧
    ¬ Shared (Tracked.run (fun _ => 0) perClientConfig lastingHistory) ∧
    (lastingHistory.map Prod.snd).Pairwise (· ≤ ·) := by
  refine ⟨fun h => ?_,fun h => ?_,by decide⟩
  · have hm := h ⟨"alice|192.0.2.1",.upload,0⟩ (by decide +kernel)
    exact absurd hm (by unfold Handed.Managed; decide +kernel)
  · have hs := h ⟨"alice|192.0.2.1",.upload,0⟩ (by decide +kernel)
      ⟨"alice|192.0.2.1",.upload,1⟩ (by decide +kernel) rfl rfl
    exact absurd (hs (by decide +kernel) (by decide +kernel)) (by decide)

end SingBoxAuth.SpeedLimiter
