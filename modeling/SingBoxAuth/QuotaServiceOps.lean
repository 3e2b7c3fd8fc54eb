import SingBoxAuth.QuotaLocks

/-! The operations of the service take the locks that their actions need. -/
namespace SingBoxAuth.TrafficQuota
open Interleaving

section rules

variable {t : ℕ} {α : Type} {K L : World → Prop}

/-- The thread is not stuck and relies on a fact about the shared state. -/
def Secure (t : ℕ) (K : World → Prop) (m : Instant) : Prop :=
  stuck t m.history = false ∧ K m.state

def Lasts (t : ℕ) (K : World → Prop) : Prop := ∀ w w', Undisturbed t w w' → K w → K w'

def Owns (t : ℕ) (x : Mutex) (w : World) : Prop := w.mutex x = some t

/-- The thread holds a lock under which no configuration disappears. -/
def Locked (t : ℕ) (w : World) : Prop :=
  t ∈ w.readers ∨ w.mutex .applyMu = some t ∨ w.mutex .persistAccess = some t

lemma lasts_true : Lasts t fun _ => True := fun _ _ _ h => h

lemma lasts_owns (x : Mutex) : Lasts t (Owns t x) := fun _ _ hu h => hu.mutex h

lemma Lasts.and (hK : Lasts t K) (hL : Lasts t L) : Lasts t fun w => K w ∧ L w :=
  fun w w' hu h => ⟨hK w w' hu h.1,hL w w' hu h.2⟩

lemma Lasts.configured (hK : Lasts t K) (hl : ∀ w,K w → Locked t w) (p : Prop) (u : String) :
    Lasts t fun w => K w ∧ (p → u ∈ w.userConfigs) :=
  fun w w' hu h => ⟨hK w w' hu h.1,fun hp => hu.configs (hl w h.1) (h.2 hp)⟩

lemma stable_secure (hK : Lasts t K) : serviceContract.Stable t (Secure t K) :=
  Contract.stable_of_step fun _ _ _ _ _ hu hi hp he h =>
    ⟨(stuck_other hu).trans h.1,hK _ _ (undisturbed_of_step hi hu hp he) h.2⟩

lemma secure_rule {a : Act} {R : a.Res → World → Prop} (hK : Lasts t K)
    (hn : ∀ m : Instant,K m.state → ServiceNeeds t a m) (hr : ∀ r,¬ Fruitless a r)
    (hp : ∀ w r w',exec t a w r w' → K w → R r w') :
    serviceContract.Triple t (Secure t K) (perform a) fun r => Secure t (R r) :=
  .perform (stable_secure hK) fun m _ hm => ⟨⟨fun _ => hm.1,hn m hm.2⟩,fun r w he _ =>
    ⟨stuck_going (hr r),hp m.state r w he hm.2⟩⟩

lemma Act.Free.needs {a : Act} (ha : a.Free) (m : Instant) : ServiceNeeds t a m := by
  cases a with
  | returned value => cases value <;> first | exact ha.elim | trivial
  | _ => first | exact ha.elim | trivial

lemma Act.Free.going {a : Act} (ha : a.Free) (r : a.Res) : ¬ Fruitless a r := by
  cases a <;> first | exact ha.elim | exact id

lemma free_rule {a : Act} {R : a.Res → World → Prop} (ha : a.Free) (hK : Lasts t K)
    (hp : ∀ w r w',exec t a w r w' → K w' → R r w') :
    serviceContract.Triple t (Secure t K) (perform a) fun r => Secure t (R r) :=
  secure_rule hK (fun m _ => ha.needs m) ha.going fun w r w' he hw =>
    hp w r w' he (hK w w' (unlocking_of_free ha he).undisturbed hw)

lemma free_triple {p : Op α} (hK : Lasts t K) (hp : p.Uses Act.Free) :
    serviceContract.Triple t (Secure t K) p fun _ => Secure t K :=
  .of_uses (stable_secure hK) (fun _ ha m _ hm => ⟨⟨fun _ => hm.1,ha.needs m⟩,fun r _ he _ =>
    ⟨stuck_going (ha.going r),hK _ _ (unlocking_of_free ha he).undisturbed hm.2⟩⟩) hp

lemma free_perform {a : Act} (hK : Lasts t K) (ha : a.Free) :
    serviceContract.Triple t (Secure t K) (perform a) fun _ => Secure t K :=
  free_triple hK (Prog.uses_perform.mpr ha)

lemma lock_secure (hK : Lasts t K) (x : Mutex) :
    serviceContract.Triple t (Secure t K) (perform (.lock x))
      fun _ => Secure t fun w => K w ∧ Owns t x w := by
  refine secure_rule hK (fun _ _ => trivial) (fun _ => id) fun w r w' he hw => ?_
  obtain ⟨hf,-,rfl⟩ := exec_if he rfl
  refine ⟨hK w _ ⟨fun {y} hy => ?_,id,id,fun _ => id,fun _ _ => id,fun _ => id⟩ hw,?_⟩
  · have hne : y ≠ x := fun hyx => by simp [hyx,hf] at hy
    simpa [Function.update_of_ne hne] using hy
  · simp [Owns]

lemma acquire_secure (x : Mutex) :
    serviceContract.Triple t (Secure t fun _ => True) (perform (.lock x))
      fun _ => Secure t (Owns t x) :=
  (lock_secure lasts_true x).conseq (fun _ _ h => h) fun _ _ _ h => ⟨h.1,h.2.2⟩

lemma unlock_secure {x : Mutex} (hK : Lasts t K) (hx : ∀ w,K w → Owns t x w)
    (hL : ∀ w,K w → L { w with mutex := Function.update w.mutex x none }) :
    serviceContract.Triple t (Secure t K) (perform (.unlock x)) fun _ => Secure t L := by
  refine secure_rule hK (fun m hm => hx _ hm) (fun _ => id) fun w r w' he hw => ?_
  obtain ⟨-,rfl⟩ := exec_one he rfl
  exact hL w hw

lemma loadConfig_secure (hK : Lasts t K) (u : String) :
    serviceContract.Triple t (Secure t K) (perform (.loadConfig u))
      fun r => Secure t fun w => K w ∧ (r.isSome = true → u ∈ w.userConfigs) := by
  refine free_rule trivial hK fun w r w' he hw => ⟨hw,fun hr => ?_⟩
  rw [← AList.lookup_isSome,loadConfig_exec he]
  exact hr

lemma hasQuota_secure (hK : Lasts t K) (u : String) :
    serviceContract.Triple t (Secure t K) (hasQuota u)
      fun r => Secure t fun w => K w ∧ (r = true → u ∈ w.userConfigs) :=
  .bind (loadConfig_secure hK u) fun _ => .ret fun _ _ h => h

lemma panic_stuck {Q : α → Instant → Prop} :
    serviceContract.Triple t (fun m => stuck t m.history = true) (.act .panic nofun) Q :=
  .act (R := fun _ _ => True)
    (Contract.stable_of_step fun _ _ _ _ _ hu _ _ _ h => (stuck_other hu).trans h)
    (fun _ _ hm => ⟨⟨fun h => absurd rfl h,hm⟩,fun r => r.elim⟩) fun r => r.elim

lemma mustPeriodKey_secure {caller : Caller} {u : String} {now : ℤ} (hK : Lasts t K)
    (hu : caller = .checkPeriodReset ∨ ∀ w,K w → u ∈ w.userConfigs) :
    serviceContract.Triple t (Secure t K) (mustPeriodKey caller u now) fun _ => Secure t K := by
  refine .bind (R := fun r m => (∃ key,r = .ok key) ∧ Secure t K m ∨
    (∃ e,r = .error e) ∧ stuck t m.history = true) ?_ fun r => ?_
  · refine .bind (R := fun config m => config.isSome = true ∧ Secure t K m ∨
      config = none ∧ stuck t m.history = true) (.perform (stable_secure hK) fun m _ hm =>
        ⟨⟨fun _ => hm.1,fun hne => ?_⟩,fun r w he _ => ?_⟩) fun config => ?_
    · exact hu.elim (fun hc => absurd hc hne) fun hk => hk _ hm.2
    · have he' : exec t (.keyConfig caller u) m.state r w := he
      obtain ⟨-,rfl⟩ := exec_one he' rfl
      cases r with
      | none => exact .inr ⟨rfl,by simp [stuck_cons,stuckAfter]⟩
      | some config => exact .inl ⟨rfl,stuck_going (a := .keyConfig caller u) id,hm.2⟩
    · cases config with
      | none => exact .ret fun _ _ h => .inr ⟨⟨_,rfl⟩,(h.resolve_left (by simp)).2⟩
      | some config =>
        refine .ret fun _ _ h => .inl ⟨⟨_,periodKey_eq config now⟩,?_⟩
        exact (h.resolve_right (by simp)).2
  · cases r with
    | ok key => exact .ret fun _ _ h => (h.resolve_right (by simp)).2
    | error e => exact panic_stuck.weaken fun _ _ h => (h.resolve_left (by simp)).2

lemma tripExceeded_free (u : String) (g : ℕ) : (tripExceeded u g).Uses Act.Free := by
  refine tripExceeded_uses (fun a ha => ?_) trivial
  cases a <;> first | exact ha.elim | trivial

lemma settleExceeded_free (u : String) (g : ℕ) (usage quota : Int64) :
    (settleExceeded u g usage quota).Uses Act.Free := by
  unfold settleExceeded
  split_ifs
  · exact tripExceeded_free u g
  · exact Prog.uses_perform.mpr trivial

lemma currentPeriodKey_secure {u : String} (hK : Lasts t K) (hu : ∀ w,K w → u ∈ w.userConfigs) :
    serviceContract.Triple t (Secure t K) (currentPeriodKey u) fun _ => Secure t K := by
  refine .bind (free_perform hK trivial) fun g => .bind (free_perform hK trivial) fun key => ?_
  split_ifs
  · exact .ret fun _ _ h => h
  · refine .bind (free_perform hK trivial) fun now => ?_
    refine .bind (mustPeriodKey_secure hK (.inr hu)) fun key => ?_
    exact .bind (free_perform hK trivial) fun _ => .ret fun _ _ h => h

lemma loadUsage_secure {u : String} {bytes : Int64} (hK : Lasts t K) (hl : ∀ w,K w → Locked t w) :
    serviceContract.Triple t (Secure t K) (loadUsage u bytes) fun _ => Secure t K := by
  refine .bind (loadConfig_secure hK u) fun config => ?_
  have hK' := hK.configured hl (config.isSome = true) u
  cases config with
  | none => exact .ret fun _ _ h => ⟨h.1,h.2.1⟩
  | some config =>
    refine .bind (free_perform hK' trivial) fun g => .bind (free_perform hK' trivial) fun now => ?_
    refine .bind (mustPeriodKey_secure hK' (.inr fun w h => h.2 rfl)) fun key => ?_
    refine .bind (free_perform hK' trivial) fun _ => .bind (free_perform hK' trivial) fun _ => ?_
    exact (free_triple hK' (settleExceeded_free u g bytes _)).conseq (fun _ _ h => h)
      fun _ _ _ h => ⟨h.1,h.2.1⟩

end rules

section traffic

variable {t : ℕ} {K : World → Prop}

lemma locked_of_persist {w : World} (h : Owns t .persistAccess w) : Locked t w := .inr (.inr h)

lemma addBytes_free (u : String) (n : Int64) : (addBytes u n).Uses Act.Free := by
  refine addBytes_uses (fun a ha => ?_) u n
  cases a <;> first | exact ha.elim | trivial

lemma restorePendingDelta_free (pd : PendingDelta) : (restorePendingDelta pd).Uses Act.Free := by
  unfold restorePendingDelta
  split_ifs
  · trivial
  refine Prog.Uses.bind (hasQuota_uses trivial) fun quota => ?_
  cases quota with
  | false => trivial
  | true =>
    refine uses_perform_bind trivial fun g => uses_perform_bind trivial fun r => ?_
    cases r with
    | false => trivial
    | true => exact Prog.uses_perform.mpr trivial

/-- The holder of persistAccess has seen the configurations of these deltas. -/
def Backed (t : ℕ) (active : List PendingDelta) (w : World) : Prop :=
  Owns t .persistAccess w ∧ ∀ pd ∈ active, pd.user ∈ w.userConfigs

lemma lasts_backed (active : List PendingDelta) : Lasts t (Backed t active) :=
  fun _ _ hu h => ⟨hu.mutex h.1,fun pd hpd => hu.configs (locked_of_persist h.1) (h.2 pd hpd)⟩

lemma filterActive_secure (pending active : List PendingDelta) :
    serviceContract.Triple t (Secure t (Backed t active)) (filterActive pending active)
      fun r => Secure t (Backed t r) := by
  induction pending generalizing active with
  | nil => exact .ret fun _ _ h => h
  | cons pd pending ih =>
    refine .bind (hasQuota_secure (lasts_backed active) pd.user) fun quota => ?_
    cases quota with
    | false => exact (ih active).weaken fun _ _ h => ⟨h.1,h.2.1⟩
    | true =>
      refine (ih (active ++ [pd])).weaken fun _ _ h => ⟨h.1,h.2.1.1,fun x hx => ?_⟩
      obtain hx | hx := List.mem_append.mp hx
      · exact h.2.1.2 x hx
      · rw [List.mem_singleton.mp hx]
        exact h.2.2 rfl

lemma persistDeltas_secure (active : List PendingDelta) (groups : PeriodUsers)
    (errs : List FlushError) :
    serviceContract.Triple t (Secure t (Backed t active)) (persistDeltas active groups errs)
      fun _ => Secure t (Owns t .persistAccess) := by
  induction active generalizing groups errs with
  | nil => exact .ret fun _ _ h => ⟨h.1,h.2.1⟩
  | cons pd active ih =>
    refine .bind (R := fun _ => Secure t (Backed t active)) (secure_rule (lasts_backed _)
      (fun m hm => ⟨hm.1,hm.2 pd (List.mem_cons_self ..)⟩) (fun _ => id) fun w r w' he hw => ?_)
      fun r => ?_
    · replace he := exec_two he rfl
      have hr : ∀ x ∈ active,x.user ∈ w.userConfigs := fun x hx =>
        hw.2 x (List.mem_cons_of_mem _ hx)
      obtain ⟨-,rfl⟩ | ⟨-,rfl⟩ := he <;> exact ⟨hw.1,hr⟩
    · cases r with
      | true => exact ih _ _
      | false =>
        exact .bind (free_triple (lasts_backed active) (restorePendingDelta_free pd)) fun _ => ih _ _

lemma reloadUsers_secure (totals : List (String × Int64)) (users : List String) :
    serviceContract.Triple t (Secure t (Owns t .persistAccess)) (reloadUsers totals users)
      fun _ => Secure t (Owns t .persistAccess) := by
  induction users with
  | nil => exact .ret fun _ _ h => h
  | cons u users ih =>
    unfold reloadUsers
    split
    · exact ih
    · exact .bind (loadUsage_secure (lasts_owns _) fun _ => locked_of_persist) fun _ => ih

lemma reloadPeriods_secure (groups : PeriodUsers) (keys : List String) (errs : List FlushError) :
    serviceContract.Triple t (Secure t (Owns t .persistAccess)) (reloadPeriods groups keys errs)
      fun _ => Secure t (Owns t .persistAccess) := by
  induction keys generalizing errs with
  | nil => exact .ret fun _ _ h => h
  | cons key keys ih =>
    refine .bind (free_perform (lasts_owns _) trivial) fun totals => ?_
    cases totals with
    | none => exact ih _
    | some totals => exact .bind (reloadUsers_secure totals _) fun _ => ih _

lemma flushPending_secure : serviceContract.Triple t (Secure t fun _ => True) flushPending
    fun _ => Secure t fun _ => True := by
  refine .bind (lock_secure lasts_true .persistAccess) fun _ => ?_
  have hK : Lasts t fun w => True ∧ Owns t .persistAccess w := lasts_true.and (lasts_owns _)
  refine .bind (free_triple hK ?_) fun pending => ?_
  · exact uses_perform_bind trivial fun users =>
      consumeUsers_uses (fun _ => trivial) (fun _ _ => trivial) users []
  refine .bind ((filterActive_secure pending []).weaken fun _ _ h => ⟨h.1,h.2.2,nofun⟩)
    fun active => .bind (R := fun _ => Secure t (Owns t .persistAccess)) ?_ fun errs => ?_
  · unfold flushActive
    split_ifs
    · exact .ret fun _ _ h => ⟨h.1,h.2.1⟩
    · refine .bind (persistDeltas_secure active [] []) fun r => ?_
      refine .bind (free_perform (lasts_owns _) trivial) fun keys => ?_
      exact reloadPeriods_secure r.1 keys r.2
  · exact .bind (unlock_secure (lasts_owns _) (fun _ h => h) fun _ _ => trivial)
      fun _ => .ret fun _ _ h => h

lemma deleteRecords_free (resets errs : List PeriodReset) :
    (deleteRecords resets errs).Uses Act.Free := by
  induction resets generalizing errs with
  | nil => trivial
  | cons reset resets ih =>
    refine uses_perform_bind trivial fun r => ?_
    cases r <;> exact ih _

lemma checkUsers_secure (now : ℤ) (users : List String) (resets : List PeriodReset) :
    serviceContract.Triple t (Secure t fun _ => True) (checkUsers now users resets)
      fun _ => Secure t fun _ => True := by
  induction users generalizing resets with
  | nil => exact .ret fun _ _ h => h
  | cons u users ih =>
    refine .bind (free_perform lasts_true trivial) fun state => ?_
    cases state with
    | none => exact ih _
    | some g =>
      refine .bind (mustPeriodKey_secure lasts_true (.inl rfl)) fun key => ?_
      refine .bind (free_perform lasts_true trivial) fun previous => ?_
      cases previous <;> exact ih _

lemma periodResetRound_secure : serviceContract.Triple t (Secure t fun _ => True) periodResetRound
    fun _ => Secure t fun _ => True := by
  refine .bind (free_perform lasts_true trivial) fun now => .bind (R := fun _ => Secure t fun _ => True)
    (.bind (.bind (free_perform lasts_true trivial) fun users => checkUsers_secure now users [])
      fun resets => ?_) fun _ => .ret fun _ _ h => h
  split_ifs
  · exact .ret fun _ _ h => h
  · refine .bind (lock_secure lasts_true .persistAccess) fun _ => ?_
    have hK : Lasts t fun w => True ∧ Owns t .persistAccess w := lasts_true.and (lasts_owns _)
    refine .bind (free_triple hK (deleteRecords_free resets [])) fun errs => ?_
    exact .bind (unlock_secure hK (fun _ h => h.2) fun _ _ => trivial) fun _ => .ret fun _ _ h => h

lemma rLock_secure : serviceContract.Triple t (Secure t fun _ => True) (perform .rLock)
    fun _ => Secure t fun w => t ∈ w.readers := by
  refine secure_rule lasts_true (fun _ _ => trivial) (fun _ => id) fun w r w' he _ => ?_
  obtain ⟨-,he⟩ := exec_if he rfl
  exact he.2 ▸ Finset.mem_insert_self ..

lemma rUnlock_secure (hK : Lasts t K) : serviceContract.Triple t (Secure t K) (perform .rUnlock)
    fun _ => Secure t fun _ => True :=
  secure_rule hK (fun _ _ => trivial) (fun _ => id) fun _ _ _ _ _ => trivial

lemma registerConn_secure (u : String) (c : Conn) :
    serviceContract.Triple t (Secure t fun _ => True) (registerConn u c)
      fun _ => Secure t fun _ => True := by
  have hr : Lasts t fun w => t ∈ w.readers := fun _ _ hu h => hu.readers h
  refine .bind rLock_secure fun _ => .bind (loadConfig_secure hr u) fun config => ?_
  have hK := hr.configured (fun _ => .inl) (config.isSome = true) u
  cases config with
  | none => exact .bind (rUnlock_secure hK) fun _ => .ret fun _ _ h => h
  | some config =>
    refine .bind (free_perform hK trivial) fun g => .bind (free_perform hK trivial) fun now => ?_
    refine .bind (mustPeriodKey_secure hK (.inr fun w h => h.2 rfl)) fun key => ?_
    refine .bind (free_perform hK trivial) fun _ => .bind (free_perform hK trivial) fun l => ?_
    refine .bind (free_perform hK trivial) fun _ => .bind (free_perform hK trivial) fun exceeded => ?_
    cases exceeded with
    | false =>
      refine .bind (rUnlock_secure hK) fun _ => ?_
      exact .bind (free_perform lasts_true trivial) fun _ => .ret fun _ _ h => h
    | true =>
      refine .bind (rUnlock_secure hK) fun _ => .bind (free_perform lasts_true trivial) fun _ => ?_
      exact .bind (free_perform lasts_true trivial) fun _ => .ret fun _ _ h => h

end traffic

section configuration

variable {t : ℕ} {K : World → Prop}

lemma applyConfig_secure (text : TimeText) (user : TrafficQuotaUser) :
    serviceContract.Triple t (Secure t (Owns t .applyMu)) (applyConfig text user) fun r =>
      Secure t fun w => Owns t .applyMu w ∧ (r = .ok () → user.name ∈ w.userConfigs) := by
  unfold applyConfig
  split_ifs
  · exact .ret fun _ _ h => ⟨h.1,h.2,nofun⟩
  split
  · exact .ret fun _ _ h => ⟨h.1,h.2,nofun⟩
  · exact .ret fun _ _ h => ⟨h.1,h.2,nofun⟩
  next config _ =>
  refine .bind (R := fun _ => Secure t fun w => Owns t .applyMu w ∧ (True → user.name ∈ w.userConfigs))
    (secure_rule (lasts_owns _) (fun _ hm => .inl hm) (fun _ => id) fun w r w' he hw => ?_) fun _ => ?_
  · replace he := exec_one he rfl
    exact he.2 ▸ ⟨hw,fun _ => (AList.mem_insert _).mpr (.inl rfl)⟩
  have hK := (lasts_owns (t := t) .applyMu).configured (fun _ h => .inr (.inl h)) True user.name
  refine .bind (free_perform hK trivial) fun g => .bind (free_perform hK trivial) fun now => ?_
  refine .bind (mustPeriodKey_secure hK (.inr fun w h => h.2 trivial)) fun key => ?_
  refine .bind (free_perform hK trivial) fun _ => .bind (free_perform hK trivial) fun usage => ?_
  refine .bind (free_triple hK (settleExceeded_free _ g usage _)) fun _ => .ret fun _ _ h => ?_
  exact ⟨h.1,h.2.1,fun _ => h.2.2 trivial⟩

def Both (t : ℕ) (w : World) : Prop := Owns t .applyMu w ∧ Owns t .persistAccess w

lemma lasts_both : Lasts t (Both t) := (lasts_owns _).and (lasts_owns _)

lemma both_locked {w : World} (h : Both t w) : Locked t w := .inr (.inl h.1)

lemma unlock_both (hK : Lasts t K) (hb : ∀ w,K w → Both t w) :
    serviceContract.Triple t (Secure t K) (perform (.unlock .persistAccess))
      fun _ => Secure t (Owns t .applyMu) :=
  unlock_secure hK (fun w h => (hb w h).2) fun w h => by
    have := (hb w h).1
    simpa [Owns] using this

lemma loadStored_secure (u : String) :
    serviceContract.Triple t (Secure t fun w => Owns t .applyMu w ∧ (True → u ∈ w.userConfigs))
      (loadStored u) fun _ => Secure t (Owns t .applyMu) := by
  have hK := (lasts_owns (t := t) .applyMu).configured (fun _ h => .inr (.inl h)) True u
  have hK' := lasts_both.configured (t := t) (fun _ => both_locked) True u
  refine .bind (R := fun _ => Secure t fun w => Both t w ∧ (True → u ∈ w.userConfigs))
    ((lock_secure hK .persistAccess).conseq (fun _ _ h => h) fun _ _ _ h =>
      ⟨h.1,⟨h.2.1.1,h.2.2⟩,h.2.1.2⟩) fun _ => ?_
  refine .bind (currentPeriodKey_secure hK' fun w h => h.2 trivial) fun key => ?_
  refine .bind (free_perform hK' trivial) fun bytes => ?_
  cases bytes with
  | none => exact unlock_both hK' fun _ h => h.1
  | some bytes =>
    refine .bind (loadUsage_secure hK' fun _ h => both_locked h.1) fun _ => ?_
    exact unlock_both hK' fun _ h => h.1

lemma applyLocked_secure (text : TimeText) (user : TrafficQuotaUser) :
    serviceContract.Triple t (Secure t (Owns t .applyMu)) (applyLocked text user)
      fun _ => Secure t (Owns t .applyMu) := by
  refine .bind ((hasQuota_secure (lasts_owns _) user.name).conseq (fun _ _ h => h)
    fun _ _ _ h => ⟨h.1,h.2.1⟩) fun quota => .bind (applyConfig_secure text user) fun r => ?_
  cases r with
  | error e => exact .ret fun _ _ h => ⟨h.1,h.2.1⟩
  | ok _ =>
    dsimp only
    split_ifs
    · exact .ret fun _ _ h => ⟨h.1,h.2.1⟩
    · refine .bind ((loadStored_secure user.name).weaken fun _ _ h => ?_) fun _ => .ret fun _ _ h => h
      exact ⟨h.1,h.2.1,fun _ => h.2.2 rfl⟩

/-- A thread that is about to remove a user, once it has deleted the user's record. -/
def Removing (t : ℕ) (record : Option (String × String)) (w : World) : Prop :=
  Both t w ∧ ∀ x ∈ record, w.store x = none

lemma lasts_removing (record : Option (String × String)) : Lasts t (Removing t record) :=
  fun w w' hu h => ⟨lasts_both w w' hu h.1,fun x hx => hu.store h.1.2 (h.2 x hx)⟩

lemma removeConfig_secure (u : String) (record : Option (String × String)) :
    serviceContract.Triple t (Secure t (Removing t record)) (removeConfig u) fun r =>
      Secure t fun w => Removing t record w ∧ (r = .ok () → u ∉ w.userConfigs) := by
  unfold removeConfig
  split_ifs
  · exact .ret fun _ _ h => ⟨h.1,h.2,nofun⟩
  have hR := lasts_removing (t := t) record
  have hW : Lasts t fun w => Removing t record w ∧ w.writer = some t :=
    hR.and fun _ _ hu h => hu.writer h
  have hA : Lasts t fun w => Removing t record w ∧ u ∉ w.userConfigs :=
    fun w w' hu h => ⟨hR w w' hu h.1,hu.absent h.1.1.1 h.1.1.2 h.2⟩
  have hAW : Lasts t fun w => (Removing t record w ∧ u ∉ w.userConfigs) ∧ w.writer = some t :=
    hA.and fun _ _ hu h => hu.writer h
  refine .bind (R := fun _ => Secure t fun w => Removing t record w ∧ w.writer = some t)
    (secure_rule hR (fun _ _ => trivial) (fun _ => id) fun w r w' he hw => ?_) fun _ => ?_
  · obtain ⟨-,he⟩ := exec_if he rfl
    exact he.2 ▸ ⟨hw,rfl⟩
  refine .bind (R := fun _ => Secure t fun w =>
    (Removing t record w ∧ u ∉ w.userConfigs) ∧ w.writer = some t)
    (secure_rule hW (fun _ hm => ⟨hm.2,hm.1.1.1,hm.1.1.2⟩) (fun _ => id) fun w r w' he hw => ?_)
    fun _ => ?_
  · replace he := exec_one he rfl
    exact he.2 ▸ ⟨⟨hw.1,fun hme => (AList.mem_erase.mp hme).1 rfl⟩,hw.2⟩
  refine .bind (free_perform hAW trivial) fun list => .bind (free_perform hAW trivial) fun _ => ?_
  refine .bind (R := fun _ => Secure t fun w => Removing t record w ∧ u ∉ w.userConfigs)
    (secure_rule hAW (fun _ hm => hm.2) (fun _ => id) fun w r w' he hw => ?_) fun _ => ?_
  · replace he := exec_one he rfl
    exact he.2 ▸ hw.1
  cases list with
  | none => exact .ret fun _ _ h => ⟨h.1,h.2.1,fun _ => h.2.2⟩
  | some l =>
    refine .bind (free_triple hA ?_) fun _ => .ret fun _ _ h => ⟨h.1,h.2.1,fun _ => h.2.2⟩
    exact uses_perform_bind trivial fun conns => markAll_uses (fun _ => trivial) conns

lemma removeConfigLocked_secure (u : String) :
    serviceContract.Triple t (Secure t (Owns t .applyMu)) (removeConfigLocked u)
      fun _ => Secure t (Owns t .applyMu) := by
  refine .bind (lock_secure (lasts_owns _) .persistAccess) fun _ => ?_
  refine .bind (hasQuota_secure lasts_both u) fun quota => ?_
  have hK := lasts_both.configured (t := t) (fun _ => both_locked) (quota = true) u
  cases quota with
  | false =>
    refine .bind ((removeConfig_secure u none).weaken fun _ _ h => ⟨h.1,h.2.1,nofun⟩) fun r => ?_
    refine .bind (R := fun _ => Secure t (Owns t .applyMu)) ?_ fun _ => .ret fun _ _ h => h
    exact (unlock_both lasts_both fun _ h => h).weaken fun _ _ h => ⟨h.1,h.2.1.1⟩
  | true =>
    refine .bind (currentPeriodKey_secure hK fun w h => h.2 rfl) fun key => ?_
    refine .bind (R := fun r => Secure t (Removing t (if r then some (u,key) else none)))
      (free_rule trivial hK fun w r w' he hw => ⟨hw.1,fun x hx => ?_⟩) fun deleted => ?_
    · obtain ⟨rfl,rfl⟩ | ⟨rfl,rfl⟩ := exec_two he rfl
      · obtain rfl : (u,key) = x := by simpa using hx
        simp [World.setRecord]
      · cases hx
    cases deleted with
    | false =>
      exact .bind (unlock_both (lasts_removing _) fun _ h => h.1) fun _ => .ret fun _ _ h => h
    | true =>
      refine .bind (removeConfig_secure u (some (u,key))) fun r => ?_
      cases r with
      | error e =>
        refine .bind (R := fun _ => Secure t (Owns t .applyMu)) ?_ fun _ => .ret fun _ _ h => h
        exact (unlock_both lasts_both fun _ h => h).weaken fun _ _ h => ⟨h.1,h.2.1.1⟩
      | ok _ =>
        have hA : Lasts t fun w => Removing t (some (u,key)) w ∧ u ∉ w.userConfigs :=
          fun w w' hu h => ⟨lasts_removing _ w w' hu h.1,hu.absent h.1.1.1 h.1.1.2 h.2⟩
        refine .bind (R := fun _ => Secure t (Both t)) ((secure_rule
          (a := .returned (.removed u key)) hA (fun m hm => ⟨hm.2,hm.1.2 (u,key) rfl⟩)
          (fun _ => id) fun w r w' he hw => ?_).weaken
            fun _ _ h => ⟨h.1,h.2.1,h.2.2 rfl⟩) fun _ => ?_
        · replace he := exec_one he rfl
          exact he.2 ▸ hw.1.1
        exact .bind (unlock_both lasts_both fun _ h => h) fun _ => .ret fun _ _ h => h

lemma unlock_applyMu : serviceContract.Triple t (Secure t (Owns t .applyMu))
    (perform (.unlock .applyMu)) fun _ => Secure t fun _ => True :=
  unlock_secure (lasts_owns _) (fun _ h => h) fun _ _ => trivial

lemma applyMu_secure {α : Type} {p : Op α} (h : serviceContract.Triple t
    (Secure t (Owns t .applyMu)) p fun _ => Secure t (Owns t .applyMu)) :
    serviceContract.Triple t (Secure t fun _ => True) (do
      perform (.lock .applyMu)
      let r ← p
      perform (.unlock .applyMu)
      .ret r) fun _ => Secure t fun _ => True :=
  .bind (acquire_secure .applyMu) fun _ => .bind h fun _ => .bind unlock_applyMu fun _ => .ret fun _ _ h => h

lemma applyDynamic_secure (text : TimeText) (row : ConfigRow) :
    serviceContract.Triple t (Secure t fun _ => True) (applyDynamic text row)
      fun _ => Secure t fun _ => True := by
  refine .bind (acquire_secure .applyMu) fun _ => ?_
  split_ifs
  · split
    · exact .bind unlock_applyMu fun _ => .ret fun _ _ h => h
    · refine .bind (R := fun _ => Secure t (Owns t .applyMu))
        ((hasQuota_secure (lasts_owns _) row.user).conseq (fun _ _ h => h)
          fun _ _ _ h => ⟨h.1,h.2.1⟩) fun quota => ?_
      cases quota with
      | false => exact .bind unlock_applyMu fun _ => .ret fun _ _ h => h
      | true =>
        exact .bind (removeConfigLocked_secure row.user) fun _ =>
          .bind unlock_applyMu fun _ => .ret fun _ _ h => h
  · exact .bind (applyLocked_secure text _) fun _ =>
      .bind unlock_applyMu fun _ => .ret fun _ _ h => h

lemma snapshotState_free (text : TimeText) (u : String) : (snapshotState text u).Uses Act.Free := by
  refine uses_perform_bind trivial fun config => ?_
  cases config with
  | none => trivial
  | some config =>
    refine uses_perform_bind trivial fun state => ?_
    cases state with
    | none => exact uses_perform_bind trivial fun list => uses_perform_bind trivial fun _ => trivial
    | some g =>
      refine uses_perform_bind trivial fun usage => uses_perform_bind trivial fun pending => ?_
      refine uses_perform_bind trivial fun exceeded => uses_perform_bind trivial fun key => ?_
      exact uses_perform_bind trivial fun list => uses_perform_bind trivial fun _ => trivial

lemma restoreState_secure (text : TimeText) (state : RuntimeState) :
    serviceContract.Triple t (Secure t (Owns t .persistAccess)) (restoreState text state) fun r =>
      Secure t fun w => Owns t .persistAccess w ∧ (r = .ok () → state.user.name ∈ w.userConfigs) := by
  unfold restoreState
  split
  · exact .ret fun _ _ h => ⟨h.1,h.2,nofun⟩
  · exact .ret fun _ _ h => ⟨h.1,h.2,nofun⟩
  refine .bind (R := fun _ => Secure t fun w =>
    Owns t .persistAccess w ∧ (True → state.user.name ∈ w.userConfigs))
    (secure_rule (lasts_owns _) (fun _ hm => .inr hm) (fun _ => id) fun w r w' he hw => ?_) fun _ => ?_
  · replace he := exec_one he rfl
    exact he.2 ▸ ⟨hw,fun _ => (AList.mem_insert _).mpr (.inl rfl)⟩
  have hK := (lasts_owns (t := t) .persistAccess).configured (fun _ => locked_of_persist) True
    state.user.name
  refine .bind (free_perform hK trivial) fun g => .bind (free_perform hK trivial) fun _ => ?_
  refine .bind (free_perform hK trivial) fun _ => .bind (free_perform hK trivial) fun _ => ?_
  refine .bind (free_perform hK trivial) fun _ => ?_
  split <;>
  · exact .bind (free_perform hK trivial) fun _ =>
      .ret fun _ _ h => ⟨h.1,h.2.1,fun _ => h.2.2 trivial⟩

lemma clearPendingDelta_free (u : String) : (clearPendingDelta u).Uses Act.Free := by
  refine uses_perform_bind trivial fun state => ?_
  cases state with
  | none => trivial
  | some g => exact Prog.uses_perform.mpr trivial

lemma serviceRestoreState_secure (text : TimeText) (state : RuntimeState) :
    serviceContract.Triple t (Secure t fun _ => True) (serviceRestoreState text state)
      fun _ => Secure t fun _ => True := by
  have hu : ∀ {K : World → Prop},Lasts t K → (∀ w,K w → Owns t .persistAccess w) →
      serviceContract.Triple t (Secure t K) (perform (.unlock .persistAccess))
        fun _ => Secure t fun _ => True := fun hK hp => unlock_secure hK hp fun _ _ => trivial
  refine .bind (acquire_secure .persistAccess) fun _ => .bind (restoreState_secure text state)
    fun r => ?_
  have hK := (lasts_owns (t := t) .persistAccess).configured (fun _ => locked_of_persist)
    (r = .ok ()) state.user.name
  cases r with
  | error e => exact .bind (hu hK fun _ h => h.1) fun _ => .ret fun _ _ h => h
  | ok _ =>
    have hs : ∀ key,serviceContract.Triple t (Secure t (fun w =>
        Owns t .persistAccess w ∧ (True → state.user.name ∈ w.userConfigs)))
        (perform (.save state.user.name key state.usageBytes))
        fun _ => Secure t (Owns t .persistAccess) := fun key => by
      refine secure_rule ((lasts_owns _).configured (fun _ => locked_of_persist) True _)
        (fun _ hm => ⟨hm.1,hm.2 trivial⟩) (fun _ => id) fun w r w' he hw => ?_
      obtain ⟨-,rfl⟩ | ⟨-,rfl⟩ := exec_two he rfl <;> exact hw.1
    have hen : ∀ key (rest : Bool → Op (Except QuotaError Unit)),rest false = (do
          perform (.unlock .persistAccess)
          .ret (.error (.saveRecord state.user.name key))) →
        rest true = (do
          clearPendingDelta state.user.name
          perform (.unlock .persistAccess)
          .ret (.ok ())) →
        serviceContract.Triple t (Secure t (fun w =>
          Owns t .persistAccess w ∧ (True → state.user.name ∈ w.userConfigs)))
          (perform (.save state.user.name key state.usageBytes) >>= rest)
          fun _ => Secure t fun _ => True := by
      intro key rest hf ht
      refine .bind (hs key) fun saved => ?_
      cases saved with
      | false =>
        rw [hf]
        exact .bind (hu (lasts_owns _) fun _ h => h) fun _ => .ret fun _ _ h => h
      | true =>
        rw [ht]
        refine .bind (free_triple (lasts_owns _) (clearPendingDelta_free _)) fun _ => ?_
        exact .bind (hu (lasts_owns _) fun _ h => h) fun _ => .ret fun _ _ h => h
    dsimp only
    split_ifs
    · refine .bind (currentPeriodKey_secure hK fun w h => h.2 rfl) fun key => ?_
      exact (hen key _ rfl rfl).weaken fun _ _ h => ⟨h.1,h.2.1,fun _ => h.2.2 rfl⟩
    · exact (hen state.periodKey _ rfl rfl).weaken fun _ _ h => ⟨h.1,h.2.1,fun _ => h.2.2 rfl⟩

end configuration

/-- The operations of the service, each with the locks it holds. -/
inductive ServiceOp : Op Unit → Prop
  | registerConn (u : String) (c : Conn) : ServiceOp (void (registerConn u c))
  | onClose (u : String) (l : ℕ) (c : Conn) : ServiceOp (onClose u l c)
  | addBytes (u : String) (n : Int64) : ServiceOp (addBytes u n)
  | flushPending : ServiceOp (void flushPending)
  | periodResetRound : ServiceOp periodResetRound
  | applyConfig (text : TimeText) (user : TrafficQuotaUser) :
    ServiceOp (void (serviceApplyConfig text user))
  | removeConfig (u : String) : ServiceOp (void (serviceRemoveConfig u))
  | applyDynamic (text : TimeText) (row : ConfigRow) : ServiceOp (void (applyDynamic text row))
  | removeDynamic (u : String) : ServiceOp (void (removeDynamic u))
  | snapshotState (text : TimeText) (u : String) : ServiceOp (void (snapshotState text u))
  | restoreState (text : TimeText) (state : RuntimeState) :
    ServiceOp (void (serviceRestoreState text state))
  | tick (d : ℕ) : ServiceOp (perform (.tick d))

def serviceOps : Ops Act Act.Res World := fun _ _ p => ServiceOp p

lemma void_secure {t : ℕ} {α : Type} {p : Op α} (h : serviceContract.Triple t
    (Secure t fun _ => True) p fun _ => Secure t fun _ => True) :
    serviceContract.Triple t (Secure t fun _ => True) (void p) fun _ => Secure t fun _ => True :=
  .bind h fun _ => .ret fun _ _ h => h

theorem ServiceOp.secure {t : ℕ} {p : Op Unit} (hp : ServiceOp p) :
    serviceContract.Triple t (Secure t fun _ => True) p fun _ => Secure t fun _ => True := by
  cases hp with
  | registerConn u c => exact void_secure (registerConn_secure u c)
  | onClose u l c => exact free_perform (a := .removeConn u l c) lasts_true trivial
  | addBytes u n => exact free_triple lasts_true (addBytes_free u n)
  | flushPending => exact void_secure flushPending_secure
  | periodResetRound => exact periodResetRound_secure
  | applyConfig text user => exact void_secure (applyMu_secure (applyLocked_secure text user))
  | removeConfig u => exact void_secure (applyMu_secure (removeConfigLocked_secure u))
  | applyDynamic text row => exact void_secure (applyDynamic_secure text row)
  | removeDynamic u => exact void_secure (applyMu_secure (removeConfigLocked_secure u))
  | snapshotState text u => exact void_secure (free_triple lasts_true (snapshotState_free text u))
  | restoreState text state => exact void_secure (serviceRestoreState_secure text state)
  | tick d => exact free_perform (a := .tick d) lasts_true trivial

/-- What every interleaving of the service keeps. -/
theorem service_sound {w : World} (hw : w.writer = none) {c : Config Act Act.Res World}
    (run : Reach exec serviceOps (Config.idle w) c) : ServiceInv c.moment ∧
      ∀ t,serviceContract.Safe t (fun _ => Secure t fun _ => True) (c.pool t) c.moment :=
  Contract.sound_idle (C := serviceContract) (fun _ => stable_secure lasts_true)
    (fun _ m _ hp hi hm => ServiceOp.secure hp m hi hm) run
    ⟨fun hne => absurd hw hne,nofun,nofun,nofun⟩ fun _ => ⟨rfl,trivial⟩

end SingBoxAuth.TrafficQuota
