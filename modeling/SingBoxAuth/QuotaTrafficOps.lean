import SingBoxAuth.QuotaTrafficRules

/-! The operations of the traffic meet the contract, in every interleaving. -/
namespace SingBoxAuth.TrafficQuota
open Interleaving

section operations

variable {t : ℕ} {R : Instant → Prop}

/-- What LoadUsage knows once it has found the configuration and the state. -/
structure Found (t : ℕ) (u : String) (config : QuotaConfig) (g : ℕ) (m : Instant) : Prop where
  calm : Calm t m
  config : m.state.userConfigs.lookup u = some config
  state : m.state.states u = some g

variable {u : String} {config : QuotaConfig}

lemma stable_found {g : ℕ} : trafficContract.Stable t (Found t u config g) := fun m m' hr h =>
  ⟨stable_calm m m' hr h.calm,stable_config m m' hr h.config,stable_state m m' hr h.state⟩

variable {m : Instant}

lemma Found.silent {g : ℕ} {a : Act} {r : a.Res} {w : World} (h : Found t u config g m)
    (hs : a.Silent) (he : exec t a m.state r w) :
    Found t u config g (m.after t a r w) :=
  ⟨h.calm.silent hs he,(congrArg (AList.lookup u) (quietly_of_silent hs he).configs).trans h.config,
    (quietly_of_silent hs he).states u g h.state⟩

lemma clockRead_now {r : ℤ} {w : World} : clockRead t (m.after t .now r w).history = some r := by
  simp [clockRead,clockReadAfter]

lemma clockRead_keyConfig {caller : Caller} {r : Option QuotaConfig} {h : Past} :
    clockRead t (⟨t,.keyConfig caller u,r⟩ :: h) = clockRead t h := by
  simp [clockRead,clockReadAfter]

/-- A total has been produced and is to be compared with the quota. -/
structure Weighed (t : ℕ) (u : String) (config : QuotaConfig) (g : ℕ) (total : Int64)
    (m : Instant) : Prop extends Due t u g m where
  config : m.state.userConfigs.lookup u = some config
  due : tripDue t m.history = some (u,total)

variable {total : Int64}

lemma stable_weighed {g : ℕ} : trafficContract.Stable t (Weighed t u config g total) := by
  refine Contract.stable_of_step fun m u' a r w hu hi hp he h => ⟨?_,?_,?_⟩
  · exact stable_due m _ ⟨u',a,r,w,hu,hi,hp,he,rfl⟩ h.toDue
  · exact (congrArg (AList.lookup u) (grows_of_traffic hp.traffic he).configs).trans h.config
  · exact (tripDue_other (e := ⟨u',a,r⟩) hu).trans h.due

lemma Weighed.calm {g : ℕ} (h : Weighed t u config g total m) (hq : ¬ config.quotaBytes < total) :
    Calm t m := by
  refine ⟨h.unowed,fun v total' c hd hl => ?_⟩
  rw [h.due,Option.some.injEq,Prod.mk.injEq] at hd
  obtain ⟨rfl,rfl⟩ := hd
  rw [h.config,Option.some.injEq] at hl
  exact hl ▸ hq

lemma weighed_of_due {g : ℕ} (ho : owed t m.history = none) (hg : m.state.states u = some g)
    (hc : m.state.userConfigs.lookup u = some config) (hd : tripDue t m.history = some (u,total)) :
    Weighed t u config g total m := by
  refine ⟨⟨ho,hg,fun v total' c ht _ _ => ?_⟩,hc,hd⟩
  rw [hd,Option.some.injEq,Prod.mk.injEq] at ht
  exact ht.1.symm

lemma storeUsage_triple {bytes : Int64} {g : ℕ} (hR : Carried t R)
    (hc : ∀ m,R m → Carries t [] [] m ∧ Loaded t u bytes m) :
    trafficContract.Triple t (fun m => R m ∧ Found t u config g m) (do
        perform (.storeUsage u g bytes)
        settleExceeded u g bytes config.quotaBytes) fun _ m => R m ∧ Calm t m := by
  refine Contract.Triple.bind (R := fun _ m => R m ∧ Weighed t u config g bytes m)
    (Contract.Triple.perform (hR.stable.and stable_found) fun m hi hm =>
      ⟨⟨hm.2.calm.obliged _,trivial,?_⟩,fun r w he _ => ?_⟩) fun _ => ?_
  · obtain ⟨hca,hl⟩ := hc m hm.1
    exact ⟨hca.holds,hm.2.state,hca.load,hl⟩
  · have hg : Grows m.state w := grows_of_traffic (by trivial) he
    refine ⟨hR.own trivial he hm.1,weighed_of_due ?_ (hg.states u g hm.2.state) ?_ ?_⟩
    · exact (owed_keep (by simp [owedAfter]) t _).trans hm.2.calm.unowed
    · exact (congrArg (AList.lookup u) hg.configs).trans hm.2.config
    · simp [tripDue,tripDueAfter]
  · unfold settleExceeded
    split_ifs with hq
    · exact (tripExceeded_triple hR).weaken fun m _ hm => ⟨hm.1,hm.2.toDue⟩
    · refine Contract.Triple.perform (hR.stable.and stable_weighed) fun m hi hm =>
        ⟨⟨(hm.2.calm hq).obliged _,trivial,?_⟩,fun r w he _ => ⟨hR.own trivial he hm.1,?_,?_⟩⟩
      · obtain ⟨hca,hl⟩ := hc m hm.1
        exact ⟨hca.holds,hm.2.state,hca.load,rfl,config,bytes,hm.2.config,hl,hq⟩
      · exact (owed_keep (by simp [owedAfter]) t _).trans hm.2.unowed
      · intro v total c ht
        simp [tripDue,tripDueAfter] at ht

lemma loadUsage_triple {bytes : Int64} (hR : Carried t R)
    (hc : ∀ m,R m → Carries t [] [] m ∧ Loaded t u bytes m) :
    trafficContract.Triple t (fun m => R m ∧ Calm t m) (loadUsage u bytes)
      fun _ m => R m ∧ Calm t m := by
  refine Contract.Triple.bind (R := fun config m => (R m ∧ Calm t m) ∧
    m.state.userConfigs.lookup u = config) (silent_rule trivial (hR.stable.and stable_calm)
    (fun _ h => h.2) (fun _ _ _ => trivial) fun m r w _ hm he => ?_) fun config => ?_
  · exact ⟨⟨hR.own trivial he hm.1,hm.2.silent trivial he⟩,loadConfig_exec he⟩
  cases config with
  | none => exact Contract.Triple.ret fun _ _ h => h.1
  | some config =>
    refine Contract.Triple.bind (R := fun g m => R m ∧ Found t u config g m)
      (silent_rule trivial ((hR.stable.and stable_calm).and stable_config) (fun _ h => h.1.2)
        (fun _ _ _ => trivial) fun m g w _ hm he => ?_) fun g => ?_
    · refine ⟨hR.own trivial he hm.1.1,hm.1.2.silent trivial he,?_,stateFor_exec he⟩
      exact (congrArg (AList.lookup u) (quietly_of_silent (a := .stateFor u) trivial he).configs).trans
        hm.2
    refine Contract.Triple.bind (R := fun now m => (R m ∧ Found t u config g m) ∧
      clockRead t m.history = some now) (silent_rule trivial (hR.stable.and stable_found)
      (fun _ h => h.2.calm) (fun _ _ _ => trivial) fun m now w _ hm he => ?_) fun now => ?_
    · exact ⟨⟨hR.own trivial he hm.1,hm.2.silent trivial he⟩,clockRead_now⟩
    have hst : trafficContract.Stable t fun m => (R m ∧ Found t u config g m) ∧
        clockRead t m.history = some now := (hR.stable.and stable_found).and stable_clockRead
    refine Contract.Triple.bind (mustPeriodKey_triple hst (fun _ h => h.1.2.calm) fun he hm =>
      ⟨⟨hR.own trivial he hm.1.1,hm.1.2.silent trivial he⟩,
        clockRead_keyConfig.trans hm.2⟩) fun key => ?_
    refine Contract.Triple.bind (R := fun _ m => R m ∧ Found t u config g m)
      (silent_rule trivial ?_ (fun _ h => h.1.1.2.calm) (fun m _ hm => ?_)
        fun m _ w _ hm he => ?_) fun _ => storeUsage_triple hR hc
    · exact hst.and fun m m' hr ⟨c,hl,hk⟩ => ⟨c,stable_config m m' hr hl,hk⟩
    · obtain ⟨⟨hf,hre⟩,c,hl,hk⟩ := hm
      exact ⟨hf.2.state,c,now,hl,hre,hk⟩
    · exact ⟨hR.own trivial he hm.1.1.1,hm.1.1.2.silent trivial he⟩

/-- AddBytes has counted the bytes and still has to queue the user. -/
structure Counted (t : ℕ) (u : String) (config : QuotaConfig) (g : ℕ) (total : Int64)
    (m : Instant) : Prop where
  debt : owed t m.history = some u
  state : m.state.states u = some g
  config : m.state.userConfigs.lookup u = some config
  due : tripDue t m.history = some (u,total)

lemma stable_counted {g : ℕ} : trafficContract.Stable t (Counted t u config g total) := by
  refine Contract.stable_of_step fun m u' a r w hu _ hp he h => ⟨?_,?_,?_,?_⟩
  · exact (owed_other (e := ⟨u',a,r⟩) hu).trans h.debt
  · exact (grows_of_traffic hp.traffic he).states u g h.state
  · exact (congrArg (AList.lookup u) (grows_of_traffic hp.traffic he).configs).trans h.config
  · exact (tripDue_other (e := ⟨u',a,r⟩) hu).trans h.due

lemma addSection_triple {g : ℕ} {n : Int64} :
    trafficContract.Triple t (Found t u config g) (perform (.addBytes u g n)) fun r m =>
      match r with
      | none => Calm t m
      | some (_,total) => Counted t u config g total m := by
  refine Contract.Triple.perform stable_found fun m hi hm =>
    ⟨⟨hm.calm.obliged _,trivial,hm.state,?_⟩,fun r w he _ => ?_⟩
  · exact ⟨by simp [hm.state],by simp [hm.config]⟩
  have hg : Grows m.state w := grows_of_traffic (by trivial) he
  cases r with
  | none => exact hm.calm.keep hg (owed_keep (by simp [owedAfter]) t _) (by simp [tripDue,tripDueAfter])
  | some p =>
    refine ⟨by simp [owed_cons,owedAfter],hg.states u g hm.state,?_,?_⟩
    · exact (congrArg (AList.lookup u) hg.configs).trans hm.config
    · simp [tripDue,tripDueAfter]

lemma addBytes_triple (u : String) (n : Int64) :
    trafficContract.Triple t (Calm t) (addBytes u n) fun _ => Calm t := by
  unfold addBytes
  split_ifs
  · exact Contract.Triple.ret fun _ _ h => h
  refine Contract.Triple.bind (R := fun config m => Calm t m ∧
    m.state.userConfigs.lookup u = config) (silent_rule trivial stable_calm (fun _ h => h)
    (fun _ _ _ => trivial) fun m r w _ hm he => ⟨hm.silent trivial he,loadConfig_exec he⟩)
    fun config => ?_
  cases config with
  | none => exact Contract.Triple.ret fun _ _ h => h.1
  | some config =>
    refine Contract.Triple.bind (R := fun g m => Found t u config g m)
      (silent_rule trivial (stable_calm.and stable_config) (fun _ h => h.1)
        (fun _ _ _ => trivial) fun m g w _ hm he => ?_) fun g => ?_
    · refine ⟨hm.1.silent trivial he,?_,stateFor_exec he⟩
      exact (congrArg (AList.lookup u)
        (quietly_of_silent (a := .stateFor u) trivial he).configs).trans hm.2
    refine Contract.Triple.bind addSection_triple fun r => ?_
    cases r with
    | none => exact Contract.Triple.ret fun _ _ h => h
    | some p =>
      obtain ⟨key,total⟩ := p
      refine Contract.Triple.bind (R := fun _ m => Weighed t u config g total m)
        (Contract.Triple.perform stable_counted fun m hi hm => ⟨⟨⟨?_,?_⟩,trivial,hm.debt⟩,
          fun r w he _ => ?_⟩) fun _ => ?_
      · intro v hv
        rw [hm.debt,Option.some.injEq] at hv
        rw [hv]
      · intro v total' c hd _ _
        rw [hm.due,Option.some.injEq,Prod.mk.injEq] at hd
        exact .inl (by rw [hd.1])
      · have hg : Grows m.state w := grows_of_traffic (by trivial) he
        refine weighed_of_due (by simp [owed_cons,owedAfter]) (hg.states u g hm.state) ?_ ?_
        · exact (congrArg (AList.lookup u) hg.configs).trans hm.config
        · simpa [tripDue,tripDueAfter] using hm.due
      · split_ifs with hq
        · exact (tripExceeded_triple carried_true).conseq (fun m _ hm => ⟨trivial,hm.toDue⟩)
            fun _ m _ hm => hm.2
        · exact Contract.Triple.ret fun m _ hm => hm.calm hq

lemma consumeUsers_triple (users : List String) (pending : List PendingDelta) :
    trafficContract.Triple t (fun m => Calm t m ∧ Carries t pending users m)
      (consumeUsers users pending) fun pds m => Calm t m ∧ Carries t pds [] m := by
  induction users generalizing pending with
  | nil => exact Contract.Triple.ret fun _ _ h => h
  | cons u users ih =>
    refine Contract.Triple.bind (R := fun r m => r.elim (Calm t m ∧ Carries t pending users m)
      fun g => (Calm t m ∧ Carries t pending (u :: users) m) ∧ m.state.states u = some g)
      (silent_rule trivial (stable_calm.and stable_carries) (fun _ h => h.1)
        (fun _ _ _ => trivial) fun m r w hi hm he => ?_) fun r => ?_
    · have hc := hm.1.silent (a := .loadState u) trivial he
      have hca := hm.2.shielded (shielded_of_mild (a := .loadState u) hm.2.holds trivial he)
      obtain ⟨rfl,rfl⟩ := exec_one he rfl
      cases hs : m.state.states u with
      | none =>
        -- A drained user always has a state, so this user is not a drained one.
        refine ⟨hs ▸ hc,⟨hca.holds,hca.load,fun v hv => ?_⟩⟩
        obtain rfl | hv' := List.mem_cons.mp (hm.2.visits v hv)
        · have := (hi.known v (.inl (.inr (.inl hv)))).1
          simp [hs] at this
        · exact hv'
      | some g => exact ⟨⟨hs ▸ hc,hs ▸ hca⟩,hs⟩
    · cases r with
      | none => exact ih pending
      | some g =>
        refine Contract.Triple.bind (R := fun r m => Calm t m ∧
          Carries t (if r.2 = 0 then pending else pending ++ [⟨u,r.1,r.2⟩]) users m)
          (Contract.Triple.perform ((stable_calm.and stable_carries).and stable_state)
            fun m hi hm => ⟨⟨hm.1.1.obliged _,trivial,hm.1.2.holds,hm.2⟩,
              fun r w he _ => ⟨?_,?_⟩⟩) fun r => ?_
        · exact hm.1.1.keep (grows_of_traffic (by trivial) he)
            (owed_keep (by simp [owedAfter]) t _) (by simp [tripDue,tripDueAfter])
        · obtain ⟨hl,hh,hd⟩ := hm.1.2
          have hw : w.mutex = m.state.mutex := by
            have he' : exec t (.consume u g) m.state r w := he
            replace he' := exec_one he' rfl
            exact he'.2 ▸ rfl
          refine ⟨(congrFun hw _).trans hl,fun v => ?_,fun v hv => ?_⟩
          · simp only [Moment.after_history,held_cons,heldAfter,hh]
            by_cases hz : r.2 = 0
            · simp [hz]
            · by_cases huv : u = v <;> simp [hz,huv]
          · simp only [Moment.after_history,drained_cons,drainedAfter,List.mem_filter,
              decide_eq_true_eq] at hv
            exact (List.mem_cons.mp (hd v hv.1)).resolve_left hv.2
        · obtain ⟨key,delta⟩ := r
          dsimp only
          split_ifs
          · exact ih pending
          · exact ih _

lemma Carries.known {pds : List PendingDelta} {users : List String} {pd : PendingDelta}
    (hc : Carries t pds users m) (hi : TrafficInv m) (hpd : pd ∈ pds) :
    pd ∈ held pd.user m.history ∧ pd.delta ≠ 0 ∧ Known m.state pd.user := by
  have hme : pd ∈ held pd.user m.history := by simpa [hc.load] using hpd
  exact ⟨hme,(hi.flying _ pd hme).2,hi.known _ (.inr (List.ne_nil_of_mem hme))⟩

lemma hasQuota_triple {P : Instant → Prop} (hst : trafficContract.Stable t P)
    (hca : ∀ m,P m → Calm t m) (ho : ∀ {m r w},exec t (.loadConfig u) m.state r w → P m →
      P (m.after t (.loadConfig u) r w)) :
    trafficContract.Triple t P (hasQuota u) fun quota m =>
      P m ∧ (m.state.userConfigs.lookup u).isSome = quota := by
  refine Contract.Triple.bind (R := fun r m => P m ∧ m.state.userConfigs.lookup u = r)
    (silent_rule trivial hst hca (fun _ _ _ => trivial) fun m r w _ hm he =>
      ⟨ho he hm,loadConfig_exec he⟩) fun r => Contract.Triple.ret fun m _ hm => ⟨hm.1,?_⟩
  rw [hm.2]

lemma filterActive_triple (pending active : List PendingDelta) :
    trafficContract.Triple t (fun m => Calm t m ∧ Carries t (active ++ pending) [] m)
      (filterActive pending active) fun pds m => Calm t m ∧ Carries t pds [] m := by
  induction pending generalizing active with
  | nil => exact Contract.Triple.ret fun _ _ h => by simpa using h
  | cons pd pending ih =>
    refine Contract.Triple.bind (hasQuota_triple (stable_calm.and stable_carries) (fun _ h => h.1)
      fun he hm => ⟨hm.1.silent trivial he,
        hm.2.shielded (shielded_of_mild hm.2.holds trivial he)⟩) fun quota => ?_
    cases quota with
    | false =>
      intro m hi hm
      have hk := hm.1.2.known hi (List.mem_append_right active (List.mem_cons_self ..))
      exact absurd hk.2.2.2 (by simp [hm.2])
    | true =>
      refine (ih (active ++ [pd])).weaken fun m _ hm => ?_
      simpa using hm.1

lemma filter_erase_head (pd : PendingDelta) (pds : List PendingDelta) (u : String) :
    (if pd.user = u then ((pd :: pds).filter (·.user = u)).erase pd
      else (pd :: pds).filter (·.user = u)) = pds.filter (·.user = u) := by
  split_ifs with h <;> simp [h]

/-- RestorePendingDelta has put the delta back and still has to queue the user. -/
structure Restored (t : ℕ) (u : String) (m : Instant) : Prop where
  debt : owed t m.history = some u
  settled : ∀ v total config, tripDue t m.history = some (v,total) →
    m.state.userConfigs.lookup v = some config → ¬ config.quotaBytes < total

lemma stable_restored : trafficContract.Stable t (Restored t u) := by
  refine Contract.stable_of_step fun m u' a r w hu _ hp he h => ⟨?_,?_⟩
  · exact (owed_other (e := ⟨u',a,r⟩) hu).trans h.debt
  · intro v total config hd hl
    rw [Moment.after_history,tripDue_other (e := ⟨u',a,r⟩) hu] at hd
    rw [Moment.after_state,(grows_of_traffic hp.traffic he).configs] at hl
    exact h.settled v total config hd hl

lemma markRestored_triple {pds : List PendingDelta} :
    trafficContract.Triple t (fun m => Restored t u m ∧ Carries t pds [] m) (perform (.markDirty u))
      fun _ m => Calm t m ∧ Carries t pds [] m := by
  refine Contract.Triple.perform (stable_restored.and stable_carries) fun m hi hm =>
    ⟨⟨⟨fun v hv => ?_,fun v total c hd hl hq => ?_⟩,trivial,hm.1.debt⟩,
      fun r w he _ => ⟨⟨?_,fun v total c hd hl => ?_⟩,?_⟩⟩
  · rw [hm.1.debt,Option.some.injEq] at hv
    rw [hv]
  · exact absurd hq (hm.1.settled v total c hd hl)
  · simp [owed_cons,owedAfter]
  · have hg : Grows m.state w := grows_of_traffic (by trivial) he
    rw [Moment.after_state,hg.configs] at hl
    exact hm.1.settled v total c (by simpa [tripDue,tripDueAfter] using hd) hl
  · exact hm.2.shielded (shielded_of_mild hm.2.holds (by trivial) he)

lemma restorePendingDelta_triple (pd : PendingDelta) (pds : List PendingDelta) :
    trafficContract.Triple t (fun m => Calm t m ∧ Carries t (pd :: pds) [] m)
      (restorePendingDelta pd) fun _ m => Calm t m ∧ Carries t pds [] m := by
  have hst : trafficContract.Stable t fun m => Calm t m ∧ Carries t (pd :: pds) [] m :=
    stable_calm.and stable_carries
  unfold restorePendingDelta
  split_ifs with hz
  · intro m hi hm
    exact absurd hz (hm.2.known hi (List.mem_cons_self ..)).2.1
  refine Contract.Triple.bind (hasQuota_triple hst (fun _ h => h.1) fun he hm =>
    ⟨hm.1.silent trivial he,hm.2.shielded (shielded_of_mild hm.2.holds trivial he)⟩) fun quota => ?_
  cases quota with
  | false =>
    intro m hi hm
    exact absurd (hm.1.2.known hi (List.mem_cons_self ..)).2.2.2 (by simp [hm.2])
  | true =>
    refine Contract.Triple.bind (R := fun g m => (Calm t m ∧ Carries t (pd :: pds) [] m) ∧
      m.state.states pd.user = some g) ((silent_rule (a := .stateFor pd.user) trivial hst (fun _ h => h.1)
      (fun _ _ _ => trivial) fun m g w _ hm he => ?_).weaken fun _ _ h => h.1) fun g => ?_
    · exact ⟨⟨hm.1.silent trivial he,hm.2.shielded (shielded_of_mild hm.2.holds trivial he)⟩,
        stateFor_exec he⟩
    refine Contract.Triple.bind (R := fun r m => (if r then Restored t pd.user m else Calm t m) ∧
      Carries t pds [] m) (Contract.Triple.perform (hst.and stable_state) fun m hi hm =>
        ⟨⟨hm.1.1.obliged _,trivial,hm.1.2.holds,hm.2,
          (hm.1.2.known hi (List.mem_cons_self ..)).1⟩,fun r w he _ => ⟨?_,?_⟩⟩) fun r => ?_
    · have hg : Grows m.state w := grows_of_traffic (by trivial) he
      cases r with
      | true =>
        refine ⟨by simp [owed_cons,owedAfter],fun v total c hd hl => ?_⟩
        rw [Moment.after_state,hg.configs] at hl
        exact hm.1.1.settled v total c (by simpa [tripDue,tripDueAfter] using hd) hl
      | false =>
        exact hm.1.1.keep hg (owed_keep (by simp [owedAfter]) t _) (by simp [tripDue,tripDueAfter])
    · have hw : w.mutex = m.state.mutex := by
        have he' : exec t (.restore pd.user g pd.periodKey pd.delta) m.state r w := he
        replace he' := exec_one he' rfl
        exact he'.2 ▸ rfl
      refine ⟨(congrFun hw _).trans hm.1.2.holds,fun v => ?_,hm.1.2.visits⟩
      simp only [Moment.after_history,held_cons,heldAfter,hm.1.2.load]
      exact filter_erase_head pd pds v
    · cases r with
      | false => exact Contract.Triple.ret fun m _ hm => ⟨by simpa using hm.1,hm.2⟩
      | true => exact markRestored_triple.weaken fun m _ hm => ⟨by simpa using hm.1,hm.2⟩

/-- The users that a flush reloads are users whose delta it has persisted. -/
def Grouped (t : ℕ) (groups : PeriodUsers) (m : Instant) : Prop :=
  ∀ key, ∀ u ∈ groups.users key, ∃ delta, ⟨t,.incrBy u key delta,true⟩ ∈ m.history

variable {groups : PeriodUsers}

lemma Grouped.after (h : Grouped t groups m) (u : ℕ) (a : Act) (r : a.Res) (w : World) :
    Grouped t groups (m.after u a r w) := fun key v hv => by
  obtain ⟨delta,hd⟩ := h key v hv
  exact ⟨delta,List.mem_cons_of_mem _ hd⟩

lemma stable_grouped : trafficContract.Stable t (Grouped t groups) :=
  Contract.stable_of_step fun _ u a r w _ _ _ _ h => h.after u a r w

lemma mem_users_add (groups : PeriodUsers) (key k u v : String) :
    v ∈ (groups.add key u).users k ↔ v ∈ groups.users k ∨ k = key ∧ v = u := by
  simp only [PeriodUsers.users]
  induction groups with
  | nil =>
    by_cases hk : k = key
    · simp [PeriodUsers.add,hk]
    · simp [PeriodUsers.add,List.lookup_cons,beq_false_of_ne hk,hk]
  | cons g rest ih =>
    obtain ⟨k',us⟩ := g
    simp only [PeriodUsers.add]
    split_ifs with h
    · subst h
      by_cases hk : k = k'
      · simp [hk]
      · simp [List.lookup_cons,beq_false_of_ne hk,hk]
    · by_cases hk : k = k'
      · subst hk
        simp [h]
      · simpa [List.lookup_cons,beq_false_of_ne hk] using ih

lemma persistDeltas_triple (active : List PendingDelta) (groups : PeriodUsers)
    (errs : List FlushError) :
    trafficContract.Triple t (fun m => (Calm t m ∧ Carries t active [] m) ∧ Grouped t groups m)
      (persistDeltas active groups errs) fun r m =>
        (Calm t m ∧ Carries t [] [] m) ∧ Grouped t r.1 m := by
  induction active generalizing groups errs with
  | nil => exact Contract.Triple.ret fun _ _ h => h
  | cons pd active ih =>
    refine Contract.Triple.bind (R := fun r m => if r then
        (Calm t m ∧ Carries t active [] m) ∧ Grouped t (groups.add pd.periodKey pd.user) m
      else (Calm t m ∧ Carries t (pd :: active) [] m) ∧ Grouped t groups m)
      (Contract.Triple.perform ((stable_calm.and stable_carries).and stable_grouped) fun m hi hm =>
        ⟨⟨hm.1.1.obliged _,trivial,hm.1.2.holds,
          (hm.1.2.known hi (List.mem_cons_self ..)).1⟩,fun r w he _ => ?_⟩) fun r => ?_
    · have hw : w.mutex = m.state.mutex := by
        have he' : exec t (.incrBy pd.user pd.periodKey pd.delta) m.state r w := he
        simp only [exec_iff,outcomes,List.mem_cons,List.not_mem_nil,or_false,Prod.mk.injEq] at he'
        obtain ⟨-,rfl⟩ | ⟨-,rfl⟩ := he' <;> rfl
      have hca := hm.1.1.keep (r := r) (grows_of_traffic (by trivial) he)
        (owed_keep (by simp [owedAfter]) t _) (by simp [tripDue,tripDueAfter])
      have hl := (congrFun hw .persistAccess).trans hm.1.2.holds
      cases r with
      | false => exact ⟨⟨hca,hl,hm.1.2.load,hm.1.2.visits⟩,hm.2.after _ _ _ _⟩
      | true =>
        refine ⟨⟨hca,hl,fun v => ?_,hm.1.2.visits⟩,fun key v hv => ?_⟩
        · simp only [Moment.after_history,held_cons,heldAfter,hm.1.2.load]
          exact filter_erase_head pd active v
        · obtain h | ⟨rfl,rfl⟩ := (mem_users_add _ _ _ _ _).mp hv
          · exact hm.2.after _ _ _ _ key v h
          · exact ⟨pd.delta,List.mem_cons_self ..⟩
    · cases r with
      | true => exact (ih _ _).weaken fun m _ hm => by simpa using hm
      | false =>
        refine Contract.Triple.bind (R := fun _ m => (Calm t m ∧ Carries t active [] m) ∧
          Grouped t groups m) (((restorePendingDelta_triple pd active).frame
            (Prog.uses_true _) stable_grouped fun _ _ h => h.after _ _ _ _).weaken
              fun m _ hm => by simpa using hm) fun _ => ih _ _

/-- What a flush keeps while it reloads the totals of one period. -/
structure Reload (t : ℕ) (groups : PeriodUsers) (totals : List (String × Int64))
    (users : List String) (m : Instant) : Prop where
  carries : Carries t [] [] m
  grouped : Grouped t groups m
  loaded : ∀ u ∈ users, ∀ total, totals.lookup u = some total → Loaded t u total m

lemma Loaded.shielded {m' : Instant} (h : Loaded t u total m) (hs : Shielded t m m')
    (ho : origin t m'.history = origin t m.history) (hm : m.history ⊆ m'.history) :
    Loaded t u total m' := by
  obtain ⟨key,delta,hk,hme,hv⟩ := h
  exact ⟨key,delta,ho.trans hk,hm hme,(congrFun hs.store _).trans hv⟩

lemma carried_reload {totals : List (String × Int64)} {users : List String} :
    Carried t (Reload t groups totals users) := by
  constructor
  · refine Contract.stable_of_step fun m u a r w hu _ hp he h => ?_
    have hs := shielded_of_other h.carries.holds hu hp he
    exact ⟨h.carries.shielded hs,h.grouped.after _ _ _ _,fun v hv total ht =>
      (h.loaded v hv total ht).shielded hs (origin_other (e := ⟨u,a,r⟩) hu)
        (List.subset_cons_self _ _)⟩
  · intro a m r w ha he h
    have hmi : a.Mild := by cases a <;> first | exact ha.elim | trivial
    have hs := shielded_of_mild h.carries.holds hmi he
    refine ⟨h.carries.shielded hs,h.grouped.after _ _ _ _,fun v hv total ht =>
      (h.loaded v hv total ht).shielded hs ?_ (List.subset_cons_self _ _)⟩
    cases a <;> first | exact ha.elim | simp [origin,originAfter]

lemma reloadUsers_triple {totals : List (String × Int64)} {all : List String}
    (users : List String) (hs : users ⊆ all) :
    trafficContract.Triple t (fun m => Reload t groups totals all m ∧ Calm t m)
      (reloadUsers totals users) fun _ m => Reload t groups totals all m ∧ Calm t m := by
  induction users with
  | nil => exact Contract.Triple.ret fun _ _ h => h
  | cons u users ih =>
    have ih := ih fun v hv => hs (List.mem_cons_of_mem u hv)
    unfold reloadUsers
    split
    · exact ih
    · next value hv =>
      refine Contract.Triple.bind (loadUsage_triple carried_reload fun m hm => ?_) fun _ => ih
      exact ⟨hm.carries,hm.loaded u (hs (List.mem_cons_self ..)) value hv⟩

lemma lookup_totals {store : String × String → Option Int64} {key : String} {users : List String}
    (h : (users.filterMap fun user => (store (user,key)).map (user,·)).lookup u = some total) :
    store (u,key) = some total := by
  obtain ⟨l₁,l₂,hl,-⟩ := List.lookup_eq_some_iff.mp h
  obtain ⟨v,-,hv⟩ := List.mem_filterMap.mp (hl ▸ List.mem_append_right l₁ (List.mem_cons_self ..))
  obtain ⟨b,hb,he⟩ := Option.map_eq_some_iff.mp hv
  rw [Prod.mk.injEq] at he
  obtain ⟨rfl,rfl⟩ := he
  exact hb

lemma reloadPeriods_triple (keys : List String) (errs : List FlushError) :
    trafficContract.Triple t (fun m => (Calm t m ∧ Carries t [] [] m) ∧ Grouped t groups m)
      (reloadPeriods groups keys errs) fun _ m => Calm t m ∧ Carries t [] [] m := by
  induction keys generalizing errs with
  | nil => exact Contract.Triple.ret fun _ _ h => h.1
  | cons key keys ih =>
    refine Contract.Triple.bind (R := fun r m => r.elim
      ((Calm t m ∧ Carries t [] [] m) ∧ Grouped t groups m)
      fun totals => Reload t groups totals (groups.users key) m ∧ Calm t m)
      (silent_rule trivial ((stable_calm.and stable_carries).and stable_grouped) (fun _ h => h.1.1)
        (fun m _ hm => ⟨hm.1.2.holds,hm.1.2.load⟩) fun m r w hi hm he => ?_) fun r => ?_
    · have hc := hm.1.1.silent (a := .loadMany key (groups.users key)) trivial he
      have hca := hm.1.2.shielded
        (shielded_of_mild (a := .loadMany key (groups.users key)) hm.1.2.holds trivial he)
      cases r with
      | none => exact ⟨⟨hc,hca⟩,hm.2.after _ _ _ _⟩
      | some totals =>
        refine ⟨⟨hca,hm.2.after _ _ _ _,fun u hu total ht => ?_⟩,hc⟩
        obtain ⟨delta,hd⟩ := hm.2 key u hu
        simp only [exec_iff,outcomes,List.mem_cons,List.not_mem_nil,or_false,Prod.mk.injEq,
          Option.some.injEq,reduceCtorEq,false_and] at he
        obtain ⟨rfl,rfl⟩ := he
        exact ⟨key,delta,by simp [origin,originAfter],List.mem_cons_of_mem _ hd,lookup_totals ht⟩
    · cases r with
      | none => exact ih _
      | some totals =>
        refine Contract.Triple.bind (reloadUsers_triple _ fun _ h => h) fun _ => ?_
        exact (ih _).weaken fun m _ hm => ⟨⟨hm.2,hm.1.carries⟩,hm.1.grouped⟩

lemma flushActive_triple (active : List PendingDelta) :
    trafficContract.Triple t (fun m => Calm t m ∧ Carries t active [] m) (flushActive active)
      fun _ m => Calm t m ∧ Carries t [] [] m := by
  unfold flushActive
  split_ifs with ha
  · exact Contract.Triple.ret fun m _ hm => ha ▸ hm
  refine Contract.Triple.bind ((persistDeltas_triple active [] []).weaken fun m _ hm => ⟨hm,?_⟩)
    fun r => ?_
  · intro key u hu
    simp [PeriodUsers.users] at hu
  refine Contract.Triple.bind (R := fun _ m => (Calm t m ∧ Carries t [] [] m) ∧ Grouped t r.1 m)
    (silent_rule trivial ((stable_calm.and stable_carries).and stable_grouped) (fun _ h => h.1.1)
      (fun _ _ _ => trivial) fun m keys w _ hm he => ?_) fun keys => reloadPeriods_triple keys r.2
  exact ⟨⟨hm.1.1.silent trivial he,hm.1.2.shielded (shielded_of_mild hm.1.2.holds trivial he)⟩,
    hm.2.after _ _ _ _⟩

lemma lock_triple : trafficContract.Triple t (Calm t) (perform (.lock .persistAccess))
    fun _ m => Calm t m ∧ Carries t [] [] m := by
  refine Contract.Triple.perform stable_calm fun m hi hm =>
    ⟨⟨hm.obliged _,trivial,trivial⟩,fun r w he _ => ⟨?_,?_⟩⟩
  · exact hm.keep (grows_of_traffic (by trivial) he) (owed_keep (by simp [owedAfter]) t _)
      (by simp [tripDue,tripDueAfter])
  · have he' : exec t (.lock .persistAccess) m.state r w := he
    obtain ⟨hn,-,rfl⟩ := exec_if he' rfl
    obtain ⟨hh,hd⟩ := hi.free hn
    exact ⟨by simp [Holds],hh,fun u hu => absurd (hd ▸ hu) (by simp)⟩

lemma unlock_triple : trafficContract.Triple t (fun m => Calm t m ∧ Carries t [] [] m)
    (perform (.unlock .persistAccess)) fun _ m => Calm t m ∧ ¬ Holds t m := by
  refine Contract.Triple.perform (stable_calm.and stable_carries) fun m hi hm =>
    ⟨⟨hm.1.obliged _,trivial,hm.2.holds,hm.2.load,?_⟩,fun r w he _ => ⟨?_,?_⟩⟩
  · exact List.eq_nil_iff_forall_not_mem.mpr fun u hu => absurd (hm.2.visits u hu) (by simp)
  · exact hm.1.keep (grows_of_traffic (by trivial) he) (owed_keep (by simp [owedAfter]) t _)
      (by simp [tripDue,tripDueAfter])
  · have he' : exec t (.unlock .persistAccess) m.state r w := he
    obtain ⟨-,rfl⟩ := exec_one he' rfl
    simp [Holds]

lemma flushPending_triple : trafficContract.Triple t (Calm t) flushPending
    fun _ m => Calm t m ∧ ¬ Holds t m := by
  refine Contract.Triple.bind lock_triple fun _ => ?_
  refine Contract.Triple.bind (R := fun pds m => Calm t m ∧ Carries t pds [] m) ?_ fun pending => ?_
  · refine Contract.Triple.bind (R := fun users m => Calm t m ∧ Carries t [] users m)
      (Contract.Triple.perform (stable_calm.and stable_carries) fun m hi hm =>
        ⟨⟨hm.1.obliged _,trivial,hm.2.holds,hm.2.load,?_⟩,fun r w he _ => ⟨?_,?_⟩⟩)
      fun users => consumeUsers_triple users []
    · exact List.eq_nil_iff_forall_not_mem.mpr fun u hu => absurd (hm.2.visits u hu) (by simp)
    · exact hm.1.keep (grows_of_traffic (by trivial) he) (owed_keep (by simp [owedAfter]) t _)
        (by simp [tripDue,tripDueAfter])
    · have he' : exec t .takeDirty m.state r w := he
      obtain ⟨rfl,rfl⟩ := exec_one he' rfl
      exact ⟨hm.2.holds,hm.2.load,fun u hu => hu⟩
  refine Contract.Triple.bind (filterActive_triple pending []) fun active => ?_
  refine Contract.Triple.bind (flushActive_triple active) fun errs => ?_
  exact Contract.Triple.bind unlock_triple fun _ => Contract.Triple.ret fun _ _ h => h

def Rolled (t : ℕ) (resets : List PeriodReset) (m : Instant) : Prop :=
  ∀ reset ∈ resets, ∃ g current,
    ⟨t,.rollPeriod reset.user g current,some reset.previousKey⟩ ∈ m.history

lemma Rolled.after {resets : List PeriodReset} (h : Rolled t resets m) (u : ℕ) (a : Act)
    (r : a.Res) (w : World) : Rolled t resets (m.after u a r w) := fun reset hr => by
  obtain ⟨g,current,hm⟩ := h reset hr
  exact ⟨g,current,List.mem_cons_of_mem _ hm⟩

lemma stable_rolled {resets : List PeriodReset} : trafficContract.Stable t (Rolled t resets) :=
  Contract.stable_of_step fun _ u a r w _ _ _ _ h => h.after u a r w

lemma checkUsers_triple {now : ℤ} (users : List String) (resets : List PeriodReset) :
    trafficContract.Triple t
      (fun m => (Calm t m ∧ clockRead t m.history = some now) ∧ Rolled t resets m)
      (checkUsers now users resets) fun resets m => Calm t m ∧ Rolled t resets m := by
  induction users generalizing resets with
  | nil => exact Contract.Triple.ret fun _ _ h => ⟨h.1.1,h.2⟩
  | cons u users ih =>
    have hst : trafficContract.Stable t fun m =>
        (Calm t m ∧ clockRead t m.history = some now) ∧ Rolled t resets m :=
      (stable_calm.and stable_clockRead).and stable_rolled
    refine Contract.Triple.bind (R := fun r m => ((Calm t m ∧ clockRead t m.history = some now) ∧
      Rolled t resets m) ∧ ∀ g,r = some g → m.state.states u = some g)
      (silent_rule trivial hst (fun _ h => h.1.1) (fun _ _ _ => trivial)
        fun m r w hi hm he => ⟨⟨⟨hm.1.1.silent trivial he,?_⟩,hm.2.after _ _ _ _⟩,?_⟩) fun r => ?_
    · simpa [clockRead,clockReadAfter] using hm.1.2
    · replace he := exec_one he rfl
      obtain ⟨rfl,rfl⟩ := he
      exact fun g hg => hg
    · cases r with
      | none => exact (ih resets).weaken fun _ _ h => h.1
      | some g =>
        have hst' := hst.and (stable_state (u := u) (g := g))
        refine (Contract.Triple.bind (mustPeriodKey_triple hst' (fun _ h => h.1.1.1)
          fun he hm => ⟨⟨⟨hm.1.1.1.silent trivial he,clockRead_keyConfig.trans hm.1.1.2⟩,
            hm.1.2.after _ _ _ _⟩,
              (quietly_of_silent (a := .keyConfig .checkPeriodReset u) trivial he).states u g hm.2⟩)
          fun key => ?_).weaken fun m _ hm => ⟨hm.1,hm.2 g rfl⟩
        refine Contract.Triple.bind (R := fun r m => (Calm t m ∧
          clockRead t m.history = some now) ∧ r.elim (Rolled t resets m) fun previous =>
            Rolled t (resets ++ [⟨u,previous,key⟩]) m)
          (Contract.Triple.perform (hst'.and fun m m' hr h =>
            h.imp fun _ h => ⟨stable_config m m' hr h.1,h.2⟩) fun m hi hm => ⟨⟨hm.1.1.1.1.obliged _,trivial,?_⟩,
              fun r w he _ => ⟨⟨?_,?_⟩,?_⟩⟩) fun r => ?_
        · obtain ⟨⟨⟨⟨-,hre⟩,-⟩,hg⟩,c,hl,hk⟩ := hm
          exact ⟨hg,c,now,hl,hre,hk⟩
        · exact hm.1.1.1.1.keep (grows_of_traffic (by trivial) he)
            (owed_keep (by simp [owedAfter]) t _) (by simp [tripDue,tripDueAfter])
        · simpa [clockRead,clockReadAfter] using hm.1.1.1.2
        · cases r with
          | none => exact hm.1.1.2.after _ _ _ _
          | some previous =>
            intro reset hr
            obtain h | h := List.mem_append.mp hr
            · exact hm.1.1.2.after _ _ _ _ reset h
            · rw [List.mem_singleton] at h
              exact h ▸ ⟨g,key,List.mem_cons_self ..⟩
        · cases r with
          | none => exact ih resets
          | some previous => exact ih _

lemma deleteRecords_triple (resets errs : List PeriodReset) :
    trafficContract.Triple t (fun m => (Calm t m ∧ Carries t [] [] m) ∧ Rolled t resets m)
      (deleteRecords resets errs) fun _ m => Calm t m ∧ Carries t [] [] m := by
  induction resets generalizing errs with
  | nil => exact Contract.Triple.ret fun _ _ h => h.1
  | cons reset resets ih =>
    refine Contract.Triple.bind (R := fun _ m => (Calm t m ∧ Carries t [] [] m) ∧
      Rolled t resets m) (silent_rule trivial ((stable_calm.and stable_carries).and stable_rolled)
      (fun _ h => h.1.1) (fun m _ hm => ⟨hm.1.2.holds,hm.1.2.load,hm.2 reset (List.mem_cons_self ..)⟩)
      fun m r w hi hm he => ⟨⟨hm.1.1.silent trivial he,?_⟩,?_⟩) fun r => ?_
    · have hq := quietly_of_silent (a := .deleteRecord reset.user reset.previousKey) trivial he
      exact ⟨(congrFun hq.mutex _).trans hm.1.2.holds,hm.1.2.load,hm.1.2.visits⟩
    · exact fun x hx => hm.2.after _ _ _ _ x (List.mem_cons_of_mem _ hx)
    · cases r with
      | true => exact ih _
      | false => exact ih _

end operations

structure Idle (t : ℕ) (m : Instant) : Prop where
  calm : Calm t m
  unlocked : ¬ Holds t m

lemma stable_unlocked {t : ℕ} : trafficContract.Stable t fun m => ¬ Holds t m :=
  Contract.stable_of_step fun _ _ _ _ _ hu _ hp he h ht =>
    (holds_of_traffic hp.traffic he ht).elim h hu.symm

lemma stable_idle (t : ℕ) : trafficContract.Stable t (Idle t) := fun m m' hr h =>
  ⟨stable_calm m m' hr h.calm,stable_unlocked m m' hr h.unlocked⟩

lemma unlocked_of_mild {t : ℕ} {a : Act} {m : Instant} {r : a.Res} {w : World} (ha : a.Mild)
    (he : exec t a m.state r w) (h : ¬ Holds t m) : ¬ Holds t (m.after t a r w) :=
  fun ht => h ((congrFun (world_of_mild ha he).1 _).symm.trans ht)

lemma periodResetRound_triple {t : ℕ} :
    trafficContract.Triple t (fun m => Calm t m ∧ ¬ Holds t m) periodResetRound
      fun _ m => Calm t m ∧ ¬ Holds t m := by
  refine Contract.Triple.bind (R := fun now m => (Calm t m ∧ clockRead t m.history = some now) ∧
    ¬ Holds t m) (silent_rule trivial (stable_calm.and stable_unlocked) (fun _ h => h.1)
    (fun _ _ _ => trivial) fun m now w _ hm he => ?_) fun now => ?_
  · exact ⟨⟨hm.1.silent trivial he,clockRead_now⟩,unlocked_of_mild trivial he hm.2⟩
  refine Contract.Triple.bind ?_ fun _ => Contract.Triple.ret fun _ _ h => h
  refine Contract.Triple.bind (R := fun resets m => (Calm t m ∧ Rolled t resets m) ∧ ¬ Holds t m)
    ?_ fun resets => ?_
  · refine Contract.Triple.frame ?_ (show Prog.Uses Act.Mild _ from ?_) stable_unlocked
      unlocked_of_mild
    · refine Contract.Triple.bind (R := fun _ m => (Calm t m ∧ clockRead t m.history = some now) ∧
        Rolled t [] m) (silent_rule trivial (stable_calm.and stable_clockRead) (fun _ h => h.1)
        (fun _ _ _ => trivial) fun m users w _ hm he => ⟨⟨hm.1.silent trivial he,?_⟩,nofun⟩)
        fun users => checkUsers_triple users []
      simpa [clockRead,clockReadAfter] using hm.2
    · refine uses_perform_bind (by trivial) fun users => checkUsers_uses (fun a ha => ?_) now users []
      cases a <;> first | exact ha.elim | trivial
  · split_ifs
    · exact Contract.Triple.ret fun _ _ h => ⟨h.1.1,h.2⟩
    · refine Contract.Triple.bind (R := fun _ m => (Calm t m ∧ Carries t [] [] m) ∧
        Rolled t resets m) ((lock_triple.frame (Prog.uses_true _) stable_rolled
          fun _ _ h => h.after _ _ _ _).weaken fun _ _ h => h.1) fun _ => ?_
      refine Contract.Triple.bind (deleteRecords_triple resets []) fun errs => ?_
      exact Contract.Triple.bind unlock_triple fun _ => Contract.Triple.ret fun _ _ h => h

/-- Additions, flushes, period resets and the passing of time, on any threads. -/
def trafficOps : Ops Act Act.Res World := fun _ _ p =>
  (∃ u n, p = addBytes u n) ∨ p = void flushPending ∨ p = periodResetRound ∨
    ∃ d, p = perform (.tick d)

/-- Every operation of the traffic meets the contract. -/
theorem traffic_safe {t : ℕ} {m : Instant} {p : Op Unit} (hp : trafficOps t m p)
    (hi : TrafficInv m) (hm : Idle t m) : trafficContract.Safe t (fun _ => Idle t) p m := by
  have ht : trafficContract.Triple t (fun m => Calm t m ∧ ¬ Holds t m) p
      fun _ m => Calm t m ∧ ¬ Holds t m := by
    obtain ⟨u,n,rfl⟩ | rfl | rfl | ⟨d,rfl⟩ := hp
    · refine (addBytes_triple u n).frame (addBytes_uses (fun a ha => ?_) u n) stable_unlocked
        unlocked_of_mild
      cases a <;> first | exact ha.elim | trivial
    · exact Contract.Triple.bind (flushPending_triple.weaken fun _ _ h => h.1)
        fun _ => Contract.Triple.ret fun _ _ h => h
    · exact periodResetRound_triple
    · exact silent_rule trivial (stable_calm.and stable_unlocked) (fun _ h => h.1)
        (fun _ _ _ => trivial) fun m _ w _ hm he =>
          ⟨hm.1.silent trivial he,unlocked_of_mild trivial he hm.2⟩
  exact (ht.conseq (fun _ _ h => ⟨h.calm,h.unlocked⟩) fun _ _ _ h => ⟨h.1,h.2⟩) m hi hm

structure Rested (w : World) : Prop where
  unlocked : w.mutex .persistAccess = none
  dirtySet : w.dirtySet = ∅
  dirtyQueue : w.dirtyQueue = []
  pending : ∀ u, w.pendingDelta u = 0

lemma Rested.inv {w : World} (h : Rested w) : TrafficInv ⟨w,[]⟩ := by
  refine ⟨?_,fun u hu => ?_,nofun,fun _ => ⟨fun _ => rfl,rfl⟩,fun u hu => absurd (h.pending u) hu⟩
  · simp [h.dirtySet,h.dirtyQueue]
  · simp [Waiting,h.dirtyQueue,drained,owed,held] at hu

lemma Rested.idle {w : World} (h : Rested w) (t : ℕ) : Idle t ⟨w,[]⟩ :=
  ⟨⟨rfl,nofun⟩,by simp [Holds,h.unlocked]⟩

/-- In every interleaving of the traffic the invariant holds, and a thread issues
each action under the condition of the contract. -/
theorem traffic_sound {ops : Ops Act Act.Res World} (ho : ∀ t m p,ops t m p → trafficOps t m p)
    {w : World} (hw : Rested w) {c : Config Act Act.Res World}
    (run : Reach exec ops (Config.idle w) c) :
    TrafficInv c.moment ∧ ∀ t,trafficContract.Safe t (fun _ => Idle t) (c.pool t) c.moment :=
  Contract.sound_idle (C := trafficContract) stable_idle
    (fun _ _ _ hp hi hm => traffic_safe (ho _ _ _ hp) hi hm) run hw.inv hw.idle

/-- A further invariant of the traffic needs one check per action. -/
theorem traffic_also {ops : Ops Act Act.Res World} (ho : ∀ t m p,ops t m p → trafficOps t m p)
    {does : Exec Act Act.Res World} (hd : ∀ t a w r w',does t a w r w' → exec t a w r w')
    {allowed : ℕ → Act → Prop} (uses : ∀ t m p,ops t m p → p.Uses (allowed t))
    {guard : Guard Act Act.Res World} {X : Instant → Prop}
    (step : ∀ t a m r w,TrafficInv m → TrafficPre t a m → allowed t a → guard t a m →
      does t a m.state r w → X m → X (m.after t a r w)) {w : World} (hw : Rested w)
    (hX : X ⟨w,[]⟩) {c : Config Act Act.Res World}
    (run : ReachWhen guard does ops (Config.idle w) c) : X c.moment :=
  Contract.sound_also (C := trafficContract) stable_idle
    (fun _ _ _ hp hi hm => traffic_safe (ho _ _ _ hp) hi hm) hd uses step run hw.inv hw.idle
    (fun _ => trivial) hX

/-- When no thread is inside an operation, nothing is in flight and nobody owes. -/
theorem quiet_settled {c : Config Act Act.Res World} (hi : TrafficInv c.moment)
    (hs : ∀ t,trafficContract.Safe t (fun _ => Idle t) (c.pool t) c.moment) (hq : c.Quiet) :
    c.moment.state.mutex .persistAccess = none ∧ (∀ t,Calm t c.moment) ∧
      (∀ u,held u c.moment.history = []) ∧ drained c.moment.history = [] := by
  have hid : ∀ t,Idle t c.moment := fun t => by
    have h := hs t
    rwa [hq t] at h
  have hf : c.moment.state.mutex .persistAccess = none := by
    by_contra hne
    obtain ⟨t,ht⟩ := Option.ne_none_iff_exists'.mp hne
    exact (hid t).unlocked ht
  exact ⟨hf,fun t => (hid t).calm,hi.free hf⟩

end SingBoxAuth.TrafficQuota
