import SingBoxAuth.QuotaTraffic

/-! What the other threads leave alone under the traffic contract, and the rules for
the steps of one thread that follow from it. -/
namespace SingBoxAuth.TrafficQuota
open Interleaving

lemma grows_of_traffic {t : ℕ} {a : Act} {w w' : World} {r : a.Res} (ha : a.Traffic)
    (he : exec t a w r w') : Grows w w' := by
  by_cases hs : a.Silent
  · exact (quietly_of_silent hs he).toGrows
  · cases a with
    | addBytes u g n =>
      replace he := exec_pair he rfl
      obtain ⟨h,-⟩ | ⟨key,-,h⟩ := addSection_cases w u g n
      · rw [h,Prod.mk.injEq] at he
        exact he.2 ▸ Grows.refl w
      · rw [h,Prod.mk.injEq] at he
        exact he.2 ▸ grows_modifyState _ _ _ _
    | consume u g | restore u g k d | rollPeriod u g k | storeUsage u g b | storeExceeded u g b
    | trip u g =>
      replace he := exec_one he rfl
      exact he.2 ▸ grows_modifyState _ _ _ _
    | markDirty u =>
      simp only [exec_iff,outcomes,List.mem_singleton,Prod.mk.injEq,TrafficInv.markDirty_eq] at he
      exact he.2 ▸ ⟨rfl,fun _ _ h => h,le_rfl⟩
    | takeDirty | unlock x =>
      replace he := exec_one he rfl
      exact he.2 ▸ ⟨rfl,fun _ _ h => h,le_rfl⟩
    | incrBy u k d =>
      obtain ⟨-,rfl⟩ | ⟨-,rfl⟩ := exec_two he rfl <;> exact ⟨rfl,fun _ _ h => h,le_rfl⟩
    | lock x =>
      obtain ⟨-,he⟩ := exec_if he rfl
      exact he.2 ▸ ⟨rfl,fun _ _ h => h,le_rfl⟩
    | _ => exact absurd ha hs

/-- The actions that touch neither the store, nor the deltas in flight, nor a lock. -/
def Act.Mild : Act → Prop
  | .addBytes _ _ _ | .rollPeriod _ _ _ | .storeUsage _ _ _ | .storeExceeded _ _ _ | .trip _ _
  | .markDirty _ => True
  | .deleteRecord _ _ => False
  | a => a.Silent

/-- What the holder of persistAccess relies on between two of its own writes. -/
structure Shielded (t : ℕ) (m m' : Instant) : Prop where
  holds : Holds t m'
  held : ∀ u, held u m'.history = held u m.history
  drained : drained m'.history = drained m.history
  store : m'.state.store = m.state.store

lemma world_of_mild {t : ℕ} {a : Act} {w w' : World} {r : a.Res} (ha : a.Mild)
    (he : exec t a w r w') : w'.mutex = w.mutex ∧ w'.store = w.store := by
  cases a with
  | addBytes v g n =>
    replace he := exec_pair he rfl
    obtain ⟨h,-⟩ | ⟨key,-,h⟩ := addSection_cases w v g n <;>
    · rw [h,Prod.mk.injEq] at he
      exact he.2 ▸ ⟨rfl,rfl⟩
  | rollPeriod _ _ _ | storeUsage _ _ _ | storeExceeded _ _ _ | trip _ _
  | loadConfig _ | keyConfig _ _ | now | loadState _ | setPeriodKeyIfEmpty _ _ _ | loadConns _
  | listConns _ _ | markConn _ | tick _ =>
    replace he := exec_one he rfl
    exact he.2 ▸ ⟨rfl,rfl⟩
  | markDirty _ =>
    simp only [exec_iff,outcomes,List.mem_singleton,Prod.mk.injEq,TrafficInv.markDirty_eq] at he
    exact he.2 ▸ ⟨rfl,rfl⟩
  | stateFor v =>
    replace he := exec_pair he rfl
    have hw : w' = (w.stateFor v).2 := by rw [← he]
    rw [hw]
    unfold World.stateFor
    split <;> exact ⟨rfl,rfl⟩
  | userNames | iterate _ =>
    obtain ⟨-,rfl⟩ := exec_map he rfl
    exact ⟨rfl,rfl⟩
  | loadMany _ _ =>
    obtain ⟨-,rfl⟩ | ⟨-,rfl⟩ := exec_two he rfl <;> exact ⟨rfl,rfl⟩
  | panic => exact r.elim
  | _ => exact ha.elim

lemma shielded_of_mild {t u : ℕ} {a : Act} {m : Instant} {r : a.Res} {w : World} (ht : Holds t m)
    (ha : a.Mild) (he : exec u a m.state r w) : Shielded t m (m.after u a r w) := by
  obtain ⟨hm,hs⟩ := world_of_mild ha he
  refine ⟨(congrFun hm _).trans ht,fun v => ?_,?_,hs⟩
  · cases a <;> first | exact ha.elim | rfl
  · cases a <;> first | exact ha.elim | rfl

lemma holds_of_traffic {t u : ℕ} {a : Act} {m : Instant} {r : a.Res} {w : World}
    (ha : a.Traffic) (he : exec u a m.state r w) (ht : Holds t (m.after u a r w)) :
    Holds t m ∨ t = u := by
  by_cases hm : a.Mild
  · exact .inl ((congrFun (world_of_mild hm he).1 _).symm.trans ht)
  · cases a with
    | consume _ _ | restore _ _ _ _ | takeDirty =>
      obtain ⟨-,rfl⟩ := exec_one he rfl
      exact .inl ht
    | incrBy _ _ _ | deleteRecord _ _ =>
      obtain ⟨-,rfl⟩ | ⟨-,rfl⟩ := exec_two he rfl <;> exact .inl ht
    | lock x =>
      obtain ⟨-,-,rfl⟩ := exec_if he rfl
      cases x with
      | persistAccess =>
        have hu : some u = some t := by simpa [Holds] using ht
        exact .inr (Option.some.inj hu).symm
      | applyMu => exact ha.elim
    | unlock x =>
      obtain ⟨-,rfl⟩ := exec_one he rfl
      cases x with
      | persistAccess => simp [Holds] at ht
      | applyMu => exact ha.elim
    | _ => first | exact absurd trivial hm | exact ha.elim

lemma shielded_of_other {t u : ℕ} {a : Act} {m : Instant} {r : a.Res} {w : World}
    (ht : Holds t m) (hu : u ≠ t) (hp : TrafficPre u a m) (he : exec u a m.state r w) :
    Shielded t m (m.after u a r w) := by
  by_cases ha : a.Mild
  · exact shielded_of_mild ht ha he
  · have hne : ¬ Holds u m := fun h => hu (Option.some.inj (h.symm.trans ht))
    have htr := hp.traffic
    have hn := hp.needs
    cases a with
    | consume _ _ | restore _ _ _ _ | takeDirty | incrBy _ _ _ | deleteRecord _ _ =>
      exact absurd hn.1 hne
    | unlock x =>
      cases x with
      | persistAccess => exact absurd hn.1 hne
      | applyMu => exact htr.elim
    | lock x =>
      cases x with
      | persistAccess =>
        simp only [exec_iff,outcomes] at he
        split_ifs at he with h
        · cases ht.symm.trans h
        · cases he
      | applyMu => exact htr.elim
    | _ => first | exact absurd trivial ha | exact htr.elim

structure Calm (t : ℕ) (m : Instant) : Prop where
  unowed : owed t m.history = none
  settled : ∀ u total config, tripDue t m.history = some (u,total) →
    m.state.userConfigs.lookup u = some config → ¬ config.quotaBytes < total

lemma Calm.obliged {t : ℕ} {m : Instant} (h : Calm t m) (a : Act) : Obliged t a m :=
  ⟨fun u hu => by simp [h.unowed] at hu,
    fun u total config hd hc hq => absurd hq (h.settled u total config hd hc)⟩

/-- The deltas that a flush carries and the users it has still to visit. -/
structure Carries (t : ℕ) (pds : List PendingDelta) (users : List String) (m : Instant) :
    Prop where
  holds : Holds t m
  load : ∀ u, held u m.history = pds.filter (·.user = u)
  visits : ∀ u ∈ drained m.history, u ∈ users

lemma Carries.shielded {t : ℕ} {pds : List PendingDelta} {users : List String} {m m' : Instant}
    (h : Carries t pds users m) (hs : Shielded t m m') : Carries t pds users m' :=
  ⟨hs.holds,fun u => (hs.held u).trans (h.load u),fun u hu => h.visits u (hs.drained ▸ hu)⟩

section stable

variable {t : ℕ}

lemma stable_calm : trafficContract.Stable t (Calm t) := by
  refine Contract.stable_of_step fun m u a r w hu _ hp he hc => ⟨?_,?_⟩
  · exact (owed_other (e := ⟨u,a,r⟩) hu).trans hc.unowed
  · intro v total config hd hl
    rw [Moment.after_history,tripDue_other (e := ⟨u,a,r⟩) hu] at hd
    rw [Moment.after_state,(grows_of_traffic hp.traffic he).configs] at hl
    exact hc.settled v total config hd hl

lemma stable_carries {pds : List PendingDelta} {users : List String} :
    trafficContract.Stable t (Carries t pds users) :=
  Contract.stable_of_step fun _ _ _ _ _ hu _ hp he hc =>
    hc.shielded (shielded_of_other hc.holds hu hp he)

lemma stable_state {u : String} {g : ℕ} :
    trafficContract.Stable t fun m => m.state.states u = some g :=
  Contract.stable_of_step fun _ _ _ _ _ _ _ hp he h => (grows_of_traffic hp.traffic he).states u g h

lemma stable_config {u : String} {config : Option QuotaConfig} :
    trafficContract.Stable t fun m => m.state.userConfigs.lookup u = config :=
  Contract.stable_of_step fun _ _ _ _ _ _ _ hp he h =>
    (congrArg (AList.lookup u) (grows_of_traffic hp.traffic he).configs).trans h

lemma stable_clockRead {now : Option ℤ} :
    trafficContract.Stable t fun m => clockRead t m.history = now :=
  Contract.stable_of_step fun _ u a r _ hu _ _ _ h => (clockRead_other (e := ⟨u,a,r⟩) hu).trans h

end stable

section rules

variable {t : ℕ} {α : Type} {P R : Instant → Prop}

lemma Act.Silent.traffic {a : Act} (hs : a.Silent) : a.Traffic := by
  cases a <;> first | exact hs | exact hs.elim

lemma Calm.keep {a : Act} {m : Instant} {r : a.Res} {w : World} (hc : Calm t m)
    (hg : Grows m.state w) (ho : owed t (⟨t,a,r⟩ :: m.history) = owed t m.history)
    (hd : tripDue t (⟨t,a,r⟩ :: m.history) = tripDue t m.history) : Calm t (m.after t a r w) := by
  refine ⟨ho.trans hc.unowed,fun v total config ht hl => ?_⟩
  rw [Moment.after_history,hd] at ht
  rw [Moment.after_state,hg.configs] at hl
  exact hc.settled v total config ht hl

lemma Calm.silent {a : Act} {m : Instant} {r : a.Res} {w : World} (hc : Calm t m)
    (hs : a.Silent) (he : exec t a m.state r w) : Calm t (m.after t a r w) :=
  hc.keep (quietly_of_silent hs he).toGrows (owed_silent hs t _) (tripDue_silent hs _)

lemma silent_rule {a : Act} {Q : a.Res → Instant → Prop} (hs : a.Silent)
    (hst : trafficContract.Stable t P) (hca : ∀ m,P m → Calm t m)
    (hn : ∀ m,TrafficInv m → P m → Needs t a m)
    (hp : ∀ m r w,TrafficInv m → P m → exec t a m.state r w → Q r (m.after t a r w)) :
    trafficContract.Triple t P (perform a) Q :=
  Contract.Triple.perform hst fun m hi hm =>
    ⟨⟨(hca m hm).obliged a,hs.traffic,hn m hi hm⟩,fun r w he _ => hp m r w hi hm he⟩

def Act.Reloading : Act → Prop
  | .loadConfig _ | .stateFor _ | .now | .keyConfig _ _ | .setPeriodKeyIfEmpty _ _ _
  | .storeUsage _ _ _ | .storeExceeded _ _ _ | .trip _ _ | .loadConns _ | .listConns _ _
  | .markConn _ => True
  | _ => False

/-- An assertion that a thread keeps while it reloads or trips. -/
structure Carried (t : ℕ) (R : Instant → Prop) : Prop where
  stable : trafficContract.Stable t R
  own : ∀ {a : Act} {m : Instant} {r : a.Res} {w : World}, a.Reloading →
    exec t a m.state r w → R m → R (m.after t a r w)

lemma carried_true : Carried t fun _ => True := ⟨Contract.Stable.const True,fun _ _ _ => trivial⟩

structure Due (t : ℕ) (u : String) (g : ℕ) (m : Instant) : Prop where
  unowed : owed t m.history = none
  state : m.state.states u = some g
  only : ∀ v total config, tripDue t m.history = some (v,total) →
    m.state.userConfigs.lookup v = some config → config.quotaBytes < total → v = u

lemma stable_due {u : String} {g : ℕ} : trafficContract.Stable t (Due t u g) := by
  refine Contract.stable_of_step fun m u' a r w hu _ hp he hd => ⟨?_,?_,?_⟩
  · exact (owed_other (e := ⟨u',a,r⟩) hu).trans hd.unowed
  · exact (grows_of_traffic hp.traffic he).states u g hd.state
  · intro v total config ht hl
    rw [Moment.after_history,tripDue_other (e := ⟨u',a,r⟩) hu] at ht
    rw [Moment.after_state,(grows_of_traffic hp.traffic he).configs] at hl
    exact hd.only v total config ht hl

lemma Act.Closing.silent {a : Act} (ha : a.Closing) : a.Silent := by
  cases a <;> first | exact ha.elim | trivial

lemma Act.Closing.reloading {a : Act} (ha : a.Closing) : a.Reloading := by
  cases a <;> first | exact ha.elim | trivial

lemma Act.Closing.needs {a : Act} (ha : a.Closing) (m : Instant) : Needs t a m := by
  cases a <;> first | exact ha.elim | trivial

lemma closing_triple {p : Op α} (hR : Carried t R) (hp : p.Uses Act.Closing) :
    trafficContract.Triple t (fun m => R m ∧ Calm t m) p fun _ m => R m ∧ Calm t m := by
  refine Contract.Triple.of_uses (hR.stable.and stable_calm) (fun a ha m _ hm => ?_) hp
  exact ⟨⟨hm.2.obliged a,ha.silent.traffic,ha.needs m⟩,
    fun r w he _ => ⟨hR.own ha.reloading he hm.1,hm.2.silent ha.silent he⟩⟩

lemma tripExceeded_triple {u : String} {g : ℕ} (hR : Carried t R) :
    trafficContract.Triple t (fun m => R m ∧ Due t u g m) (tripExceeded u g)
      fun _ m => R m ∧ Calm t m := by
  refine Contract.Triple.bind (R := fun _ m => R m ∧ Calm t m)
    (Contract.Triple.perform (hR.stable.and stable_due) fun m hi hm => ⟨⟨?_,trivial,?_⟩,?_⟩)
    fun tripped => ?_
  · refine ⟨fun v hv => by simp [hm.2.unowed] at hv,fun v total config ht hl hq => .inr ⟨g,?_⟩⟩
    rw [hm.2.only v total config ht hl hq]
  · exact hm.2.state
  · intro r w he _
    refine ⟨hR.own trivial he hm.1,?_,?_⟩
    · exact (owed_keep (by simp [owedAfter]) t _).trans hm.2.unowed
    · intro v total config ht
      simp [tripDue,tripDueAfter] at ht
  · cases tripped with
    | false => exact Contract.Triple.ret fun _ _ h => h
    | true =>
      refine closing_triple hR (Prog.Uses.bind (Prog.uses_perform.mpr trivial) fun list => ?_)
      cases list with
      | none => trivial
      | some list =>
        exact Prog.Uses.bind (Prog.uses_perform.mpr trivial) fun conns =>
          markAll_uses (fun _ => trivial) conns

lemma panic_triple {Q : α → Instant → Prop} (hst : trafficContract.Stable t P)
    (hca : ∀ m,P m → Calm t m) : trafficContract.Triple t P (.act .panic nofun) Q :=
  Contract.Triple.act (R := fun _ _ => True) hst
    (fun m _ hm => ⟨⟨(hca m hm).obliged _,trivial,trivial⟩,fun r => r.elim⟩) fun r => r.elim

lemma mustPeriodKey_triple {caller : Caller} {u : String} {now : ℤ}
    (hst : trafficContract.Stable t P) (hca : ∀ m,P m → Calm t m)
    (ho : ∀ {m r w},exec t (.keyConfig caller u) m.state r w → P m →
      P (m.after t (.keyConfig caller u) r w)) :
    trafficContract.Triple t P (mustPeriodKey caller u now) fun key m => P m ∧
      ∃ config,m.state.userConfigs.lookup u = some config ∧ key = keyAt config now := by
  have hk : trafficContract.Triple t P (getCurrentPeriodKey caller u now)
      fun r m => P m ∧ ∀ key,r = .ok key →
        ∃ config,m.state.userConfigs.lookup u = some config ∧ key = keyAt config now := by
    refine Contract.Triple.bind (R := fun r m => P m ∧ m.state.userConfigs.lookup u = r)
      (silent_rule trivial hst hca (fun _ _ _ => trivial) fun m r w _ hm he => ⟨ho he hm,?_⟩)
      fun config => ?_
    · replace he := exec_one he rfl
      rw [he.1,he.2]
      rfl
    · cases config with
      | none => exact Contract.Triple.ret fun m _ hm => ⟨hm.1,fun _ h => by cases h⟩
      | some config =>
        refine Contract.Triple.ret fun m _ hm => ⟨hm.1,fun key h => ⟨config,hm.2,?_⟩⟩
        rw [periodKey_eq] at h
        exact (Except.ok.inj h).symm
  refine Contract.Triple.bind hk fun r => ?_
  cases r with
  | ok key => exact Contract.Triple.ret fun m _ hm => ⟨hm.1,hm.2 key rfl⟩
  | error _ => exact (panic_triple hst hca).weaken fun _ _ h => h.1

end rules

end SingBoxAuth.TrafficQuota
