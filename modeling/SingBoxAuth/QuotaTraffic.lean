import SingBoxAuth.QuotaHistory

/-! Traffic of the quota service: additions of bytes, flushes and period resets
while configurations do not change. The contract says what a thread knows at each
action it issues; its invariant ties pending deltas to the dirty queue and to the
running flush. -/
namespace SingBoxAuth.TrafficQuota
open Interleaving

/-- The actions that change neither the dirty index, nor a pending delta, nor a
lock, nor what the history says about them. -/
def Act.Silent : Act → Prop
  | .loadConfig _ | .keyConfig _ _ | .userNames | .now | .loadState _ | .stateFor _
  | .setPeriodKeyIfEmpty _ _ _ | .loadConns _ | .listConns _ _ | .markConn _ | .iterate _
  | .loadMany _ _ | .deleteRecord _ _ | .tick _ | .panic => True
  | _ => False

/-- What traffic never changes: configurations, the identity of states, time order. -/
structure Grows (w w' : World) : Prop where
  configs : w'.userConfigs = w.userConfigs
  states : ∀ u g, w.states u = some g → w'.states u = some g
  clock : w.clock ≤ w'.clock

lemma Grows.refl (w : World) : Grows w w := ⟨rfl,fun _ _ h => h,le_rfl⟩

lemma grows_stateFor (w : World) (u : String) : Grows w (w.stateFor u).2 := by
  unfold World.stateFor
  split
  · exact Grows.refl w
  · next hn =>
    refine ⟨rfl,fun v g hv => ?_,le_rfl⟩
    have hne : v ≠ u := by rintro rfl; simp [hn] at hv
    simpa [Function.update_of_ne hne] using hv

lemma grows_modifyState (w : World) (u : String) (g : ℕ) (f : UserState → UserState) :
    Grows w (w.modifyState u g f) := ⟨rfl,fun _ _ h => h,le_rfl⟩

lemma pendingDelta_stateFor (w : World) (u v : String) :
    (w.stateFor u).2.pendingDelta v = w.pendingDelta v := by
  unfold World.stateFor
  split
  · rfl
  · next hn =>
    by_cases hv : v = u
    · subst hv
      simp [World.pendingDelta,World.state?,hn,UserState.empty]
    · simp only [World.pendingDelta,World.state?,Function.update_of_ne hv]
      rcases w.states v with _ | g
      · rfl
      · simp [hv]

lemma pendingDelta_modifyState {w : World} {u : String} {g : ℕ} {f : UserState → UserState}
    (hf : ∀ s,(f s).pendingDelta = s.pendingDelta) (v : String) :
    (w.modifyState u g f).pendingDelta v = w.pendingDelta v := by
  simp only [World.pendingDelta,World.state?,World.modifyState]
  rcases w.states v with _ | g'
  · rfl
  · by_cases h : (v,g') = (u,g)
    · simp [h,hf]
    · simp [Function.update_of_ne h]

structure Quietly (w w' : World) : Prop extends Grows w w' where
  dirtySet : w'.dirtySet = w.dirtySet
  dirtyQueue : w'.dirtyQueue = w.dirtyQueue
  mutex : w'.mutex = w.mutex
  pending : ∀ u, w'.pendingDelta u = w.pendingDelta u

lemma Quietly.refl (w : World) : Quietly w w := ⟨Grows.refl w,rfl,rfl,rfl,fun _ => rfl⟩

lemma quietly_of_silent {t : ℕ} {a : Act} {w w' : World} {r : a.Res} (hs : a.Silent)
    (he : exec t a w r w') : Quietly w w' := by
  cases a with
  | loadConfig u | keyConfig c u | now | loadState u | loadConns u | listConns u l =>
    replace he := exec_one he rfl
    rw [he.2]
    exact Quietly.refl w
  | userNames | iterate keys =>
    obtain ⟨-,rfl⟩ := exec_map he rfl
    exact Quietly.refl _
  | stateFor u =>
    replace he := exec_pair he rfl
    have hw : w' = (w.stateFor u).2 := by rw [← he]
    subst hw
    refine ⟨grows_stateFor w u,?_,?_,?_,pendingDelta_stateFor w u⟩ <;>
    · unfold World.stateFor
      split <;> rfl
  | setPeriodKeyIfEmpty u g k =>
    replace he := exec_one he rfl
    rw [he.2]
    refine ⟨grows_modifyState _ _ _ _,rfl,rfl,rfl,pendingDelta_modifyState fun s => ?_⟩
    split <;> rfl
  | markConn c =>
    replace he := exec_one he rfl
    rw [he.2]
    exact ⟨⟨rfl,fun _ _ h => h,le_rfl⟩,rfl,rfl,rfl,fun _ => rfl⟩
  | loadMany k us =>
    obtain ⟨-,rfl⟩ | ⟨-,rfl⟩ := exec_two he rfl <;> exact Quietly.refl _
  | deleteRecord u k =>
    obtain ⟨-,rfl⟩ | ⟨-,rfl⟩ := exec_two he rfl
    · exact ⟨⟨rfl,fun _ _ h => h,le_rfl⟩,rfl,rfl,rfl,fun _ => rfl⟩
    · exact Quietly.refl _
  | tick d =>
    replace he := exec_one he rfl
    rw [he.2]
    exact ⟨⟨rfl,fun _ _ h => h,by simp⟩,rfl,rfl,rfl,fun _ => rfl⟩
  | panic => exact r.elim
  | _ => exact hs.elim


lemma held_silent {t : ℕ} {a : Act} {r : a.Res} (hs : a.Silent) (u : String) (h : Past) :
    held u (⟨t,a,r⟩ :: h) = held u h := by
  cases a <;> first | exact hs.elim | rfl

lemma drained_silent {t : ℕ} {a : Act} {r : a.Res} (hs : a.Silent) (h : Past) :
    drained (⟨t,a,r⟩ :: h) = drained h := by
  cases a <;> first | exact hs.elim | rfl

lemma owed_keep {e : Event Act Act.Res} (he : ∀ b,owedAfter e.thread e b = b) (t : ℕ)
    (h : Past) : owed t (e :: h) = owed t h := by
  by_cases ht : e.thread = t
  · exact ht ▸ he _
  · exact owed_other ht

lemma owed_silent {t : ℕ} {a : Act} {r : a.Res} (hs : a.Silent) (u : ℕ) (h : Past) :
    owed u (⟨t,a,r⟩ :: h) = owed u h := by
  refine owed_keep (fun b => ?_) u h
  cases a <;> first | exact hs.elim | simp [owedAfter]

lemma tripDue_silent {t u : ℕ} {a : Act} {r : a.Res} (hs : a.Silent) (h : Past) :
    tripDue u (⟨t,a,r⟩ :: h) = tripDue u h := by
  by_cases ht : t = u
  · cases a <;> first | exact hs.elim | simp [tripDue,tripDueAfter,ht]
  · exact tripDue_other ht

/-- The actions of AddBytes, flushPending and the period-reset loop. -/
def Act.Traffic : Act → Prop
  | .addBytes _ _ _ | .consume _ _ | .restore _ _ _ _ | .rollPeriod _ _ _ | .storeUsage _ _ _
  | .storeExceeded _ _ _ | .trip _ _ | .markDirty _ | .takeDirty | .incrBy _ _ _
  | .lock .persistAccess | .unlock .persistAccess => True
  | a => a.Silent

/-- Known to a manager with a quota: there is a state and a configuration. -/
def Known (w : World) (u : String) : Prop := (w.states u).isSome ∧ (w.userConfigs.lookup u).isSome

lemma Known.grows {w w' : World} {u : String} (hk : Known w u) (hg : Grows w w') : Known w' u := by
  obtain ⟨g,hg'⟩ := Option.isSome_iff_exists.mp hk.1
  exact ⟨by rw [hg.states u g hg']; rfl,hg.configs ▸ hk.2⟩

/-- The user will be visited by a flush: it is queued, drained, or about to be queued. -/
def Waiting (m : Instant) (u : String) : Prop :=
  u ∈ m.state.dirtyQueue ∨ u ∈ drained m.history ∨ ∃ t, owed t m.history = some u

structure TrafficInv (m : Instant) : Prop where
  dirty : ∀ u, u ∈ m.state.dirtySet ↔ u ∈ m.state.dirtyQueue
  known : ∀ u, Waiting m u ∨ held u m.history ≠ [] → Known m.state u
  flying : ∀ u, ∀ pd ∈ held u m.history, pd.user = u ∧ pd.delta ≠ 0
  free : m.state.mutex .persistAccess = none →
    (∀ u, held u m.history = []) ∧ drained m.history = []
  covered : ∀ u, m.state.pendingDelta u ≠ 0 → Waiting m u

def Holds (t : ℕ) (m : Instant) : Prop := m.state.mutex .persistAccess = some t

/-- A total of the user that the thread has read after persisting a delta. -/
def Loaded (t : ℕ) (u : String) (total : Int64) (m : Instant) : Prop :=
  ∃ key delta, origin t m.history = some key ∧
    ⟨t,.incrBy u key delta,true⟩ ∈ m.history ∧ m.state.store (u,key) = some total

def Needs (t : ℕ) : Act → Instant → Prop
  | .addBytes u g _, m => m.state.states u = some g ∧ Known m.state u
  | .markDirty u, m => owed t m.history = some u
  | .consume u g, m => Holds t m ∧ m.state.states u = some g
  | .incrBy u key delta, m => Holds t m ∧ ⟨u,key,delta⟩ ∈ held u m.history
  | .restore u g key delta, m =>
    Holds t m ∧ m.state.states u = some g ∧ ⟨u,key,delta⟩ ∈ held u m.history
  | .takeDirty, m | .unlock .persistAccess, m =>
    Holds t m ∧ (∀ u, held u m.history = []) ∧ drained m.history = []
  | .loadMany _ _, m => Holds t m ∧ ∀ u, held u m.history = []
  | .storeUsage u g bytes, m => Holds t m ∧ m.state.states u = some g ∧
    (∀ v, held v m.history = []) ∧ Loaded t u bytes m
  | .storeExceeded u g value, m => Holds t m ∧ m.state.states u = some g ∧
    (∀ v, held v m.history = []) ∧ value = false ∧
    ∃ config total, m.state.userConfigs.lookup u = some config ∧ Loaded t u total m ∧
      ¬ config.quotaBytes < total
  | .trip u g, m => m.state.states u = some g
  | .setPeriodKeyIfEmpty u g key, m | .rollPeriod u g key, m => m.state.states u = some g ∧
    ∃ config now, m.state.userConfigs.lookup u = some config ∧
      clockRead t m.history = some now ∧ key = keyAt config now
  | .deleteRecord u key, m => Holds t m ∧ (∀ v, held v m.history = []) ∧
    ∃ g current, ⟨t,.rollPeriod u g current,some key⟩ ∈ m.history
  | _, _ => True

structure Obliged (t : ℕ) (a : Act) (m : Instant) : Prop where
  mark : ∀ u, owed t m.history = some u → a = .markDirty u
  trip : ∀ u total config, tripDue t m.history = some (u,total) →
    m.state.userConfigs.lookup u = some config → config.quotaBytes < total →
    a = .markDirty u ∨ ∃ g, a = .trip u g

structure TrafficPre (t : ℕ) (a : Act) (m : Instant) : Prop extends Obliged t a m where
  traffic : a.Traffic
  needs : Needs t a m

lemma TrafficInv.steady {m : Instant} {t : ℕ} {a : Act} {r : a.Res} {w : World}
    (hi : TrafficInv m) (hg : Grows m.state w) (hd : ∀ u,u ∈ w.dirtySet ↔ u ∈ w.dirtyQueue)
    (hp : ∀ u,w.pendingDelta u = m.state.pendingDelta u)
    (hw : ∀ u,Waiting (m.after t a r w) u ↔ Waiting m u)
    (hh : ∀ u,held u (⟨t,a,r⟩ :: m.history) ⊆ held u m.history)
    (hf : w.mutex .persistAccess = none → (∀ u,held u (⟨t,a,r⟩ :: m.history) = []) ∧
      drained (⟨t,a,r⟩ :: m.history) = []) : TrafficInv (m.after t a r w) := by
  refine ⟨hd,fun u hu => ?_,fun u pd hpd => hi.flying u pd (hh u hpd),hf,fun u hu => ?_⟩
  · refine (hi.known u ?_).grows hg
    rw [hw] at hu
    refine hu.imp_right fun hne => ?_
    obtain ⟨pd,hpd⟩ := List.exists_mem_of_ne_nil _ hne
    exact List.ne_nil_of_mem (hh u hpd)
  · exact (hw u).mpr (hi.covered u (hp u ▸ hu))

lemma TrafficInv.quietly {m : Instant} {t : ℕ} {a : Act} {r : a.Res} {w : World}
    (hi : TrafficInv m) (hq : Quietly m.state w)
    (hh : ∀ u,held u (⟨t,a,r⟩ :: m.history) = held u m.history)
    (hd : drained (⟨t,a,r⟩ :: m.history) = drained m.history)
    (ho : ∀ t',owed t' (⟨t,a,r⟩ :: m.history) = owed t' m.history) :
    TrafficInv (m.after t a r w) := by
  refine hi.steady hq.toGrows ?_ hq.pending (fun u => ?_) (fun u => by rw [hh]; exact .refl _) ?_
  · simpa only [hq.dirtySet,hq.dirtyQueue] using hi.dirty
  · simp only [Waiting,Moment.after_state,Moment.after_history,hq.dirtyQueue,hd,ho]
  · simpa only [hh,hd,hq.mutex] using hi.free

lemma pendingDelta_modifyState_ne {w : World} {u v : String} (hv : v ≠ u) (g : ℕ)
    (f : UserState → UserState) : (w.modifyState u g f).pendingDelta v = w.pendingDelta v := by
  simp [World.pendingDelta,World.state?,World.modifyState,hv]

lemma pendingDelta_of_states {w : World} {u : String} {g : ℕ} (hg : w.states u = some g) :
    w.pendingDelta u = (w.stateHeap (u,g)).pendingDelta := by
  simp [World.pendingDelta,World.state?,hg]

lemma pendingDelta_modifyState_self {w : World} {u : String} {g : ℕ} (hg : w.states u = some g)
    (f : UserState → UserState) :
    (w.modifyState u g f).pendingDelta u = (f (w.stateHeap (u,g))).pendingDelta := by
  simp [World.pendingDelta,World.state?,World.modifyState,hg]

lemma addSection_cases (w : World) (u : String) (g : ℕ) (n : Int64) :
    (addSection w u g n = (none,w) ∧ w.userConfigs.lookup u = none ∧
      (w.stateHeap (u,g)).periodKey = "") ∨
    ∃ key,(key = (w.stateHeap (u,g)).periodKey ∧ key ≠ "" ∨ (w.stateHeap (u,g)).periodKey = "" ∧
          ∃ config,w.userConfigs.lookup u = some config ∧ key = keyAt config w.clock) ∧
      addSection w u g n = (some (key,(w.stateHeap (u,g)).usage + n),
        w.modifyState u g fun s => { s with periodKey := key }.add n) := by
  unfold addSection
  by_cases hk : (w.stateHeap (u,g)).periodKey = ""
  · cases hc : w.userConfigs.lookup u with
    | none => simp [hk]
    | some config => exact .inr ⟨keyAt config w.clock,.inr ⟨hk,config,rfl,rfl⟩,by simp [hk]⟩
  · refine .inr ⟨_,.inl ⟨rfl,hk⟩,?_⟩
    simp only [hk,if_false,Prod.mk.injEq,true_and]
    rfl

lemma Obliged.owed_none {t : ℕ} {a : Act} {m : Instant} (hp : Obliged t a m)
    (ha : ∀ u,a ≠ .markDirty u) : owed t m.history = none := by
  by_contra hne
  obtain ⟨u,hu⟩ := Option.ne_none_iff_exists'.mp hne
  exact ha u (hp.mark u hu)

namespace TrafficInv

variable {m : Instant} {t : ℕ} {u : String} {w : World}

lemma touch {a : Act} {r : a.Res} (hi : TrafficInv m) (hg : Grows m.state w)
    (hs : w.dirtySet = m.state.dirtySet) (hq : w.dirtyQueue = m.state.dirtyQueue)
    (hm : w.mutex = m.state.mutex) (hl : m.state.mutex .persistAccess ≠ none ∨
      (∀ v,held v (⟨t,a,r⟩ :: m.history) = held v m.history) ∧
        drained (⟨t,a,r⟩ :: m.history) = drained m.history)
    (hfl : ∀ pd ∈ held u (⟨t,a,r⟩ :: m.history),pd ∈ held u m.history ∨ pd.user = u ∧ pd.delta ≠ 0)
    (ho : ∀ v,v ≠ u → held v (⟨t,a,r⟩ :: m.history) = held v m.history ∧
      w.pendingDelta v = m.state.pendingDelta v ∧ (Waiting (m.after t a r w) v ↔ Waiting m v))
    (hse : Waiting (m.after t a r w) u ∨ held u (⟨t,a,r⟩ :: m.history) ≠ [] → Known m.state u)
    (hp : w.pendingDelta u ≠ 0 → Waiting (m.after t a r w) u) :
    TrafficInv (m.after t a r w) := by
  refine ⟨?_,fun v hv => ?_,fun v pd hpd => ?_,fun hf => ?_,fun v hv => ?_⟩
  · simpa only [Moment.after_state,hs,hq] using hi.dirty
  · by_cases hvu : v = u
    · subst hvu
      exact (hse hv).grows hg
    · obtain ⟨hh,-,hw⟩ := ho v hvu
      rw [Moment.after_history,hh,hw] at hv
      exact (hi.known v hv).grows hg
  · by_cases hvu : v = u
    · subst hvu
      exact (hfl pd hpd).elim (hi.flying v pd) id
    · rw [Moment.after_history,(ho v hvu).1] at hpd
      exact hi.flying v pd hpd
  · rw [Moment.after_state,hm] at hf
    obtain h | ⟨hh,hd⟩ := hl
    · exact absurd hf h
    · simpa only [Moment.after_history,hh,hd] using hi.free hf
  · by_cases hvu : v = u
    · subst hvu
      exact hp hv
    · obtain ⟨-,he,hw⟩ := ho v hvu
      rw [Moment.after_state,he] at hv
      exact hw.mpr (hi.covered v hv)

lemma addBytes {g : ℕ} {n : Int64} {r : Option (String × Int64)}
    (hi : TrafficInv m) (hp : TrafficPre t (.addBytes u g n) m)
    (he : exec t (.addBytes u g n) m.state r w) : TrafficInv (m.after t (.addBytes u g n) r w) := by
  obtain ⟨hg,hk⟩ := hp.needs
  have ho : owed t m.history = none := hp.owed_none (by simp)
  replace he := exec_pair he rfl
  obtain ⟨hs,-,-⟩ | ⟨key,-,hs⟩ := addSection_cases m.state u g n
  · rw [hs,Prod.mk.injEq] at he
    obtain ⟨rfl,rfl⟩ := he
    exact hi.quietly (Quietly.refl _) (fun _ => rfl) rfl
      fun t' => owed_keep (by simp [owedAfter]) t' _
  · rw [hs,Prod.mk.injEq] at he
    obtain ⟨rfl,rfl⟩ := he
    refine hi.touch (grows_modifyState _ _ _ _) rfl rfl rfl (.inr ⟨fun _ => rfl,rfl⟩)
      (fun pd h => .inl h) (fun v hvu => ⟨rfl,pendingDelta_modifyState_ne hvu _ _,?_⟩)
      (fun _ => hk) fun _ => .inr (.inr ⟨t,by simp [owed_cons,owedAfter]⟩)
    refine or_congr Iff.rfl (or_congr Iff.rfl (exists_congr fun t' => ?_))
    by_cases ht : t = t'
    · subst ht
      simp [owed_cons,owedAfter,ho,Ne.symm hvu]
    · rw [Moment.after_history,owed_other ht]

lemma consume {g : ℕ} {r : String × Int64} (hi : TrafficInv m) (hp : TrafficPre t (.consume u g) m)
    (he : exec t (.consume u g) m.state r w) : TrafficInv (m.after t (.consume u g) r w) := by
  obtain ⟨hl,hg⟩ := hp.needs
  have ho := fun t' => owed_keep (e := ⟨t,.consume u g,r⟩) (by simp [owedAfter]) t' m.history
  have hpe : r.2 = m.state.pendingDelta u := by
    replace he := exec_one he rfl
    rw [he.1,pendingDelta_of_states hg]
  obtain ⟨-,rfl⟩ := exec_one he rfl
  have hme : ∀ v,v ∈ drained (⟨t,.consume u g,r⟩ :: m.history) ↔ v ∈ drained m.history ∧ v ≠ u := by
    simp [drainedAfter]
  refine hi.touch (grows_modifyState _ _ _ _) rfl rfl rfl (.inl (by rw [hl]; simp))
    (fun pd h => ?_) (fun v hvu => ⟨?_,pendingDelta_modifyState_ne hvu _ _,?_⟩) (fun h => ?_)
    fun h => ?_
  · simp only [held_cons,heldAfter] at h
    split_ifs at h with hc
    · obtain h | h := List.mem_append.mp h
      · exact .inl h
      · rw [List.mem_singleton] at h
        exact .inr ⟨by rw [h],by rw [h]; exact hc.2⟩
    · exact .inl h
  · simp [heldAfter,Ne.symm hvu]
  · simp only [Waiting,Moment.after_state,Moment.after_history,hme,ho,hvu,ne_eq,
      not_false_eq_true,and_true]
    rfl
  · obtain h | h := h
    · refine hi.known u (.inl ?_)
      simp only [Waiting,Moment.after_state,Moment.after_history,hme,ho] at h
      exact h.imp_right fun h => h.imp_left And.left
    · by_cases hz : r.2 = 0
      · simp only [held_cons,heldAfter,hz] at h
        exact hi.known u (.inr (by simpa using h))
      · exact hi.known u (.inl (hi.covered u (hpe ▸ hz)))
  · rw [pendingDelta_modifyState_self hg] at h
    exact absurd rfl h

lemma restore {g : ℕ} {key : String} {delta : Int64} {r : Bool}
    (hi : TrafficInv m) (hp : TrafficPre t (.restore u g key delta) m)
    (he : exec t (.restore u g key delta) m.state r w) :
    TrafficInv (m.after t (.restore u g key delta) r w) := by
  obtain ⟨hl,hg,hme⟩ := hp.needs
  have ho : owed t m.history = none := hp.owed_none (by simp)
  have hk : Known m.state u := hi.known u (.inr (List.ne_nil_of_mem hme))
  obtain ⟨hr,rfl⟩ := exec_one he rfl
  refine hi.touch (grows_modifyState _ _ _ _) rfl rfl rfl (.inl (by rw [hl]; simp))
    (fun pd h => .inl ?_) (fun v hvu => ⟨?_,pendingDelta_modifyState_ne hvu _ _,?_⟩)
    (fun _ => hk) fun h => ?_
  · simp only [held_cons,heldAfter,if_true] at h
    exact List.mem_of_mem_erase h
  · simp [heldAfter,Ne.symm hvu]
  · refine or_congr Iff.rfl (or_congr Iff.rfl (exists_congr fun t' => ?_))
    by_cases ht : t = t'
    · subst ht
      cases r <;> simp [owed_cons,owedAfter,ho,Ne.symm hvu]
    · rw [Moment.after_history,owed_other ht]
  · cases r with
    | true => exact .inr (.inr ⟨t,by simp [owed_cons,owedAfter]⟩)
    | false =>
      have hs : (restoreSection (m.state.stateHeap (u,g)) key delta).2 =
          m.state.stateHeap (u,g) := by
        unfold restoreSection at hr ⊢
        split_ifs at hr ⊢
        rfl
      rw [pendingDelta_modifyState_self hg,hs,← pendingDelta_of_states hg] at h
      refine (hi.covered u h).imp_right (Or.imp_right ?_)
      rintro ⟨t',h⟩
      refine ⟨t',?_⟩
      rw [← h]
      exact owed_keep (by simp [owedAfter]) t' _

lemma rollSection_pending (s : UserState) (key : String) :
    (rollSection s key).2.pendingDelta = s.pendingDelta ∨
      (rollSection s key).2.pendingDelta = 0 := by
  unfold rollSection
  split_ifs
  · exact .inl rfl
  · exact .inl rfl
  · exact .inr rfl

lemma rollPeriod {g : ℕ} {key : String} {r : Option String}
    (hi : TrafficInv m) (hp : TrafficPre t (.rollPeriod u g key) m)
    (he : exec t (.rollPeriod u g key) m.state r w) :
    TrafficInv (m.after t (.rollPeriod u g key) r w) := by
  have hg := hp.needs.1
  obtain ⟨-,rfl⟩ := exec_one he rfl
  have hw : ∀ v,Waiting (m.after t (.rollPeriod u g key) r
      (m.state.modifyState u g fun s => (rollSection s key).2)) v ↔ Waiting m v := fun v =>
    or_congr Iff.rfl (or_congr Iff.rfl (exists_congr fun t' => by
      rw [Moment.after_history,owed_keep (by simp [owedAfter])]))
  refine hi.touch (grows_modifyState _ _ _ _) rfl rfl rfl (.inr ⟨fun _ => rfl,rfl⟩)
    (fun pd h => .inl h) (fun v hvu => ⟨rfl,pendingDelta_modifyState_ne hvu _ _,hw v⟩)
    (fun h => hi.known u (by rwa [hw] at h)) fun h => (hw u).mpr ?_
  rw [pendingDelta_modifyState_self hg] at h
  obtain hs | hs := rollSection_pending (m.state.stateHeap (u,g)) key
  · exact hi.covered u (by rwa [hs,← pendingDelta_of_states hg] at h)
  · exact absurd hs h

lemma markDirty_eq (w : World) (u : String) : w.markDirty u = { w with
      dirtySet := insert u w.dirtySet
      dirtyQueue := if u ∈ w.dirtySet then w.dirtyQueue else w.dirtyQueue ++ [u] } := by
  unfold World.markDirty
  split_ifs with hu
  · rw [Finset.insert_eq_of_mem hu]
  · rfl

lemma markDirty {r : Unit} (hi : TrafficInv m) (hp : TrafficPre t (.markDirty u) m)
    (he : exec t (.markDirty u) m.state r w) : TrafficInv (m.after t (.markDirty u) r w) := by
  have hmi : owed t m.history = some u := hp.needs
  simp only [exec_iff,outcomes,List.mem_singleton,Prod.mk.injEq,markDirty_eq] at he
  obtain ⟨-,rfl⟩ := he
  have hq : ∀ v,(v ∈ if u ∈ m.state.dirtySet then m.state.dirtyQueue
      else m.state.dirtyQueue ++ [u]) ↔ v ∈ m.state.dirtyQueue ∨ v = u := by
    intro v
    split_ifs with hu
    · exact ⟨.inl,fun h => h.elim id fun h => h ▸ (hi.dirty u).mp hu⟩
    · simp
  refine hi.steady ⟨rfl,fun _ _ h => h,le_rfl⟩ (fun v => ?_) (fun _ => rfl) (fun v => ?_)
    (fun _ => .refl _) hi.free
  · rw [hq,Finset.mem_insert,hi.dirty,or_comm]
  · simp only [Waiting,Moment.after_state,Moment.after_history,hq]
    constructor
    · rintro ((h | rfl) | h | ⟨t',h⟩)
      · exact .inl h
      · exact .inr (.inr ⟨t,hmi⟩)
      · exact .inr (.inl h)
      · by_cases ht : t = t'
        · simp [owed_cons,owedAfter,ht] at h
        · exact .inr (.inr ⟨t',(owed_other (e := ⟨t,.markDirty u,r⟩) ht).symm.trans h⟩)
    · rintro (h | h | ⟨t',h⟩)
      · exact .inl (.inl h)
      · exact .inr (.inl h)
      · by_cases ht : t = t'
        · subst ht
          exact .inl (.inr (Option.some.inj (h.symm.trans hmi)))
        · exact .inr (.inr ⟨t',(owed_other (e := ⟨t,.markDirty u,r⟩) ht).trans h⟩)

lemma takeDirty {r : List String} (hi : TrafficInv m) (hp : TrafficPre t .takeDirty m)
    (he : exec t .takeDirty m.state r w) : TrafficInv (m.after t .takeDirty r w) := by
  obtain ⟨hl,-,hd⟩ := hp.needs
  obtain ⟨rfl,rfl⟩ := exec_one he rfl
  refine hi.steady ⟨rfl,fun _ _ h => h,le_rfl⟩ (by simp) (fun _ => rfl) (fun v => ?_)
    (fun _ => .refl _) fun h => ?_
  · simp only [Waiting,Moment.after_history,hd,List.not_mem_nil,false_or,drained_cons,
      drainedAfter,owed_keep (e := ⟨t,.takeDirty,m.state.dirtyQueue⟩) (by simp [owedAfter])]
    simp
  · cases hl.symm.trans h

lemma incrBy {key : String} {delta : Int64} {r : Bool} (hi : TrafficInv m)
    (hp : TrafficPre t (.incrBy u key delta) m) (he : exec t (.incrBy u key delta) m.state r w) :
    TrafficInv (m.after t (.incrBy u key delta) r w) := by
  obtain ⟨hl,-⟩ := hp.needs
  have hw : w.mutex = m.state.mutex ∧ w.dirtySet = m.state.dirtySet ∧
      w.dirtyQueue = m.state.dirtyQueue ∧ Grows m.state w ∧
      ∀ v,w.pendingDelta v = m.state.pendingDelta v := by
    obtain ⟨-,rfl⟩ | ⟨-,rfl⟩ := exec_two he rfl <;>
      exact ⟨rfl,rfl,rfl,⟨rfl,fun _ _ h => h,le_rfl⟩,fun _ => rfl⟩
  obtain ⟨hm,hs,hq,hg,hpe⟩ := hw
  refine hi.steady hg (by rw [hs,hq]; exact hi.dirty) hpe (fun v => ?_) (fun v => ?_) fun h => ?_
  · simp only [Waiting,Moment.after_state,Moment.after_history,hq,
      owed_keep (e := ⟨t,.incrBy u key delta,r⟩) (by simp [owedAfter])]
    cases r <;> rfl
  · cases r with
    | true =>
      simp only [held_cons,heldAfter]
      split_ifs
      · exact List.erase_subset
      · exact .refl _
    | false => exact .refl _
  · rw [hm,hl] at h
    cases h

lemma lock {r : Unit} (hi : TrafficInv m) (he : exec t (.lock .persistAccess) m.state r w) :
    TrafficInv (m.after t (.lock .persistAccess) r w) := by
  obtain ⟨hn,-,rfl⟩ := exec_if he rfl
  refine hi.steady ⟨rfl,fun _ _ h => h,le_rfl⟩ hi.dirty (fun _ => rfl) (fun v => ?_)
    (fun _ => .refl _) fun h => ?_
  · refine or_congr Iff.rfl (or_congr Iff.rfl (exists_congr fun t' => ?_))
    rw [Moment.after_history,owed_keep (by simp [owedAfter])]
  · simp at h

lemma unlock {r : Unit} (hi : TrafficInv m) (hp : TrafficPre t (.unlock .persistAccess) m)
    (he : exec t (.unlock .persistAccess) m.state r w) :
    TrafficInv (m.after t (.unlock .persistAccess) r w) := by
  obtain ⟨-,-,hd⟩ := hp.needs
  obtain ⟨-,rfl⟩ := exec_one he rfl
  refine hi.steady ⟨rfl,fun _ _ h => h,le_rfl⟩ hi.dirty (fun _ => rfl) (fun v => ?_)
    (fun _ => List.nil_subset _) fun h => ⟨fun _ => rfl,rfl⟩
  simp only [Waiting,Moment.after_state,Moment.after_history,hd,drained_cons,drainedAfter,
    owed_keep (e := ⟨t,.unlock .persistAccess,r⟩) (by simp [owedAfter])]

/-- Every action of the traffic keeps the invariant. -/
theorem step {a : Act} {r : a.Res} (hi : TrafficInv m) (hp : TrafficPre t a m)
    (he : exec t a m.state r w) : TrafficInv (m.after t a r w) := by
  by_cases hs : a.Silent
  · exact hi.quietly (quietly_of_silent hs he) (fun u => held_silent hs u _) (drained_silent hs _)
      fun t' => owed_silent hs t' _
  · have ht := hp.traffic
    cases a with
    | addBytes u g n => exact hi.addBytes hp he
    | consume u g => exact hi.consume hp he
    | restore u g key delta => exact hi.restore hp he
    | rollPeriod u g key => exact hi.rollPeriod hp he
    | storeUsage u g _ | storeExceeded u g _ | trip u g =>
      obtain ⟨-,rfl⟩ := exec_one he rfl
      exact hi.quietly ⟨grows_modifyState _ _ _ _,rfl,rfl,rfl,
        pendingDelta_modifyState fun _ => rfl⟩ (fun _ => rfl) rfl
        fun t' => owed_keep (by simp [owedAfter]) t' _
    | markDirty u => exact hi.markDirty hp he
    | takeDirty => exact hi.takeDirty hp he
    | incrBy u key delta => exact hi.incrBy hp he
    | lock x =>
      cases x with
      | persistAccess => exact hi.lock he
      | applyMu => exact absurd ht hs
    | unlock x =>
      cases x with
      | persistAccess => exact hi.unlock hp he
      | applyMu => exact absurd ht hs
    | _ => exact absurd ht hs

end TrafficInv

def trafficContract : Contract Act Act.Res World where
  exec := exec
  inv := TrafficInv
  pre := TrafficPre
  keeps := TrafficInv.step

end SingBoxAuth.TrafficQuota
