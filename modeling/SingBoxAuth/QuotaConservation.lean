import SingBoxAuth.QuotaEffects

/-! Conservation of bytes between AddBytes and the store, within one period. -/
namespace SingBoxAuth.TrafficQuota
open Interleaving

lemma clockRead_step {t t' : ℕ} {a : Act} {m : Instant} {r : a.Res} {w : World} {now : ℤ}
    (he : exec t a m.state r w) (h : clockRead t' (⟨t,a,r⟩ :: m.history) = some now) :
    clockRead t' m.history = some now ∨ now = m.state.clock := by
  by_cases ht : t = t'
  · cases a <;> try exact .inl (by simpa [clockRead,clockReadAfter,ht] using h)
    replace he := exec_one he rfl
    right
    simpa [clockRead,clockReadAfter,ht,he.1] using h.symm
  · exact .inl (clockRead_other (e := ⟨t,a,r⟩) ht ▸ h)

/-- The bytes of a user that the running flush has in its hands. -/
def inFlight (u : String) (h : Past) : Int64 := ((held u h).map PendingDelta.delta).sum

def countingOps : Ops Act Act.Res World := fun _ _ p =>
  (∃ u n, p = addBytes u n) ∨ p = void flushPending ∨ ∃ d, p = perform (.tick d)

def within (config : QuotaConfig) (key : String) : Exec Act Act.Res World :=
  fun t a w r w' => exec t a w r w' ∧ keyAt config w'.clock = key

def Act.Counting : Act → Prop
  | .rollPeriod _ _ _ | .deleteRecord _ _ => False
  | _ => True

lemma countingOps_traffic (t : ℕ) (m : Instant) (p : Op Unit) (h : countingOps t m p) :
    trafficOps t m p := by
  obtain h | h | h := h
  · exact .inl h
  · exact .inr (.inl h)
  · exact .inr (.inr (.inr h))

lemma countingOps_uses (t : ℕ) (m : Instant) (p : Op Unit) (h : countingOps t m p) :
    p.Uses Act.Counting := by
  obtain ⟨u,n,rfl⟩ | rfl | ⟨d,rfl⟩ := h
  · refine addBytes_uses (fun a ha => ?_) u n
    cases a <;> first | exact ha.elim | trivial
  · refine Prog.Uses.bind (flushPending_uses fun a ha => ?_) fun _ => trivial
    cases a <;> first | exact ha.elim | trivial
  · exact Prog.uses_perform.mpr trivial

structure Ledger (start : Int64) (u : String) (config : QuotaConfig) (key : String)
    (m : Instant) : Prop where
  configured : m.state.userConfigs.lookup u = some config
  period : keyAt config m.state.clock = key
  clocks : ∀ t now, clockRead t m.history = some now → keyAt config now = key
  state : ∀ s, m.state.state? u = some s →
    s.periodKey = key ∨ s.periodKey = "" ∧ s.pendingDelta = 0 ∧ held u m.history = []
  keys : ∀ pd ∈ held u m.history, pd.periodKey = key
  balance : m.state.persisted u key + m.state.pendingDelta u + inFlight u m.history =
    start + accepted u m.history

lemma pendingDelta_of_state? {w : World} {u : String} {s : UserState} (h : w.state? u = some s) :
    w.pendingDelta u = s.pendingDelta := by
  simp [World.pendingDelta,h]

lemma accepted_untouched {t : ℕ} {a : Act} {r : a.Res} {u : String} (hu : ¬ a.Touches u) (h : Past) :
    accepted u (⟨t,a,r⟩ :: h) = accepted u h := by
  cases a <;> try rfl
  rcases r with _ | p
  · rfl
  · simp [accepted,acceptedAfter,show ¬ _ = u from hu]

section step

variable {start : Int64} {u : String} {config : QuotaConfig} {key : String} {m : Instant} {t : ℕ}
  {w : World}

lemma Ledger.next {a : Act} {r : a.Res} (h : Ledger start u config key m) (hp : TrafficPre t a m)
    (he : within config key t a m.state r w)
    (hs : ∀ s,w.state? u = some s → s.periodKey = key ∨
      s.periodKey = "" ∧ s.pendingDelta = 0 ∧ held u (⟨t,a,r⟩ :: m.history) = [])
    (hk : ∀ pd ∈ held u (⟨t,a,r⟩ :: m.history),pd.periodKey = key)
    (hb : w.persisted u key + w.pendingDelta u + inFlight u (⟨t,a,r⟩ :: m.history) =
      start + accepted u (⟨t,a,r⟩ :: m.history)) :
    Ledger start u config key (m.after t a r w) := by
  refine ⟨?_,he.2,fun t' now hn => ?_,hs,hk,hb⟩
  · exact (congrArg (AList.lookup u) (grows_of_traffic hp.traffic he.1).configs).trans h.configured
  · obtain hn | rfl := clockRead_step he.1 hn
    · exact h.clocks t' now hn
    · exact h.period

lemma Ledger.untouched {a : Act} {r : a.Res} (h : Ledger start u config key m)
    (hp : TrafficPre t a m) (he : within config key t a m.state r w) (hu : ¬ a.Touches u) :
    Ledger start u config key (m.after t a r w) := by
  obtain ⟨hs,hst,hh⟩ := TrafficQuota.untouched hp he.1 hu
  refine h.next hp he ?_ ?_ ?_
  · rw [hs,hh]
    exact h.state
  · rw [hh]
    exact h.keys
  · rw [accepted_untouched hu,inFlight,hh,World.persisted,hst,World.pendingDelta,hs]
    exact h.balance

lemma Ledger.modify {a : Act} {r : a.Res} {g : ℕ} {f : UserState → UserState}
    (h : Ledger start u config key m) (hp : TrafficPre t a m)
    (he : within config key t a m.state r (m.state.modifyState u g f))
    (hg : m.state.states u = some g)
    (hf : ∀ s,(f s).pendingDelta = s.pendingDelta ∧
      ((f s).periodKey = s.periodKey ∨ (f s).periodKey = key))
    (hh : held u (⟨t,a,r⟩ :: m.history) = held u m.history)
    (ha : accepted u (⟨t,a,r⟩ :: m.history) = accepted u m.history) :
    Ledger start u config key (m.after t a r (m.state.modifyState u g f)) := by
  have hs := state?_of_states hg
  refine h.next hp he (fun s' hs' => ?_) (by rw [hh]; exact h.keys) ?_
  · rw [state?_modifyState hg,hs,Option.map_some,Option.some.injEq] at hs'
    obtain ⟨hd,hk | hk⟩ := hf (m.state.stateHeap (u,g))
    · rw [← hs',hk,hd,hh]
      exact h.state _ hs
    · exact .inl (hs' ▸ hk)
  · rw [ha,inFlight,hh,pendingDelta_of_state? (s := f (m.state.stateHeap (u,g))),(hf _).1,
      ← pendingDelta_of_state? hs]
    · exact h.balance
    · rw [state?_modifyState hg,hs,Option.map_some]

lemma sum_erase {pds : List PendingDelta} {pd : PendingDelta} (h : pd ∈ pds) :
    ((pds.erase pd).map PendingDelta.delta).sum + pd.delta = (pds.map PendingDelta.delta).sum := by
  induction pds with
  | nil => cases h
  | cons x pds ih =>
    by_cases hx : x = pd
    · subst hx
      simp only [List.erase_cons_head,List.map_cons,List.sum_cons]
      grind
    · have hm : pd ∈ pds := (List.mem_cons.mp h).resolve_left (Ne.symm hx)
      rw [List.erase_cons_tail (by simpa using hx)]
      simp only [List.map_cons,List.sum_cons]
      have := ih hm
      grind

lemma sum_concat (pds : List PendingDelta) (pd : PendingDelta) :
    ((pds ++ [pd]).map PendingDelta.delta).sum = (pds.map PendingDelta.delta).sum + pd.delta := by
  induction pds with
  | nil => simp
  | cons x pds ih =>
    simp only [List.cons_append,List.map_cons,List.sum_cons,ih]
    grind

lemma Ledger.stateFor {g : ℕ} (h : Ledger start u config key m) (hi : TrafficInv m)
    (hp : TrafficPre t (.stateFor u) m) (he : within config key t (.stateFor u) m.state g w) :
    Ledger start u config key (m.after t (.stateFor u) g w) := by
  have hw : w = (m.state.stateFor u).2 := by
    have he' := he.1
    replace he' := exec_pair he' rfl
    rw [← he']
  refine h.next hp he (fun s hs => ?_) h.keys ?_
  · rw [hw,state?_stateFor,Option.some.injEq] at hs
    cases hold : m.state.state? u with
    | some s' =>
      rw [hold,Option.getD_some] at hs
      exact hs ▸ h.state s' hold
    | none =>
      rw [hold,Option.getD_none] at hs
      refine .inr ⟨hs ▸ rfl,hs ▸ rfl,?_⟩
      by_contra hne
      obtain ⟨g',hg'⟩ := Option.isSome_iff_exists.mp (hi.known u (.inr hne)).1
      simp [World.state?,hg'] at hold
  · rw [hw,pendingDelta_stateFor,World.persisted,stateFor_store]
    exact h.balance

lemma Ledger.addBytes {g : ℕ} {n : Int64} {r : Option (String × Int64)}
    (h : Ledger start u config key m) (hp : TrafficPre t (.addBytes u g n) m)
    (he : within config key t (.addBytes u g n) m.state r w) :
    Ledger start u config key (m.after t (.addBytes u g n) r w) := by
  have hg := hp.needs.1
  have hs := state?_of_states hg
  have he' := he.1
  replace he' := exec_pair he' rfl
  obtain ⟨-,hn,-⟩ | ⟨k,hk,ha⟩ := addSection_cases m.state u g n
  · rw [h.configured] at hn
    cases hn
  rw [ha,Prod.mk.injEq] at he'
  obtain ⟨rfl,rfl⟩ := he'
  have hke : k = key := by
    obtain ⟨rfl,hne⟩ | ⟨-,c,hc,rfl⟩ := hk
    · exact (h.state _ hs).resolve_right fun h => hne h.1
    · rw [h.configured,Option.some.injEq] at hc
      exact hc ▸ h.period
  refine h.next hp he (fun s' hs' => .inl ?_) h.keys ?_
  · rw [state?_modifyState hg,hs,Option.map_some,Option.some.injEq] at hs'
    exact hs' ▸ hke
  · have hb := h.balance
    rw [pendingDelta_of_states hg] at hb
    rw [pendingDelta_modifyState_self hg]
    simp only [accepted,List.foldr_cons,acceptedAfter,if_true,UserState.add] at hb ⊢
    rw [← accepted] at hb ⊢
    simp only [inFlight,held_cons,heldAfter,World.persisted,World.modifyState] at hb ⊢
    grind

lemma Ledger.consume {g : ℕ} {r : String × Int64} (h : Ledger start u config key m)
    (hp : TrafficPre t (.consume u g) m) (he : within config key t (.consume u g) m.state r w) :
    Ledger start u config key (m.after t (.consume u g) r w) := by
  have hg := hp.needs.2
  have hs := state?_of_states hg
  have hb := h.balance
  rw [pendingDelta_of_states hg] at hb
  have he' := he.1
  obtain ⟨rfl,rfl⟩ := exec_one he' rfl
  by_cases hz : (m.state.stateHeap (u,g)).pendingDelta = 0
  · have hh : held u (⟨t,.consume u g,((m.state.stateHeap (u,g)).periodKey,
        (m.state.stateHeap (u,g)).pendingDelta)⟩ :: m.history) = held u m.history := by
      simp [heldAfter,hz]
    refine h.next hp he (fun s' hs' => ?_) (by rw [hh]; exact h.keys) ?_
    · rw [state?_modifyState hg,hs,Option.map_some,Option.some.injEq] at hs'
      rw [← hs',hh]
      exact (h.state _ hs).imp_right fun h => ⟨h.1,rfl,h.2.2⟩
    · rw [pendingDelta_modifyState_self hg,inFlight,hh,← inFlight,← hz]
      exact hb
  · have hk : (m.state.stateHeap (u,g)).periodKey = key :=
      (h.state _ hs).resolve_right fun h => hz h.2.1
    have hh : held u (⟨t,.consume u g,((m.state.stateHeap (u,g)).periodKey,
        (m.state.stateHeap (u,g)).pendingDelta)⟩ :: m.history) =
        held u m.history ++ [⟨u,key,(m.state.stateHeap (u,g)).pendingDelta⟩] := by
      simp [heldAfter,hz,hk]
    refine h.next hp he (fun s' hs' => .inl ?_) (fun pd hpd => ?_) ?_
    · rw [state?_modifyState hg,hs,Option.map_some,Option.some.injEq] at hs'
      exact hs' ▸ hk
    · rw [hh] at hpd
      obtain hpd | hpd := List.mem_append.mp hpd
      · exact h.keys pd hpd
      · rw [List.mem_singleton] at hpd
        rw [hpd]
    · rw [pendingDelta_modifyState_self hg,inFlight,hh,sum_concat]
      simp only [inFlight,World.persisted,World.modifyState] at hb ⊢
      rw [show accepted u (⟨t,.consume u g,_⟩ :: m.history) = accepted u m.history from rfl]
      grind

lemma Ledger.restore {g : ℕ} {k : String} {d : Int64} {r : Bool}
    (h : Ledger start u config key m) (hp : TrafficPre t (.restore u g k d) m)
    (he : within config key t (.restore u g k d) m.state r w) :
    Ledger start u config key (m.after t (.restore u g k d) r w) := by
  obtain ⟨-,hg,hme⟩ := hp.needs
  have hs := state?_of_states hg
  have hk : k = key := h.keys _ hme
  have hke : (m.state.stateHeap (u,g)).periodKey = key :=
    (h.state _ hs).resolve_right fun h => List.ne_nil_of_mem hme h.2.2
  have hb := h.balance
  rw [pendingDelta_of_states hg] at hb
  have he' := he.1
  obtain ⟨-,rfl⟩ := exec_one he' rfl
  have hh : held u (⟨t,.restore u g k d,r⟩ :: m.history) = (held u m.history).erase ⟨u,k,d⟩ := by
    simp [heldAfter]
  refine h.next hp he (fun s' hs' => .inl ?_) (fun pd hpd => ?_) ?_
  · rw [state?_modifyState hg,hs,Option.map_some,Option.some.injEq] at hs'
    rw [← hs',restoreSection,if_pos (hke.trans hk.symm)]
    exact hke
  · exact h.keys pd (List.mem_of_mem_erase (hh ▸ hpd))
  · rw [pendingDelta_modifyState_self hg,restoreSection,if_pos (hke.trans hk.symm),inFlight,hh]
    have hsu := sum_erase hme
    simp only [inFlight,World.persisted,World.modifyState] at hb ⊢
    rw [show accepted u (⟨t,.restore u g k d,r⟩ :: m.history) = accepted u m.history from rfl]
    grind

lemma Ledger.incrBy {k : String} {d : Int64} {r : Bool} (h : Ledger start u config key m)
    (hp : TrafficPre t (.incrBy u k d) m) (he : within config key t (.incrBy u k d) m.state r w) :
    Ledger start u config key (m.after t (.incrBy u k d) r w) := by
  have hme := hp.needs.2
  have hk : k = key := h.keys _ hme
  have hb := h.balance
  have he' := he.1
  obtain ⟨rfl,rfl⟩ | ⟨rfl,rfl⟩ := exec_two he' rfl
  · have hh : held u (⟨t,.incrBy u k d,true⟩ :: m.history) = (held u m.history).erase ⟨u,k,d⟩ := by
      simp [heldAfter]
    refine h.next hp he (fun s hs => ?_) (fun pd hpd => ?_) ?_
    · exact .inl ((h.state s hs).resolve_right fun h => List.ne_nil_of_mem hme h.2.2)
    · exact h.keys pd (List.mem_of_mem_erase (hh ▸ hpd))
    · have hsu := sum_erase hme
      rw [inFlight,hh]
      simp only [inFlight] at hb
      rw [show accepted u (⟨t,.incrBy u k d,true⟩ :: m.history) = accepted u m.history from rfl,
        show (m.state.setRecord u k (some (m.state.persisted u k + d))).pendingDelta u =
          m.state.pendingDelta u from rfl]
      simp only [World.persisted,World.setRecord,hk,Function.update_self,Option.getD_some] at hb ⊢
      grind
  · exact h.next hp he h.state h.keys hb

/-- Every step within the period keeps the books. -/
theorem Ledger.step {a : Act} {r : a.Res} (h : Ledger start u config key m) (hi : TrafficInv m)
    (hp : TrafficPre t a m) (ha : a.Counting) (he : within config key t a m.state r w) :
    Ledger start u config key (m.after t a r w) := by
  by_cases hu : a.Touches u
  · cases a with
    | stateFor v => subst hu; exact h.stateFor hi hp he
    | addBytes v g n => subst hu; exact h.addBytes hp he
    | consume v g => subst hu; exact h.consume hp he
    | restore v g k d => subst hu; exact h.restore hp he
    | incrBy v k d => subst hu; exact h.incrBy hp he
    | setPeriodKeyIfEmpty v g k =>
      subst hu
      obtain ⟨hg,c,now,hc,hr,hk⟩ := hp.needs
      have hke : k = key := by
        rw [h.configured,Option.some.injEq] at hc
        rw [hk,← hc]
        exact h.clocks t now hr
      have he' := he.1
      obtain ⟨-,rfl⟩ := exec_one he' rfl
      refine h.modify hp he hg (fun s => ?_) rfl rfl
      split_ifs
      · exact ⟨rfl,.inr hke⟩
      · exact ⟨rfl,.inl rfl⟩
    | storeUsage v g b =>
      subst hu
      have he' := he.1
      obtain ⟨-,rfl⟩ := exec_one he' rfl
      exact h.modify hp he hp.needs.2.1 (fun s => ⟨rfl,.inl rfl⟩) rfl rfl
    | storeExceeded v g b =>
      subst hu
      have he' := he.1
      obtain ⟨-,rfl⟩ := exec_one he' rfl
      exact h.modify hp he hp.needs.2.1 (fun s => ⟨rfl,.inl rfl⟩) rfl rfl
    | trip v g =>
      subst hu
      have he' := he.1
      obtain ⟨-,rfl⟩ := exec_one he' rfl
      exact h.modify hp he hp.needs (fun s => ⟨rfl,.inl rfl⟩) rfl rfl
    | rollPeriod v g k | deleteRecord v k => exact ha.elim
    | _ => exact hu.elim
  · exact h.untouched hp he hu

end step

section flush

variable {config : QuotaConfig} {key : String} {t : ℕ}

def Act.Succeeds : (a : Act) → a.Res → Prop
  | .incrBy _ _ _, done => done = true
  | _, _ => True

def succeeding (config : QuotaConfig) (key : String) : Exec Act Act.Res World :=
  fun t a w r w' => within config key t a w r w' ∧ a.Succeeds r

/-- One flush that runs alone and whose increments succeed: it queues nobody, and
every action it issues can be carried out. -/
def soloFlush (config : QuotaConfig) (key : String) (t : ℕ) : Contract Act Act.Res World where
  exec := succeeding config key
  inv m := keyAt config m.state.clock = key
  pre u a m := u = t ∧ (∀ v, a ≠ .markDirty v) ∧ ∃ r w, succeeding config key u a m.state r w
  keeps _ _ he := he.1.2

lemma stable_solo (P : Instant → Prop) : (soloFlush config key t).Stable t P :=
  Contract.stable_of_step fun _ _ _ _ _ hu _ hp => absurd hp.1 hu

def Act.Solo : Act → Prop
  | .loadState _ | .consume _ _ | .loadConfig _ | .incrBy _ _ _ | .stateFor _ | .iterate _
  | .loadMany _ _ | .now | .keyConfig _ _ | .setPeriodKeyIfEmpty _ _ _ | .storeUsage _ _ _
  | .storeExceeded _ _ _ | .trip _ _ | .loadConns _ | .listConns _ _ | .markConn _
  | .unlock .persistAccess => True
  | _ => False

lemma solo_enabled {a : Act} (ha : a.Solo) (w : World) :
    ∃ r w',exec t a w r w' ∧ w'.clock = w.clock ∧ a.Succeeds r := by
  cases a with
  | iterate keys =>
    refine ⟨keys,w,?_,rfl,trivial⟩
    simp only [exec_iff,outcomes,List.mem_map]
    exact ⟨keys,List.mem_permutations'.mpr (List.Perm.refl keys),rfl⟩
  | stateFor u =>
    refine ⟨(w.stateFor u).1,(w.stateFor u).2,List.mem_singleton_self _,?_,trivial⟩
    unfold World.stateFor
    split <;> rfl
  | incrBy _ _ _ => exact ⟨true,_,List.mem_cons_self ..,rfl,rfl⟩
  | loadMany _ _ => exact ⟨_,_,List.mem_cons_self ..,rfl,trivial⟩
  | loadState _ | consume _ _ | loadConfig _ | now | keyConfig _ _ | setPeriodKeyIfEmpty _ _ _
  | storeUsage _ _ _ | storeExceeded _ _ _ | trip _ _ | loadConns _ | listConns _ _ | markConn _
  | unlock _ => exact ⟨_,_,List.mem_singleton_self _,rfl,trivial⟩
  | _ => exact ha.elim

lemma solo_frame {a : Act} {w w' : World} {r : a.Res} (ha : a.Solo) (he : exec t a w r w') :
    w'.dirtyQueue = w.dirtyQueue ∧ w'.userConfigs = w.userConfigs := by
  cases a with
  | iterate keys =>
    obtain ⟨-,rfl⟩ := exec_map he rfl
    exact ⟨rfl,rfl⟩
  | stateFor u =>
    have hq := quietly_of_silent (a := .stateFor u) trivial he
    exact ⟨hq.dirtyQueue,hq.configs⟩
  | incrBy _ _ _ | loadMany _ _ =>
    obtain ⟨-,rfl⟩ | ⟨-,rfl⟩ := exec_two he rfl <;> exact ⟨rfl,rfl⟩
  | loadState _ | consume _ _ | loadConfig _ | now | keyConfig _ _ | setPeriodKeyIfEmpty _ _ _
  | storeUsage _ _ _ | storeExceeded _ _ _ | trip _ _ | loadConns _ | listConns _ _ | markConn _
  | unlock _ =>
    replace he := exec_one he rfl
    exact he.2 ▸ ⟨rfl,rfl⟩
  | _ => exact ha.elim

/-- The queue has been taken and nothing has been queued since. -/
def Emptied (m : Instant) : Prop := m.state.dirtyQueue = []

lemma solo_pre {a : Act} {m : Instant} (ha : a.Solo) (hi : keyAt config m.state.clock = key) :
    (soloFlush config key t).pre t a m := by
  obtain ⟨r,w,he,hc,hr⟩ := solo_enabled (t := t) ha m.state
  refine ⟨rfl,fun v => ?_,r,w,⟨he,hc ▸ hi⟩,hr⟩
  cases a <;> first | exact ha.elim | simp

lemma solo_uses {α : Type} {p : Op α} (hp : p.Uses Act.Solo) :
    (soloFlush config key t).Triple t Emptied p fun _ => Emptied :=
  Contract.Triple.of_uses (stable_solo _) (fun _ ha _ hi hm =>
    ⟨solo_pre ha hi,fun _ _ he _ => (solo_frame ha he.1.1).1.trans hm⟩) hp

lemma solo_mustPeriodKey {u : String} {c : QuotaConfig} {now : ℤ} :
    (soloFlush config key t).Triple t (fun m => Emptied m ∧ m.state.userConfigs.lookup u = some c)
      (mustPeriodKey .loadUsage u now) fun _ => Emptied := by
  have hk : (soloFlush config key t).Triple t
      (fun m => Emptied m ∧ m.state.userConfigs.lookup u = some c)
      (getCurrentPeriodKey .loadUsage u now) fun r m => Emptied m ∧ ∃ k,r = .ok k := by
    refine Contract.Triple.bind (R := fun r m => Emptied m ∧ r = some c)
      (Contract.Triple.perform (stable_solo _) fun m hi hm => ⟨solo_pre trivial hi,
        fun r w he _ => ⟨(solo_frame (by trivial) he.1.1).1.trans hm.1,?_⟩⟩) fun r => ?_
    · have he' := he.1.1
      replace he' := exec_one he' rfl
      exact he'.1.trans hm.2
    · cases r with
      | none => exact fun m _ hm => by simp at hm
      | some c' => exact Contract.Triple.ret fun m _ hm => ⟨hm.1,_,periodKey_eq c' now⟩
  refine Contract.Triple.bind hk fun r => ?_
  cases r with
  | ok k => exact Contract.Triple.ret fun m _ hm => hm.1
  | error e => exact fun m _ hm => by simp at hm

lemma solo_loadUsage (u : String) (bytes : Int64) :
    (soloFlush config key t).Triple t Emptied (loadUsage u bytes) fun _ => Emptied := by
  refine Contract.Triple.bind (R := fun r m => Emptied m ∧ m.state.userConfigs.lookup u = r)
    (Contract.Triple.perform (stable_solo _) fun m hi hm => ⟨solo_pre trivial hi,
      fun r w he _ => ⟨(solo_frame (by trivial) he.1.1).1.trans hm,loadConfig_exec he.1.1⟩⟩)
    fun c => ?_
  cases c with
  | none => exact Contract.Triple.ret fun m _ hm => hm.1
  | some c =>
    have hk : ∀ {a : Act},a.Solo → (soloFlush config key t).Triple t
        (fun m => Emptied m ∧ m.state.userConfigs.lookup u = some c) (perform a)
        fun _ m => Emptied m ∧ m.state.userConfigs.lookup u = some c := fun ha =>
      Contract.Triple.perform (stable_solo _) fun m hi hm => ⟨solo_pre ha hi,fun r w he _ =>
        ⟨(solo_frame ha he.1.1).1.trans hm.1,
          (congrArg (AList.lookup u) (solo_frame ha he.1.1).2).trans hm.2⟩⟩
    refine Contract.Triple.bind (hk trivial) fun g => Contract.Triple.bind (hk trivial)
      fun now => Contract.Triple.bind solo_mustPeriodKey fun k => solo_uses ?_
    refine uses_perform_bind (by trivial) fun _ => uses_perform_bind (by trivial) fun _ => ?_
    unfold settleExceeded
    split_ifs
    · refine tripExceeded_uses (fun a ha => ?_) (by trivial)
      cases a <;> first | exact ha.elim | trivial
    · exact Prog.uses_perform.mpr trivial

lemma solo_reloadPeriods (groups : PeriodUsers) (keys : List String) (errs : List FlushError) :
    (soloFlush config key t).Triple t Emptied (reloadPeriods groups keys errs)
      fun _ => Emptied := by
  have hu : ∀ totals users,(soloFlush config key t).Triple t Emptied
      (reloadUsers totals users) fun _ => Emptied := by
    intro totals users
    induction users with
    | nil => exact Contract.Triple.ret fun _ _ h => h
    | cons u users ih =>
      unfold reloadUsers
      split
      · exact ih
      · exact Contract.Triple.bind (solo_loadUsage u _) fun _ => ih
  induction keys generalizing errs with
  | nil => exact Contract.Triple.ret fun _ _ h => h
  | cons k keys ih =>
    refine Contract.Triple.bind (solo_uses (Prog.uses_perform.mpr trivial)) fun r => ?_
    cases r with
    | none => exact ih _
    | some totals => exact Contract.Triple.bind (hu totals _) fun _ => ih _

lemma solo_persistDeltas (active : List PendingDelta) (groups : PeriodUsers)
    (errs : List FlushError) :
    (soloFlush config key t).Triple t Emptied (persistDeltas active groups errs)
      fun _ => Emptied := by
  induction active generalizing groups errs with
  | nil => exact Contract.Triple.ret fun _ _ h => h
  | cons pd active ih =>
    refine Contract.Triple.bind (R := fun done m => Emptied m ∧ done = true)
      (Contract.Triple.perform (stable_solo _) fun m hi hm => ⟨solo_pre trivial hi,
        fun r w he _ => ⟨(solo_frame (by trivial) he.1.1).1.trans hm,he.2⟩⟩) fun done => ?_
    cases done with
    | true => exact (ih _ _).weaken fun _ _ h => h.1
    | false => exact fun m _ hm => by simp at hm

lemma solo_flushPending : (soloFlush config key t).Triple t
    (fun m => m.state.mutex .persistAccess = none) (void flushPending) fun _ => Emptied := by
  refine Contract.Triple.bind ?_ fun _ => Contract.Triple.ret fun _ _ h => h
  refine Contract.Triple.bind (R := fun _ _ => True) (Contract.Triple.perform (stable_solo _)
    fun m hi hm => ⟨⟨rfl,by simp,(),
      { m.state with mutex := Function.update m.state.mutex .persistAccess (some t) },
      ⟨?_,hi⟩,trivial⟩,fun _ _ _ _ => trivial⟩) fun _ => ?_
  · simp only [exec_iff,outcomes,if_pos hm,List.mem_singleton]
  refine Contract.Triple.bind (R := fun _ => Emptied) (Contract.Triple.bind (R := fun _ => Emptied)
    (Contract.Triple.perform (stable_solo _) fun m hi _ =>
      ⟨⟨rfl,by simp,_,_,⟨List.mem_singleton_self _,hi⟩,trivial⟩,fun r w he _ => ?_⟩)
    fun users => solo_uses ?_) fun pending => ?_
  · have he' := he.1.1
    replace he' := exec_one he' rfl
    exact he'.2 ▸ rfl
  · exact consumeUsers_uses (fun _ => trivial) (fun _ _ => trivial) users []
  refine Contract.Triple.bind (solo_uses (filterActive_uses (fun _ => trivial) pending []))
    fun active => Contract.Triple.bind (R := fun _ => Emptied) ?_ fun errs =>
      solo_uses (uses_perform_bind trivial fun _ => trivial)
  unfold flushActive
  split_ifs
  · exact Contract.Triple.ret fun _ _ h => h
  · exact Contract.Triple.bind (solo_persistDeltas active [] []) fun r =>
      Contract.Triple.bind (solo_uses (Prog.uses_perform.mpr trivial)) fun keys =>
        solo_reloadPeriods r.1 keys r.2

end flush

lemma at_of_owed {c : Config Act Act.Res World} {t : ℕ} {u : String} (hi : TrafficInv c.moment)
    (hs : trafficContract.Safe t (fun _ => Idle t) (c.pool t) c.moment)
    (ho : owed t c.moment.history = some u) : c.At t (.markDirty u) := by
  cases hp : c.pool t with
  | ret x =>
    rw [hp] at hs
    have hn := (show Idle t c.moment from hs).calm.unowed
    rw [ho] at hn
    cases hn
  | act a next =>
    rw [hp] at hs
    have ha := (hs.pre hi).mark u ho
    subst ha
    exact ⟨next,hp⟩

def noOps : Ops Act Act.Res World := fun _ _ _ => False

lemma ledger_reached {w : World} {u : String} {config : QuotaConfig} {key : String}
    (hw : Rested w) (hc : w.userConfigs.lookup u = some config) (hk : keyAt config w.clock = key)
    (hs : ∀ s,w.state? u = some s → s.periodKey = "" ∨ s.periodKey = key)
    {c : Config Act Act.Res World} (run : Reach (within config key) countingOps (Config.idle w) c) :
    Ledger (w.persisted u key) u config key c.moment := by
  refine traffic_also countingOps_traffic (fun _ _ _ _ _ h => h.1) countingOps_uses
    (fun t a m r w' hi hp ha _ he h => h.step hi hp ha he) hw ?_ run
  refine ⟨hc,hk,nofun,fun s h => ?_,nofun,?_⟩
  · obtain h' | h' := hs s h
    · exact .inr ⟨h',(pendingDelta_of_state? h).symm.trans (hw.pending u),rfl⟩
    · exact .inl h'
  · simp [inFlight,held,accepted,hw.pending u]

lemma flush_alone {config : QuotaConfig} {key : String} {c d : Config Act Act.Res World} {t : ℕ}
    (hk : keyAt config c.moment.state.clock = key)
    (hf : c.moment.state.mutex .persistAccess = none) (hq : c.Quiet)
    (run : Reach (succeeding config key) noOps (c.start t (void flushPending)) d) :
    ((∃ e,Step (succeeding config key) noOps d e) ∨ d.Quiet ∧ Emptied d.moment) ∧
      ∀ u,accepted u d.moment.history = accepted u c.moment.history := by
  have hid : ∀ t',(soloFlush config key t).Stable t' fun m => t' = t → Emptied m := by
    intro t'
    by_cases ht : t' = t
    · exact ht ▸ stable_solo _
    · exact fun _ _ _ _ h => absurd h ht
  have hstart : ∀ t' m (p : Op Unit),noOps t' m p → (soloFlush config key t).inv m →
      (t' = t → Emptied m) → (soloFlush config key t).Safe t' (fun _ m => t' = t → Emptied m) p m :=
    fun _ _ _ h => h.elim
  have hpo : ∀ t',(soloFlush config key t).Safe t' (fun _ m => t' = t → Emptied m)
      ((c.start t (void flushPending)).pool t') c.moment := by
    intro t'
    by_cases ht : t' = t
    · subst ht
      simp only [Config.start,Function.update_self]
      exact (solo_flushPending.conseq (fun _ _ h => h) fun _ _ _ h _ => h) _ hk hf
    · simp only [Config.start,Function.update_of_ne ht,hq t']
      exact fun h => absurd h ht
  obtain ⟨hi,hsa⟩ := Contract.sound hid hstart run hk hpo
  refine ⟨?_,fun u => ?_⟩
  · by_cases hd : ∃ t' a next,d.pool t' = .act a next
    · obtain ⟨t',a,next,hp⟩ := hd
      have hs := hsa t'
      rw [hp] at hs
      obtain ⟨-,-,r,w,he⟩ := hs.pre hi
      exact .inl ⟨_,.run hp trivial he⟩
    · have hr : d.Quiet := fun t' => by
        cases hp : d.pool t' with
        | ret x => rfl
        | act a next => exact absurd ⟨t',a,next,hp⟩ hd
      have hs := hsa t
      rw [hr t] at hs
      exact .inr ⟨hr,hs rfl⟩
  · refine Contract.sound_also (C := soloFlush config key t)
      (X := fun m => accepted u m.history = accepted u c.moment.history) hid hstart
      (fun _ _ _ _ _ h => h) (fun _ _ _ h => h.elim)
      (fun t' a m r w _ _ (ha : a.Flushing) _ _ hX => ?_) run hk hpo (fun t' => ?_) rfl
    · rw [← hX]
      cases a <;> first | exact ha.elim | rfl
    · by_cases ht : t' = t
      · subst ht
        simp only [Config.start,Function.update_self]
        exact Prog.Uses.bind (flushPending_uses fun _ h => h) fun _ => trivial
      · simp only [Config.start,Function.update_of_ne ht,hq t']
        trivial

/-- Bytes are conserved at every point; a user with a pending delta is queued, or
drained by the running flush, unless somebody is about to queue it; and from a quiet
point a flush that runs alone and whose increments succeed cannot stop before
everything accepted is persisted. -/
theorem bytes_conserved {w : World} {u : String} {config : QuotaConfig} {key : String}
    (hw : Rested w) (hc : w.userConfigs.lookup u = some config) (hk : keyAt config w.clock = key)
    (hs : ∀ s, w.state? u = some s → s.periodKey = "" ∨ s.periodKey = key)
    {c : Config Act Act.Res World} (run : Reach (within config key) countingOps (Config.idle w) c) :
    c.moment.state.persisted u key + c.moment.state.pendingDelta u + inFlight u c.moment.history =
        w.persisted u key + accepted u c.moment.history ∧
      (c.moment.state.pendingDelta u ≠ 0 → (∀ t, ¬ c.At t (.markDirty u)) →
        u ∈ c.moment.state.dirtyQueue ∨ u ∈ drained c.moment.history) ∧
      (c.Quiet → ∀ t d, Reach (succeeding config key) noOps (c.start t (void flushPending)) d →
        (∃ e, Step (succeeding config key) noOps d e) ∨
        d.Quiet ∧ d.moment.state.persisted u key = w.persisted u key + accepted u c.moment.history) := by
  have hl := ledger_reached hw hc hk hs run
  obtain ⟨hi,hsa⟩ := traffic_sound countingOps_traffic hw
    (Reach.mono (fun _ _ _ _ _ h => h.1) (fun _ _ _ h => h) run)
  refine ⟨hl.balance,fun hne hn => ?_,fun hq t d hd => ?_⟩
  · obtain h | h | ⟨t,h⟩ := hi.covered u hne
    · exact .inl h
    · exact .inr h
    · exact absurd (at_of_owed hi (hsa t) h) (hn t)
  · obtain ⟨hf,-⟩ := quiet_settled hi hsa hq
    obtain ⟨hen,ha⟩ := flush_alone hl.period hf hq hd
    refine hen.imp_right fun ⟨hdq,he⟩ => ⟨hdq,?_⟩
    have hr : Reach (within config key) countingOps (Config.idle w) d :=
      (run.tail (.start (hq t) (.inr (.inl rfl)))).trans
        (Reach.mono (fun _ _ _ _ _ h => h.1) (fun _ _ _ h => h.elim) hd)
    obtain ⟨hi',hs'⟩ := traffic_sound countingOps_traffic hw
      (Reach.mono (fun _ _ _ _ _ h => h.1) (fun _ _ _ h => h) hr)
    obtain ⟨-,hca,hh,hdr⟩ := quiet_settled hi' hs' hdq
    have hz : d.moment.state.pendingDelta u = 0 := by
      by_contra hne
      obtain h | h | ⟨t',h⟩ := hi'.covered u hne
      · rw [he] at h
        cases h
      · rw [hdr] at h
        cases h
      · rw [(hca t').unowed] at h
        cases h
    have hb := (ledger_reached hw hc hk hs hr).balance
    simpa [inFlight,hh u,hz,ha u] using hb

lemma aliceWorld_rested : Rested aliceWorld := by
  refine ⟨rfl,rfl,rfl,fun u => ?_⟩
  simp only [World.pendingDelta,World.state?,aliceWorld]
  split_ifs <;> rfl

/-- In every run of additions, flushes and period resets, whatever the persister answers, whenever no
operation is in progress the lock is free and every user with bytes pending is known and queued. -/
theorem pending_users_queued {w : World} (hw : Rested w) {c : Config Act Act.Res World}
    (run : Reach exec trafficOps (Config.idle w) c) (hq : c.Quiet) :
    c.moment.state.mutex .persistAccess = none ∧
      (∀ u,u ∈ c.moment.state.dirtySet ↔ u ∈ c.moment.state.dirtyQueue) ∧
      ∀ u,c.moment.state.pendingDelta u ≠ 0 →
        Known c.moment.state u ∧ u ∈ c.moment.state.dirtyQueue := by
  obtain ⟨hi,hsa⟩ := traffic_sound (fun _ _ _ h => h) hw run
  obtain ⟨hf,hca,-,hdr⟩ := quiet_settled hi hsa hq
  refine ⟨hf,hi.dirty,fun u hne => ⟨hi.known u (.inl (hi.covered u hne)),?_⟩⟩
  obtain h | h | ⟨t,h⟩ := hi.covered u hne
  · exact h
  · simp [hdr] at h
  · simp [(hca t).unowed] at h

def withinOutcomes (config : QuotaConfig) (key : String) : Outcomes Act Act.Res World :=
  Outcomes.only outcomes fun _ _ _ w' => keyAt config w'.clock = key

lemma within_eq (config : QuotaConfig) (key : String) :
    within config key = (withinOutcomes config key).exec := by
  funext t a w r w'
  simp [within,withinOutcomes,Outcomes.only_exec,exec]

/-- AddBytes of 7 bytes, and a flush up to and including the drain of the queue. -/
def drainMoves : List (Move Act Act.Res) :=
  launch 1 (addBytes "alice" 7) 4 ++ launch 2 (void flushPending) 2

lemma drainMoves_startable : Startable countingOps drainMoves :=
  (startable_launch (fun _ => .inl ⟨_,_,rfl⟩) 4).append
    (startable_launch (fun _ => .inr (.inl rfl)) 2)

/-- Between the drain and its visit a user with a pending delta is in no queue. -/
theorem drained_not_queued : ∃ c, Reach (within aliceConfig "2026-05-14") countingOps
    (Config.idle aliceWorld) c ∧ c.moment.state.pendingDelta "alice" ≠ 0 ∧
    (∀ t, ¬ c.At t (.markDirty "alice")) ∧ "alice" ∉ c.moment.state.dirtyQueue := by
  have hp : (play (withinOutcomes aliceConfig "2026-05-14") drainMoves
      (Config.idle aliceWorld)).map (fun c => (c.moment.state.pendingDelta "alice",
        c.moment.state.dirtyQueue,c.next 1 (fun a => a matches .markDirty _),
        c.next 2 (fun a => a matches .markDirty _))) = some (7,[],false,false) := by
    decide +kernel
  obtain ⟨c,run,hc,hpo⟩ := exists_of_play hp (drainMoves_startable.legal _)
  simp only [Prod.mk.injEq] at hc
  obtain ⟨hpe,hqu,h1,h2⟩ := hc
  refine ⟨c,within_eq _ _ ▸ run,by rw [hpe]; decide,fun t hat => ?_,by simp [hqu]⟩
  have hne := hat.next fun a => a matches .markDirty _
  by_cases ht1 : t = 1
  · rw [ht1,h1] at hne
    cases hne
  by_cases ht2 : t = 2
  · rw [ht2,h2] at hne
    cases hne
  obtain ⟨next,hn⟩ := hat
  rw [hpo t (by simp [drainMoves,launch,proceed,Move.thread,ht1,ht2])] at hn
  cases hn

/-- The books in the middle of that flush. -/
theorem bytes_conserved_alice : ∃ c, Reach (within aliceConfig "2026-05-14") countingOps
    (Config.idle aliceWorld) c ∧ accepted "alice" c.moment.history = 7 ∧
    c.moment.state.persisted "alice" "2026-05-14" + c.moment.state.pendingDelta "alice" +
      inFlight "alice" c.moment.history =
      aliceWorld.persisted "alice" "2026-05-14" + accepted "alice" c.moment.history := by
  have hp : (play (withinOutcomes aliceConfig "2026-05-14") drainMoves
      (Config.idle aliceWorld)).map (fun c => accepted "alice" c.moment.history) = some 7 := by
    decide +kernel
  obtain ⟨c,run,hc,-⟩ := exists_of_play hp (drainMoves_startable.legal _)
  have run' : Reach (within aliceConfig "2026-05-14") countingOps (Config.idle aliceWorld) c :=
    within_eq _ _ ▸ run
  refine ⟨c,run',hc,(bytes_conserved aliceWorld_rested (by decide) (by decide) (fun s hs => ?_)
    run').1⟩
  simp only [World.state?,aliceWorld,if_true,Option.map_some,Option.some.injEq] at hs
  exact .inr (hs ▸ rfl)

theorem pending_alice_queued : ∃ c,Reach exec trafficOps (Config.idle aliceWorld) c ∧ c.Quiet ∧
    Known c.moment.state "alice" ∧ "alice" ∈ c.moment.state.dirtyQueue := by
  have hp : (play outcomes (launch 1 (addBytes "alice" 7) 4) (Config.idle aliceWorld)).map
      (fun c => (c.moment.state.pendingDelta "alice",
        c.busy ((launch 1 (addBytes "alice" 7) 4).map Move.thread))) = some (7,false) := by
    decide +kernel
  have hs : Startable trafficOps (launch 1 (addBytes "alice" 7) 4) :=
    startable_launch (fun _ => .inl ⟨_,_,rfl⟩) 4
  obtain ⟨c,run,hq,hc⟩ := exists_quiet_of_play hp (hs.legal _) (Config.quiet_idle _)
  refine ⟨c,run,hq,(pending_users_queued aliceWorld_rested run hq).2.2 "alice" ?_⟩
  rw [hc]
  decide

end SingBoxAuth.TrafficQuota
