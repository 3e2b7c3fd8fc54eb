import SingBoxAuth.QuotaConservation
import SingBoxAuth.QuotaServiceOps

/-! Records that a period reset or a removal has deleted stay deleted. -/
namespace SingBoxAuth.TrafficQuota
open Interleaving

/-- Additions, flushes and the passing of time on any threads; the period resets run on
one thread, one round after the other. -/
def loopOps (reset : ℕ) : Ops Act Act.Res World := fun t _ p =>
  (∃ u n, p = addBytes u n) ∨ p = void flushPending ∨ (t = reset ∧ p = periodResetRound) ∨
    ∃ d, p = perform (.tick d)

lemma loopOps_traffic (reset t : ℕ) (m : Instant) (p : Op Unit) (h : loopOps reset t m p) :
    trafficOps t m p :=
  h.imp_right (.imp_right (.imp_left And.right))

def Act.ByReset (reset t : ℕ) : Act → Prop
  | .rollPeriod _ _ _ => t = reset
  | _ => True

lemma loopOps_uses (reset t : ℕ) (m : Instant) (p : Op Unit) (h : loopOps reset t m p) :
    p.Uses (Act.ByReset reset t) := by
  obtain ⟨u,n,rfl⟩ | rfl | ⟨rfl,rfl⟩ | ⟨d,rfl⟩ := h
  · refine addBytes_uses (fun a ha => ?_) u n
    cases a <;> first | exact ha.elim | trivial
  · refine Prog.Uses.bind (flushPending_uses fun a ha => ?_) fun _ => trivial
    cases a <;> first | exact ha.elim | trivial
  · exact (Prog.uses_true _).mono fun a _ => by cases a <;> trivial
  · exact Prog.uses_perform.mpr trivial

def erasedAfter (user : String) : Event Act Act.Res → List String → List String
  | ⟨_,.deleteRecord u key,true⟩, keys => if u = user then key :: keys else keys
  | _, keys => keys

def erased (user : String) (h : Past) : List String := h.foldr (erasedAfter user) []

lemma erased_cons (u : String) (e : Event Act Act.Res) (h : Past) :
    erased u (e :: h) = erasedAfter u e (erased u h) := rfl

lemma erased_untouched {u : String} {t : ℕ} {a : Act} {r : a.Res} (hu : ¬ a.Touches u) (h : Past) :
    erased u (⟨t,a,r⟩ :: h) = erased u h := by
  cases a with
  | deleteRecord v k =>
    cases r
    · rfl
    · simp [erased_cons,erasedAfter,show ¬ v = u from hu]
  | _ => rfl

def Left (u key : String) (h : Past) : Prop :=
  ∃ t g current, (⟨t,.rollPeriod u g current,some key⟩ : Event Act Act.Res) ∈ h

/-- The user's period is that of an instant which every later reset of the user has
passed, and it is none of those that were left. -/
structure InPeriod (reset : ℕ) (u : String) (config : QuotaConfig) (began : ℤ) (m : Instant) :
    Prop where
  state : ∃ s, m.state.state? u = some s ∧ s.periodKey = keyAt config began
  past : began ≤ m.state.clock
  read : ∀ now, clockRead reset m.history = some now → began ≤ now ∧ now ≤ m.state.clock
  left : ∀ key, Left u key m.history →
    ∃ before ≤ began, key = keyAt config before ∧ key ≠ keyAt config began

structure Ageing (reset : ℕ) (u : String) (config : QuotaConfig) (m : Instant) : Prop where
  configured : m.state.userConfigs.lookup u = some config
  period : ∃ began, InPeriod reset u config began m
  dead : ∀ key ∈ erased u m.history, Left u key m.history ∧ m.state.store (u,key) = none ∧
    ∀ pd ∈ held u m.history, pd.periodKey ≠ key

section step

variable {reset : ℕ} {u : String} {config : QuotaConfig} {m : Instant} {t : ℕ} {w : World}

lemma Left.after {key : String} {h : Past} (hl : Left u key h) (e : Event Act Act.Res) :
    Left u key (e :: h) := by
  obtain ⟨t,g,current,hme⟩ := hl
  exact ⟨t,g,current,List.mem_cons_of_mem _ hme⟩

lemma Left.cases {key : String} {h : Past} {a : Act} {r : a.Res}
    (hl : Left u key (⟨t,a,r⟩ :: h)) (ha : ∀ g current,a ≠ .rollPeriod u g current) :
    Left u key h := by
  obtain ⟨t',g,current,hme⟩ := hl
  obtain heq | hme := List.mem_cons.mp hme
  · cases heq
    exact absurd rfl (ha g current)
  · exact ⟨t',g,current,hme⟩

lemma Ageing.not_current (h : Ageing reset u config m) {s : UserState}
    (hs : m.state.state? u = some s) {key : String} (hk : key ∈ erased u m.history) :
    s.periodKey ≠ key := by
  obtain ⟨began,hb⟩ := h.period
  obtain ⟨s',hs',hke⟩ := hb.state
  obtain ⟨_,-,-,hne⟩ := hb.left key (h.dead key hk).1
  obtain rfl : s = s' := Option.some.inj (hs.symm.trans hs')
  exact hke ▸ hne.symm

lemma InPeriod.next {a : Act} {r : a.Res} {began : ℤ} (h : InPeriod reset u config began m)
    (hp : TrafficPre t a m) (he : exec t a m.state r w)
    (ha : ∀ g current,a ≠ .rollPeriod u g current)
    (hs : (w.state? u).map UserState.periodKey = (m.state.state? u).map UserState.periodKey) :
    InPeriod reset u config began (m.after t a r w) := by
  have hcl := (grows_of_traffic hp.traffic he).clock
  refine ⟨?_,h.past.trans hcl,fun now hn => ?_,fun key hl => h.left key (hl.cases ha)⟩
  · obtain ⟨s,hst,hk⟩ := h.state
    rw [hst,Option.map_some,Option.map_eq_some_iff] at hs
    obtain ⟨s',hs',hsa⟩ := hs
    exact ⟨s',hs',hsa.trans hk⟩
  · obtain hn | rfl := clockRead_step he hn
    · exact ⟨(h.read now hn).1,(h.read now hn).2.trans hcl⟩
    · exact ⟨h.past,hcl⟩

lemma Ageing.next {a : Act} {r : a.Res} (h : Ageing reset u config m)
    (hp : TrafficPre t a m) (he : exec t a m.state r w)
    (ha : ∀ g current,a ≠ .rollPeriod u g current)
    (hs : (w.state? u).map UserState.periodKey = (m.state.state? u).map UserState.periodKey)
    (hd : ∀ key ∈ erased u (⟨t,a,r⟩ :: m.history),Left u key m.history ∧
      w.store (u,key) = none ∧ ∀ pd ∈ held u (⟨t,a,r⟩ :: m.history),pd.periodKey ≠ key) :
    Ageing reset u config (m.after t a r w) := by
  obtain ⟨began,hb⟩ := h.period
  refine ⟨?_,⟨began,hb.next hp he ha hs⟩,fun key hk => ?_⟩
  · exact (congrArg (AList.lookup u) (grows_of_traffic hp.traffic he).configs).trans h.configured
  · obtain ⟨hl,hst,hh⟩ := hd key hk
    exact ⟨hl.after _,hst,hh⟩

lemma Ageing.keep {a : Act} {r : a.Res} (h : Ageing reset u config m)
    (hp : TrafficPre t a m) (he : exec t a m.state r w)
    (ha : ∀ g current,a ≠ .rollPeriod u g current)
    (hs : (w.state? u).map UserState.periodKey = (m.state.state? u).map UserState.periodKey)
    (her : erased u (⟨t,a,r⟩ :: m.history) = erased u m.history)
    (hst : ∀ key,w.store (u,key) = m.state.store (u,key))
    (hh : held u (⟨t,a,r⟩ :: m.history) ⊆ held u m.history) :
    Ageing reset u config (m.after t a r w) :=
  h.next hp he ha hs fun key hk => by
    obtain ⟨hl,hso,hhe⟩ := h.dead key (her ▸ hk)
    exact ⟨hl,(hst key).trans hso,fun pd hpd => hhe pd (hh hpd)⟩

lemma map_modifyState {g : ℕ} {f : UserState → UserState} (hw : w = m.state.modifyState u g f)
    (hg : m.state.states u = some g)
    (hf : (f (m.state.stateHeap (u,g))).periodKey = (m.state.stateHeap (u,g)).periodKey) :
    (w.state? u).map UserState.periodKey = (m.state.state? u).map UserState.periodKey := by
  rw [hw,state?_modifyState hg,state?_of_states hg]
  simp [hf]

lemma Ageing.set (h : Ageing reset u config m) {g : ℕ} (hg : m.state.states u = some g) :
    (m.state.stateHeap (u,g)).periodKey ≠ "" := by
  obtain ⟨began,hb⟩ := h.period
  obtain ⟨s,hs,hk⟩ := hb.state
  rw [state?_of_states hg,Option.some.injEq] at hs
  exact hs ▸ hk ▸ keyAt_ne_empty config began

lemma Ageing.addBytes {g : ℕ} {n : Int64} {r : Option (String × Int64)}
    (h : Ageing reset u config m) (hp : TrafficPre t (.addBytes u g n) m)
    (he : exec t (.addBytes u g n) m.state r w) :
    Ageing reset u config (m.after t (.addBytes u g n) r w) := by
  have hg := hp.needs.1
  have hne := h.set hg
  have hw : w = m.state.modifyState u g fun s => s.add n := by
    have he' : (r,w) ∈ [addSection m.state u g n] := he
    rw [List.mem_singleton,addSection,if_neg hne,Prod.mk.injEq] at he'
    exact he'.2
  refine h.keep hp he nofun (map_modifyState hw hg rfl) rfl (fun _ => by rw [hw]; rfl) (.refl _)

lemma Ageing.consume {g : ℕ} {r : String × Int64} (h : Ageing reset u config m)
    (hp : TrafficPre t (.consume u g) m) (he : exec t (.consume u g) m.state r w) :
    Ageing reset u config (m.after t (.consume u g) r w) := by
  have hg := hp.needs.2
  have he' := he
  obtain ⟨hr,hw⟩ := exec_one he' rfl
  refine h.next hp he nofun (map_modifyState hw hg rfl) fun key hk => ?_
  have hcu := h.not_current (state?_of_states hg) hk
  obtain ⟨hl,hs,hh⟩ := h.dead key hk
  refine ⟨hl,by rw [hw]; exact hs,fun pd hpd => ?_⟩
  subst hr
  simp only [held_cons,heldAfter,true_and] at hpd
  split_ifs at hpd with hz
  · obtain hpd | hpd := List.mem_append.mp hpd
    · exact hh pd hpd
    · rw [List.mem_singleton] at hpd
      exact hpd ▸ hcu
  · exact hh pd hpd

lemma Ageing.rollPeriod {g : ℕ} {k : String} {r : Option String} (h : Ageing reset u config m)
    (hp : TrafficPre reset (.rollPeriod u g k) m)
    (he : exec reset (.rollPeriod u g k) m.state r w) :
    Ageing reset u config (m.after reset (.rollPeriod u g k) r w) := by
  obtain ⟨hg,config',now,hc,hre,rfl⟩ := hp.needs
  obtain rfl : config' = config := Option.some.inj (hc.symm.trans h.configured)
  have he' := he
  obtain ⟨hr,hw⟩ := exec_one he' rfl
  obtain ⟨began,hb⟩ := h.period
  obtain ⟨hbn,hn⟩ := hb.read now hre
  obtain ⟨s,hs,hke⟩ := hb.state
  have hs' := state?_modifyState hg fun s => (rollSection s (keyAt config' now)).2
  rw [← hw,hs,Option.map_some] at hs'
  have hh := Option.some.inj ((state?_of_states hg).symm.trans hs)
  rw [hh] at hr
  have hr' : ∀ instant,clockRead reset (⟨reset,.rollPeriod u g (keyAt config' now),r⟩ ::
      m.history) = some instant → instant = now := fun instant hi => by
    have hi : clockRead reset m.history = some instant := by
      simpa [clockRead,clockReadAfter] using hi
    exact Option.some.inj (hi.symm.trans hre)
  have hd : ∀ key ∈ erased u m.history,Left u key (⟨reset,.rollPeriod u g (keyAt config' now),
      r⟩ :: m.history) ∧ w.store (u,key) = none ∧ ∀ pd ∈ held u m.history,pd.periodKey ≠ key :=
    fun key hk => ⟨(h.dead key hk).1.after _,by rw [hw]; exact (h.dead key hk).2.1,
      (h.dead key hk).2.2⟩
  refine ⟨?_,⟨now,⟨_,hs',?_⟩,?_,fun instant hi => ?_,fun key hl => ?_⟩,hd⟩
  · rw [Moment.after_state,hw]
    exact h.configured
  · unfold rollSection
    split_ifs with hem hsa
    · rfl
    · exact hsa.symm
    · rfl
  · rw [Moment.after_state,hw]
    exact hn
  · rw [hr' instant hi,Moment.after_state,hw]
    exact ⟨le_rfl,hn⟩
  · obtain ⟨t',g',current,hme⟩ := hl
    obtain heq | hme := List.mem_cons.mp hme
    · -- the period that this very step leaves
      cases heq
      unfold rollSection at hr
      split_ifs at hr with hem hsa
      obtain rfl : key = s.periodKey := by simpa using hr
      exact ⟨began,hbn,hke,Ne.symm hsa⟩
    · obtain ⟨before,hbe,rfl,hne⟩ := hb.left key ⟨t',g',current,hme⟩
      exact ⟨before,hbe.trans hbn,rfl,(keyAt_ne_of_left hbe hbn hne).symm⟩

lemma Ageing.incrBy {k : String} {d : Int64} {r : Bool} (h : Ageing reset u config m)
    (hp : TrafficPre t (.incrBy u k d) m) (he : exec t (.incrBy u k d) m.state r w) :
    Ageing reset u config (m.after t (.incrBy u k d) r w) := by
  have hf := hp.needs.2
  have he' := he
  obtain ⟨rfl,hw⟩ | ⟨rfl,hw⟩ := exec_two he' rfl
  · refine h.next hp he nofun (by rw [hw]; rfl) fun key hk => ?_
    obtain ⟨hl,hs,hh⟩ := h.dead key hk
    have hne : key ≠ k := fun heq => hh _ hf heq.symm
    refine ⟨hl,?_,fun pd hpd => hh pd ?_⟩
    · rw [hw]
      simpa [World.setRecord,hne] using hs
    · simp only [held_cons,heldAfter,if_true] at hpd
      exact List.erase_subset hpd
  · exact h.keep hp he nofun (by rw [hw]) rfl (fun _ => by rw [hw]) (.refl _)

lemma Ageing.deleteRecord {k : String} {r : Bool} (h : Ageing reset u config m)
    (hp : TrafficPre t (.deleteRecord u k) m) (he : exec t (.deleteRecord u k) m.state r w) :
    Ageing reset u config (m.after t (.deleteRecord u k) r w) := by
  obtain ⟨-,hn,g,current,hr⟩ := hp.needs
  have he' := he
  obtain ⟨rfl,hw⟩ | ⟨rfl,hw⟩ := exec_two he' rfl
  · refine h.next hp he nofun (by rw [hw]; rfl) fun key hk => ?_
    have hh : ∀ pd ∈ held u m.history,pd.periodKey ≠ key := by simp [hn u]
    simp only [erased_cons,erasedAfter,if_true,List.mem_cons] at hk
    by_cases hke : key = k
    · subst hke
      exact ⟨⟨t,g,current,hr⟩,by simp [hw,World.setRecord],hh⟩
    · obtain ⟨hl,hs,-⟩ := h.dead key (hk.resolve_left hke)
      refine ⟨hl,?_,hh⟩
      rw [hw]
      simpa [World.setRecord,hke] using hs
  · exact h.keep hp he nofun (by rw [hw]) rfl (fun _ => by rw [hw]) (.refl _)

theorem Ageing.step {a : Act} {r : a.Res} (h : Ageing reset u config m) (hp : TrafficPre t a m)
    (hr : a.ByReset reset t) (he : exec t a m.state r w) :
    Ageing reset u config (m.after t a r w) := by
  by_cases hu : a.Touches u
  · have he' := he
    cases a with
    | addBytes v g n => subst hu; exact h.addBytes hp he
    | consume v g => subst hu; exact h.consume hp he
    | rollPeriod v g k =>
      subst hu
      obtain rfl : t = reset := hr
      exact h.rollPeriod hp he
    | incrBy v k d => subst hu; exact h.incrBy hp he
    | deleteRecord v k => subst hu; exact h.deleteRecord hp he
    | stateFor v =>
      subst hu
      replace he' := exec_pair he' rfl
      have hw : w = (m.state.stateFor v).2 := by rw [← he']
      obtain ⟨began,hb⟩ := h.period
      obtain ⟨s,hs,-⟩ := hb.state
      refine h.keep hp he (by simp) ?_ rfl (fun _ => by rw [hw,stateFor_store]) (.refl _)
      rw [hw,state?_stateFor,hs]
      rfl
    | setPeriodKeyIfEmpty v g k =>
      subst hu
      replace he' := exec_one he' rfl
      refine h.keep hp he (by simp) (map_modifyState he'.2 hp.needs.1 ?_) rfl
        (fun _ => by rw [he'.2]; rfl) (.refl _)
      rw [if_neg (h.set hp.needs.1)]
    | restore v g k d =>
      subst hu
      replace he' := exec_one he' rfl
      refine h.keep hp he (by simp) (map_modifyState he'.2 hp.needs.2.1 ?_) rfl
        (fun _ => by rw [he'.2]; rfl) ?_
      · unfold restoreSection
        split_ifs <;> rfl
      · simp only [held_cons,heldAfter,if_true]
        exact List.erase_subset
    | storeUsage v g b | storeExceeded v g b =>
      subst hu
      replace he' := exec_one he' rfl
      exact h.keep hp he (by simp) (map_modifyState he'.2 hp.needs.2.1 rfl) rfl
        (fun _ => by rw [he'.2]; rfl) (.refl _)
    | trip v g =>
      subst hu
      replace he' := exec_one he' rfl
      exact h.keep hp he (by simp) (map_modifyState he'.2 hp.needs rfl) rfl
        (fun _ => by rw [he'.2]; rfl) (.refl _)
    | _ => exact hu.elim
  · obtain ⟨hs,hst,hh⟩ := untouched hp he hu
    refine h.keep hp he (fun g current ha => hu (ha ▸ rfl)) (by rw [hs]) (erased_untouched hu _) hst ?_
    rw [hh]
    exact .refl _

end step

/-- The user's entry is in the period of an instant that has come. -/
def Begun (u : String) (config : QuotaConfig) (w : World) : Prop :=
  ∃ s began, w.state? u = some s ∧ s.periodKey = keyAt config began ∧ began ≤ w.clock

lemma ageing_of_run {reset : ℕ} {u : String} {config : QuotaConfig} {w : World} (hw : Rested w)
    (hc : w.userConfigs.lookup u = some config) (hb : Begun u config w)
    {c : Config Act Act.Res World} (run : Reach exec (loopOps reset) (Config.idle w) c) :
    Ageing reset u config c.moment := by
  refine traffic_also (loopOps_traffic reset) (fun _ _ _ _ _ h => h) (loopOps_uses reset)
    (fun t a m r w' _ hp hr _ he h => h.step hp hr he) hw ?_ run
  obtain ⟨s,began,hs,hk,hpa⟩ := hb
  refine ⟨hc,⟨began,⟨s,hs,hk⟩,hpa,nofun,?_⟩,nofun⟩
  rintro key ⟨_,_,_,hme⟩
  cases hme

/-- A record that the reset loop has deleted is never written again, for a user whose
entry has its period when the loop starts. A record that a removal has deleted is not
written until the user is configured again, whatever operations overlap. -/
theorem deleted_records_stay :
    (∀ {reset : ℕ} {u : String} {config : QuotaConfig} {w : World}, Rested w →
      w.userConfigs.lookup u = some config → Begun u config w →
      ∀ {c : Config Act Act.Res World}, Reach exec (loopOps reset) (Config.idle w) c →
      ∀ key ∈ erased u c.moment.history,
        c.moment.state.store (u,key) = none ∧ ∀ t delta, ¬ c.At t (.incrBy u key delta)) ∧
    ∀ {w : World}, w.writer = none → ∀ {c : Config Act Act.Res World},
      Reach exec serviceOps (Config.idle w) c →
      ∀ u key, removedKey u c.moment.history = some key → c.moment.state.store (u,key) = none ∧
        ∀ t k delta, ¬ c.At t (.incrBy u k delta) ∧ ¬ c.At t (.save u k delta) := by
  refine ⟨fun {reset u config w} hw hc hb {c} run key hk => ?_,fun {w} hw {c} run u key hk => ?_⟩
  · obtain ⟨-,hst,hh⟩ := (ageing_of_run hw hc hb run).dead key hk
    refine ⟨hst,fun t delta ⟨next,hat⟩ => ?_⟩
    obtain ⟨hi,hsa⟩ := traffic_sound (loopOps_traffic reset) hw run
    have hs := hsa t
    rw [hat] at hs
    exact hh _ (hs.pre hi).needs.2 rfl
  · obtain ⟨hi,hsa⟩ := service_sound hw run
    obtain ⟨hg,hst⟩ := hi.vacant u key hk
    refine ⟨hst,fun t k delta => ⟨fun ⟨next,hat⟩ => ?_,fun ⟨next,hat⟩ => ?_⟩⟩
    · have hs := hsa t
      rw [hat] at hs
      exact hg (hs.pre hi).needs.2
    · have hs := hsa t
      rw [hat] at hs
      exact hg (hs.pre hi).needs.2

def succeeded : Event Act Act.Res → Bool
  | ⟨_,.incrBy _ _ _,done⟩ | ⟨_,.deleteRecord _ _,done⟩ | ⟨_,.save _ _ _,done⟩ => done
  | ⟨_,.load _ _,total⟩ => total.isSome
  | ⟨_,.loadMany _ _,totals⟩ => totals.isSome
  | _ => true

def freshWorld : World := { aliceWorld with states := fun _ => none }

lemma freshWorld_rested : Rested freshWorld := ⟨rfl,rfl,rfl,fun _ => rfl⟩

/-- A round reads the clock on 14 May; alice's first bytes come on 15 May, before the
round looks at alice. The round moves alice back a day, the next one forth again. -/
def ghostMoves : List (Move Act Act.Res) :=
  launch 1 periodResetRound 1 ++ launch 2 (perform (.tick 86400000000000)) 1 ++
    launch 2 (addBytes "alice" 7) 4 ++ proceed 1 7 ++ launch 1 periodResetRound 8 ++
    launch 2 (addBytes "alice" 7) 4 ++ launch 2 (void flushPending) 16

lemma ghostMoves_startable : Startable (loopOps 1) ghostMoves :=
  ((((((startable_launch (fun _ => .inr (.inr (.inl ⟨rfl,rfl⟩))) 1).append
    (startable_launch (fun _ => .inr (.inr (.inr ⟨_,rfl⟩))) 1)).append
    (startable_launch (fun _ => .inl ⟨_,_,rfl⟩) 4)).append
    (startable_proceed _ 1 7)).append
    (startable_launch (fun _ => .inr (.inr (.inl ⟨rfl,rfl⟩))) 8)).append
    (startable_launch (fun _ => .inl ⟨_,_,rfl⟩) 4)).append
    (startable_launch (fun _ => .inr (.inl rfl)) 16)

/-- Without an entry at the start the record of 15 May is deleted and then written. -/
theorem deleted_record_returns : ∃ c, Reach exec (loopOps 1) (Config.idle freshWorld) c ∧
    Rested freshWorld ∧ freshWorld.userConfigs.lookup "alice" = some aliceConfig ∧
    c.moment.history.all succeeded = true ∧ "2026-05-15" ∈ erased "alice" c.moment.history ∧
    c.moment.state.store ("alice","2026-05-15") = some 7 := by
  have hp : (play outcomes ghostMoves (Config.idle freshWorld)).map (fun c =>
      (c.moment.history.all succeeded,erased "alice" c.moment.history,
        c.moment.state.store ("alice","2026-05-15"))) =
      some (true,["2026-05-14","2026-05-15"],some 7) := by
    decide +kernel
  obtain ⟨c,run,hc,-⟩ := exists_of_play hp (ghostMoves_startable.legal _)
  simp only [Prod.mk.injEq] at hc
  exact ⟨c,run,freshWorld_rested,rfl,hc.1,by simp [hc.2.1],hc.2.2⟩

def passMoves : List (Move Act Act.Res) :=
  launch 2 (addBytes "alice" 7) 4 ++ launch 2 (void flushPending) 16 ++
    launch 2 (perform (.tick 86400000000000)) 1 ++ launch 1 periodResetRound 8

lemma passMoves_startable : Startable (loopOps 1) passMoves :=
  (((startable_launch (fun _ => .inl ⟨_,_,rfl⟩) 4).append
    (startable_launch (fun _ => .inr (.inl rfl)) 16)).append
    (startable_launch (fun _ => .inr (.inr (.inr ⟨_,rfl⟩))) 1)).append
    (startable_launch (fun _ => .inr (.inr (.inl ⟨rfl,rfl⟩))) 8)

def leaveMoves : List (Move Act Act.Res) := launch 2 (void (serviceRemoveConfig "alice")) 14

lemma leaveMoves_startable : Startable serviceOps leaveMoves :=
  startable_launch (fun _ => .removeConfig _) 14

lemma aliceWorld_begun : Begun "alice" aliceConfig aliceWorld :=
  ⟨⟨0,0,false,"2026-05-14"⟩,aliceWorld.clock,rfl,by decide +kernel,le_rfl⟩

/-- The record of 14 May is written by a flush and deleted by a reset; a removal deletes
the record of the day. -/
theorem deleted_records_stay_alice : (∃ c, Reach exec (loopOps 1) (Config.idle aliceWorld) c ∧
      "2026-05-14" ∈ erased "alice" c.moment.history ∧
      c.moment.state.store ("alice","2026-05-14") = none ∧
      ∀ t delta, ¬ c.At t (.incrBy "alice" "2026-05-14" delta)) ∧
    ∃ c, Reach exec serviceOps (Config.idle aliceWorld) c ∧
      removedKey "alice" c.moment.history = some "2026-05-14" ∧
      c.moment.state.store ("alice","2026-05-14") = none ∧
      ∀ t k delta, ¬ c.At t (.incrBy "alice" k delta) ∧ ¬ c.At t (.save "alice" k delta) := by
  constructor
  · have hp : (play outcomes passMoves (Config.idle aliceWorld)).map (fun c =>
        erased "alice" c.moment.history) = some ["2026-05-14"] := by
      decide +kernel
    obtain ⟨c,run,hc,-⟩ := exists_of_play hp (passMoves_startable.legal _)
    have hme : "2026-05-14" ∈ erased "alice" c.moment.history := by simp [hc]
    exact ⟨c,run,hme,deleted_records_stay.1 aliceWorld_rested rfl aliceWorld_begun run _ hme⟩
  · have hp : (play outcomes leaveMoves (Config.idle aliceWorld)).map (fun c =>
        removedKey "alice" c.moment.history) = some (some "2026-05-14") := by
      decide +kernel
    obtain ⟨c,run,hc,-⟩ := exists_of_play hp (leaveMoves_startable.legal _)
    exact ⟨c,run,hc,deleted_records_stay.2 rfl run _ _ hc⟩

end SingBoxAuth.TrafficQuota
