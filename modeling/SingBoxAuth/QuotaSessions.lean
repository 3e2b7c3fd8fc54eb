import SingBoxAuth.QuotaBooks

/-! What holds after every history of calls of the quota manager, made one at a time: the flag is
that of the usage, and the index of dirty users covers what is pending. -/
namespace SingBoxAuth.TrafficQuota
open Interleaving Transitions

/-- A manager that NewQuotaManager has made, and what the store holds. -/
def Session.new (configs : UserConfigs) (store : String × String → Option Int64) (clock : ℤ) :
    Session where
  world :=
    { userConfigs := configs
      states := fun _ => none
      stateHeap := fun _ => .empty
      stateCount := fun _ => 0
      activeConns := fun _ => none
      listHeap := fun _ => []
      listCount := fun _ => 0
      closed := fun _ => false
      connCount := 0
      dirtySet := ∅
      dirtyQueue := []
      store
      clock
      readers := ∅
      writer := none
      mutex := fun _ => none }
  taken := []

def fits (counter n : Int64) : Bool := counter.toInt + n.toInt < 2 ^ 63

/-- The counters do not overflow, a delta that is given back is a number of bytes, and what is
restored is a snapshot taken before. -/
def counts (s : Session) : Call → Bool
  | .addBytes user n => fits (s.world.usage user) n && fits (s.world.pendingDelta user) n
  | .restorePendingDelta pd => decide (0 ≤ pd.delta) && fits (s.world.pendingDelta pd.user) pd.delta
  | .restoreState state | .serviceRestoreState state _ => state ∈ s.taken
  | _ => true

/-- Nothing negative is pending, and the flag says whether the usage is beyond the quota. -/
def Flags (config : Option QuotaConfig) (s : UserState) : Prop :=
  0 ≤ s.pendingDelta ∧ ∀ c, config = some c → (s.exceeded = true ↔ c.quotaBytes < s.usage)

def Account.Flags (a : Account) : Prop := ∀ s, a.state = some s → TrafficQuota.Flags a.config s

def RuntimeState.Flags (text : TimeText) (state : RuntimeState) : Prop :=
  ∀ c, restoredConfig text state = .ok c → TrafficQuota.Flags (some c)
    ⟨state.usageBytes,state.pendingDelta,state.exceeded,state.periodKey⟩

lemma quotaBytes_toOption (q : Int64) : quotaBytes ((q.toInt : ℚ) / 2 ^ 30) = q := by
  have hl := Int64.le_toInt q
  have hh := Int64.toInt_lt q
  have hs : (q.toInt : ℚ) / 2 ^ 30 * 2 ^ 30 = (q.toInt : ℚ) := by
    rw [div_mul_cancel₀]
    norm_num
  unfold quotaBytes
  simp only [hs]
  have hr : (if (q.toInt : ℚ) < 0 then -round (-(q.toInt : ℚ)) else round (q.toInt : ℚ)) =
      q.toInt := by
    split_ifs
    · rw [← Int.cast_neg,round_intCast,neg_neg]
    · exact round_intCast _
  rw [hr,if_pos ⟨hl,hh⟩]
  exact Int64.ofInt_toInt q

lemma restoredConfig_quota {text : TimeText} {a : Account} {c c' : QuotaConfig} {u : String}
    {conns : Option ℕ} (h : restoredConfig text (a.snapshot c text u conns) = .ok c') :
    c'.quotaBytes = c.quotaBytes := by
  have hr := newQuotaConfig_resolves text ((c.quotaBytes.toInt : ℚ) / 2 ^ 30)
    c.period.text (text.formatPeriodStart c.periodStart) c.periodDays none
  have hp : (0 : ℚ) < (c.quotaBytes.toInt : ℚ) / 2 ^ 30 := by
    have h0 : 0 < c.quotaBytes.toInt := Int64.lt_iff_toInt_lt.mp c.positive
    positivity
  simp only [restoredConfig,Account.snapshot,quotaConfigToOption] at h
  split at h
  · cases h
  · cases h
  · next config hn =>
    cases h
    rw [hn] at hr
    cases hr with
    | tracked _ _ hc =>
      have hq := congrArg ResolvedConfig.quotaBytes hc
      simpa only [QuotaConfig.resolved,merge,if_pos hp,quotaBytes_toOption] using hq

section flags

variable {a : Account} {b : Books} {c : QuotaConfig} {s : UserState} {u : String} {n : Int64}

lemma Account.Flags.userState (h : a.Flags) : TrafficQuota.Flags a.config a.userState := by
  unfold Account.userState
  cases hs : a.state with
  | some s => exact h s hs
  | none =>
    refine ⟨by decide,fun c _ => ?_⟩
    have hp := c.positive
    simp [UserState.empty,Int64.not_lt,Int64.le_of_lt hp]

lemma toInt_add_of_fits {counter : Int64} (hp : 0 ≤ n) (hfits : fits counter n = true) :
    (counter + n).toInt = counter.toInt + n.toInt := by
  have hn : 0 ≤ n.toInt := Int64.le_iff_toInt_le.mp hp
  have hl := Int64.le_toInt counter
  have hh : counter.toInt + n.toInt < 2 ^ 63 := of_decide_eq_true hfits
  rw [Int64.toInt_add]
  exact Int.bmod_eq_of_le (by omega) (by omega)

lemma flags_some (h : TrafficQuota.Flags a.config s) : { a with state := some s }.Flags := by
  rintro _ ⟨⟩
  exact h

lemma flags_counted (ha : a.Flags) (hc : a.config = some c) (hpo : 0 < n)
    (hu : fits a.userState.usage n = true) (hp : fits a.userState.pendingDelta n = true)
    (clock : ℤ) : (a.counted c clock n).Flags := by
  obtain ⟨hde,hf⟩ := ha.userState
  have hn := Int64.le_of_lt hpo
  have hn' : 0 < n.toInt := Int64.lt_iff_toInt_lt.mp hpo
  refine flags_some ⟨?_,fun c' hc' => ?_⟩
  · have hd : 0 ≤ a.userState.pendingDelta.toInt := Int64.le_iff_toInt_le.mp hde
    change 0 ≤ a.userState.pendingDelta + n
    rw [Int64.le_iff_toInt_le,toInt_add_of_fits hn hp]
    change 0 ≤ _
    omega
  · obtain rfl : c = c' := Option.some.inj (hc.symm.trans hc')
    change (a.userState.exceeded || decide (c.quotaBytes < a.userState.usage + n)) = true ↔
      c.quotaBytes < a.userState.usage + n
    rw [Bool.or_eq_true,decide_eq_true_eq,hf c hc,Int64.lt_iff_toInt_lt,
      Int64.lt_iff_toInt_lt,toInt_add_of_fits hn hu]
    omega

lemma flags_rolled (ha : a.Flags) (now : ℤ) : (a.rolled now).Flags := by
  unfold Account.rolled
  split
  · exact ha
  · next c hc =>
    intro _ hma
    obtain ⟨s,hs,rfl⟩ := Option.map_eq_some_iff.mp hma
    unfold rollSection
    split_ifs
    · exact ha s hs
    · exact ha s hs
    · refine ⟨by simp,fun c' _ => ?_⟩
      simp [Int64.not_lt,Int64.le_of_lt c'.positive]

lemma flags_drained (ha : a.Flags) : a.drained.Flags := by
  intro _ hma
  obtain ⟨s,hs,rfl⟩ := Option.map_eq_some_iff.mp hma
  exact ⟨by simp,(ha s hs).2⟩

lemma flags_givenBack {pd : PendingDelta} (ha : a.Flags) (hp : 0 ≤ pd.delta)
    (hfits : fits a.userState.pendingDelta pd.delta = true) : (a.givenBack pd).Flags := by
  obtain ⟨hde,hf⟩ := ha.userState
  refine flags_some ?_
  unfold restoreSection
  split_ifs
  · refine ⟨?_,hf⟩
    have hd : 0 ≤ a.userState.pendingDelta.toInt := Int64.le_iff_toInt_le.mp hde
    have hn : 0 ≤ pd.delta.toInt := Int64.le_iff_toInt_le.mp hp
    change 0 ≤ a.userState.pendingDelta + pd.delta
    rw [Int64.le_iff_toInt_le,toInt_add_of_fits hp hfits]
    change 0 ≤ _
    omega
  · exact ⟨hde,hf⟩

lemma flags_set (hb : ∀ v,(b.account v).Flags) (ha : a.Flags) (v : String) :
    ((b.set u a).account v).Flags := by
  by_cases hv : v = u
  · subst hv
    rwa [account_set]
  · rw [account_set_ne hv]
    exact hb v

lemma account_enqueue (b : Books) (u : String) : (b.enqueue u).account = b.account := by
  unfold Books.enqueue
  split_ifs <;> rfl

lemma flags_ofConfigured {f : QuotaConfig → Account → Account} (hb : ∀ v,(b.account v).Flags)
    (hf : ∀ c,(b.account u).config = some c → (f c (b.account u)).Flags) (v : String) :
    ((b.ofConfigured u f).account v).Flags := by
  unfold Books.ofConfigured
  split
  · exact hb v
  · next c hc => exact flags_set hb (hf c hc) v

lemma userState_books (w : World) (u : String) : w.usage u = (w.books.account u).userState.usage ∧
      w.pendingDelta u = (w.books.account u).userState.pendingDelta := by
  have h : (w.books.account u).state = w.state? u := rfl
  unfold World.usage World.pendingDelta Account.userState
  rw [h]
  cases w.state? u <;> exact ⟨rfl,rfl⟩

lemma flags_after {text : TimeText} {s : Session} {call : Call} (hco : counts s call = true)
    (hb : ∀ v,(s.world.books.account v).Flags) (ht : ∀ state ∈ s.taken,state.Flags text)
    (v : String) : ((s.world.books.after text call).account v).Flags := by
  generalize hbo : s.world.books = b at hb ⊢
  have hcu := fun u => hbo ▸ userState_books s.world u
  have hr : ∀ state ∈ s.taken,∀ c,restoredConfig text state = .ok c →
      ((b.account state.user.name).restored c state).Flags := by
    rintro state hs c hc _ ⟨⟩
    exact ht state hs c hc
  cases call with
  | registerConn u _ | currentPeriodKey u =>
    refine flags_ofConfigured hb (fun c _ => ?_) v
    rintro _ ⟨⟩
    exact (hb u).userState
  | loadUsage u bytes =>
    refine flags_ofConfigured hb (fun c hc => ?_) v
    rintro _ ⟨⟩
    refine ⟨(hb u).userState.1,fun c' hc' => ?_⟩
    obtain rfl : c = c' := Option.some.inj (hc.symm.trans hc')
    exact decide_eq_true_iff
  | addBytes u n =>
    simp only [counts,Bool.and_eq_true,(hcu u).1,(hcu u).2] at hco
    simp only [Books.after,Books.addBytes]
    split_ifs with hn
    · exact hb v
    · rw [account_enqueue]
      refine flags_ofConfigured hb (fun c hc => ?_) v
      exact flags_counted (hb u) hc (Int64.not_le.mp fun h => hn (.inl h)) hco.1 hco.2 _
  | applyConfig user =>
    simp only [Books.after]
    split
    · exact hb v
    · next c hc =>
      refine flags_set hb ?_ v
      rintro _ ⟨⟩
      refine ⟨(hb user.name).userState.1,fun c' hc' => ?_⟩
      obtain rfl : c = c' := Option.some.inj hc'
      exact decide_eq_true_iff
  | removeConfig u =>
    simp only [Books.after]
    split_ifs
    · exact hb v
    · refine flags_set hb ?_ v
      rintro _ ⟨⟩
  | checkPeriodReset now => exact flags_rolled (hb v) now
  | consumePendingDeltas =>
    simp only [Books.after,Books.visit]
    split_ifs
    · exact flags_drained (hb v)
    · exact hb v
  | restorePendingDelta pd =>
    simp only [counts,Bool.and_eq_true,decide_eq_true_eq,(hcu pd.user).2] at hco
    have hba := flags_set (u := pd.user) hb (flags_givenBack (hb pd.user) hco.1 hco.2) v
    simp only [Books.after,Books.restorePendingDelta]
    split_ifs
    · exact hb v
    · rw [account_enqueue]
      exact hba
    · exact hba
  | clearPendingDelta u => exact flags_set hb (flags_drained (hb u)) v
  | snapshotState _ | wait _ => exact hb v
  | restoreState state =>
    simp only [Books.after]
    split
    · exact hb v
    · next c hc => exact flags_set hb (hr state (of_decide_eq_true hco) c hc) v
  | serviceRestoreState state saved =>
    simp only [Books.after]
    split
    · exact hb v
    · next c hc =>
      have hf := (hr state (of_decide_eq_true hco) c hc).userState
      refine flags_set hb ?_ v
      split_ifs
      · rintro _ ⟨⟩
        exact ⟨by simp,hf.2⟩
      · rintro _ ⟨⟩
        exact hf

end flags

section index

variable {b : Books} {u : String} {a : Account} {text : TimeText} {s s' : Session} {call : Call}

/-- Between calls: no lock is held, and the queue lists the dirty users once each. -/
def Books.Idle (b : Books) : Prop :=
  ((∀ x, b.mutex x = none) ∧ b.writer = none ∧ b.readers = ∅) ∧ b.dirtyQueue.Nodup ∧
    ∀ u, u ∈ b.dirtyQueue ↔ u ∈ b.dirtySet

def Books.Covered (b : Books) : Prop :=
  ∀ u, (b.account u).userState.pendingDelta ≠ 0 → u ∈ b.dirtyQueue

lemma Books.Idle.enqueue (h : b.Idle) (u : String) : (b.enqueue u).Idle := by
  obtain ⟨hl,hn,hs⟩ := h
  unfold Books.enqueue
  split_ifs with hu
  · exact ⟨hl,hn,hs⟩
  · have hqu : u ∉ b.dirtyQueue := fun hm => hu ((hs u).mp hm)
    refine ⟨hl,?_,fun v => ?_⟩
    · rw [List.nodup_append]
      refine ⟨hn,List.nodup_singleton u,fun v hv v' hv' h => hqu ?_⟩
      exact List.mem_singleton.mp hv' ▸ h ▸ hv
    · simp [hs,or_comm]

lemma Books.Idle.of_configured {f : QuotaConfig → Account → Account} (h : b.Idle) (u : String) :
    (b.ofConfigured u f).Idle := by
  unfold Books.ofConfigured
  split <;> exact h

lemma Books.Idle.after (h : b.Idle) (text : TimeText) (call : Call) : (b.after text call).Idle := by
  cases call with
  | registerConn u _ | currentPeriodKey u | loadUsage u _ => exact of_configured h u
  | addBytes u n =>
    simp only [Books.after,Books.addBytes]
    split_ifs
    · exact h
    · exact Books.Idle.enqueue (of_configured h u) u
  | applyConfig _ | restoreState _ | serviceRestoreState _ _ =>
    simp only [Books.after]
    split <;> exact h
  | removeConfig _ =>
    simp only [Books.after]
    split_ifs <;> exact h
  | consumePendingDeltas => exact ⟨h.1,List.nodup_nil,by simp [Books.after]⟩
  | restorePendingDelta pd =>
    simp only [Books.after,Books.restorePendingDelta]
    split_ifs
    · exact h
    · exact Books.Idle.enqueue (b := b.set pd.user _) h pd.user
    · exact h
  | checkPeriodReset _ | clearPendingDelta _ | snapshotState _ | wait _ => exact h

/-- Restoring leaves nothing pending that is not queued, or changes nothing. -/
def restoresQueued (text : TimeText) (s : Session) (state : RuntimeState) : Bool :=
  state.pendingDelta = 0 || state.user.name ∈ s.world.dirtyQueue || !(restoredConfig text state).isOk

def harmless (text : TimeText) (s : Session) : Call → Bool
  | .restoreState state => restoresQueued text s state
  | .serviceRestoreState state saved => saved || restoresQueued text s state
  | _ => true

lemma covered_set (hb : b.Covered) (ha : a.userState.pendingDelta ≠ 0 →
    (b.account u).userState.pendingDelta ≠ 0 ∨ u ∈ b.dirtyQueue) : (b.set u a).Covered := by
  intro v hv
  by_cases hvu : v = u
  · subst hvu
    rw [account_set] at hv
    exact (ha hv).elim (hb v) id
  · rw [account_set_ne hvu] at hv
    exact hb v hv

lemma covered_enqueue (hi : b.Idle)
    (hb : ∀ v,v ≠ u → (b.account v).userState.pendingDelta ≠ 0 → v ∈ b.dirtyQueue) :
    (b.enqueue u).Covered := by
  intro v hv
  rw [account_enqueue] at hv
  unfold Books.enqueue
  split_ifs with hu
  · by_cases hvu : v = u
    · exact (hi.2.2 v).mpr (hvu ▸ hu)
    · exact hb v hvu hv
  · by_cases hvu : v = u
    · simp [hvu]
    · exact List.mem_append_left _ (hb v hvu hv)

lemma covered_set_enqueue (hi : b.Idle) (hb : b.Covered) : ((b.set u a).enqueue u).Covered := by
  refine covered_enqueue (b := b.set u a) hi fun v hv hp => hb v ?_
  rwa [account_set_ne hv] at hp

lemma covered_ofConfigured {f : QuotaConfig → Account → Account} (hb : b.Covered)
    (hf : ∀ c a,(f c a).userState.pendingDelta = a.userState.pendingDelta) :
    (b.ofConfigured u f).Covered := by
  unfold Books.ofConfigured
  split
  · exact hb
  · exact covered_set hb fun h => .inl (hf _ _ ▸ h)

lemma pendingDelta_drained (a : Account) : a.drained.userState.pendingDelta = 0 := by
  unfold Account.drained Account.userState
  cases a.state <;> rfl

lemma covered_after (hi : s.world.books.Idle) (hb : s.world.books.Covered)
    (hca : harmless text s call = true) : (s.world.books.after text call).Covered := by
  have hre : ∀ state c,restoresQueued text s state = true → restoredConfig text state = .ok c →
      state.pendingDelta ≠ 0 → state.user.name ∈ s.world.books.dirtyQueue := by
    intro state c hr hc hne
    change state.user.name ∈ s.world.dirtyQueue
    simpa [restoresQueued,hne,hc,Except.isOk,Except.toBool] using hr
  generalize s.world.books = b at hi hb hre ⊢
  cases call with
  | registerConn u _ | currentPeriodKey u | loadUsage u _ =>
    exact covered_ofConfigured hb fun _ _ => rfl
  | addBytes u n =>
    simp only [Books.after,Books.addBytes,Books.ofConfigured]
    split_ifs with hn
    · exact hb
    · split
      · next hc => exact absurd (.inr hc) hn
      · exact covered_set_enqueue hi hb
  | applyConfig user =>
    simp only [Books.after]
    split
    · exact hb
    · exact covered_set hb .inl
  | removeConfig u =>
    simp only [Books.after]
    split_ifs
    · exact hb
    · exact covered_set hb fun h => absurd rfl h
  | checkPeriodReset now =>
    intro u hu
    refine hb u fun hz => hu ?_
    change ((b.account u).rolled now).userState.pendingDelta = 0
    unfold Account.rolled
    split
    · exact hz
    · unfold Account.userState at hz ⊢
      cases hs : (b.account u).state with
      | none => rfl
      | some st =>
        rw [hs] at hz
        simp only [Option.map_some,Option.getD_some,rollSection]
        split_ifs
        · exact hz
        · exact hz
        · rfl
  | consumePendingDeltas =>
    intro u hu
    simp only [Books.after,Books.visit] at hu
    split_ifs at hu with hm
    · exact absurd (pendingDelta_drained _) hu
    · exact absurd (hb u hu) hm
  | restorePendingDelta pd =>
    simp only [Books.after,Books.restorePendingDelta]
    split_ifs with h0 hk
    · exact hb
    · exact covered_set_enqueue hi hb
    · refine covered_set hb fun h => .inl ?_
      rw [Account.givenBack,restoreSection,if_neg hk] at h
      exact h
  | clearPendingDelta u => exact covered_set hb fun h => absurd (pendingDelta_drained _) h
  | snapshotState _ | wait _ => exact hb
  | restoreState state =>
    simp only [Books.after]
    split
    · exact hb
    · next c hc => exact covered_set hb fun h => .inr (hre state c hca hc h)
  | serviceRestoreState state saved =>
    simp only [Books.after]
    split
    · exact hb
    · next c hc =>
      refine covered_set hb fun h => .inr ?_
      cases saved with
      | true => exact absurd rfl h
      | false => exact hre state c hca hc h

lemma books_after (hi : s.world.books.Idle) (hst : step text s call s') :
    s'.world.books = s.world.books.after text call := by
  obtain ⟨r,hr,hs,-⟩ := hst
  obtain ⟨hl,hn,-⟩ := hi
  exact (run_books ⟨hl.1,hl.2.1,hl.2.2⟩ hn hr hs).1

lemma new_idle (configs : UserConfigs) (store : String × String → Option Int64) (clock : ℤ) :
    (Session.new configs store clock).world.books.Idle :=
  ⟨⟨fun _ => rfl,rfl,rfl⟩,List.nodup_nil,by simp [Session.new,World.books]⟩

end index

section runs

variable {text : TimeText} {configs : UserConfigs} {store : String × String → Option Int64}
  {clock : ℤ} {s s' : Session} {call : Call} {u : String} {c : QuotaConfig} {state : UserState}

structure Session.Exact (text : TimeText) (s : Session) : Prop where
  idle : s.world.books.Idle
  flags : ∀ u, (s.world.books.account u).Flags
  taken : ∀ state ∈ s.taken, state.Flags text

lemma Session.Exact.step (h : s.Exact text) (hst : step text s call s')
    (hco : counts s call = true) : s'.Exact text := by
  have hb := books_after h.idle hst
  refine ⟨hb ▸ Books.Idle.after h.idle text call,fun u => ?_,fun state hs => ?_⟩
  · rw [hb]
    exact flags_after hco h.flags h.taken u
  · obtain ⟨r,hr,hsa,ht⟩ := hst
    obtain ⟨hl,hn,-⟩ := h.idle
    rw [ht] at hs
    rcases List.mem_append.mp hs with hne | hold
    · obtain ⟨u,c,conns,hc,rfl⟩ := (run_books ⟨hl.1,hl.2.1,hl.2.2⟩ hn hr hsa).2 state hne
      intro c' hc'
      have hf := (h.flags u).userState
      refine ⟨hf.1,fun c'' h'' => ?_⟩
      rw [← Option.some.inj h'',restoredConfig_quota hc']
      exact hf.2 c hc
    · exact h.taken state hold

def Session.next (text : TimeText) (s : Session) (call : Call) : Option Session :=
  (((call.run text).runs outcomes 0 s.world).find? fun r => r.1.2 == call.saved).map
    fun r => ⟨r.2,r.1.1 ++ s.taken⟩

lemma step_of_next (h : s.next text call = some s') : step text s call s' := by
  obtain ⟨r,hr,rfl⟩ := Option.map_eq_some_iff.mp h
  exact ⟨r.1,List.mem_of_find?_eq_some hr,by simpa using List.find?_some hr,rfl⟩

lemma reaches_of_calls {test : Session → Call → Bool} {calls : List Call}
    (h : follow (Session.next text) test calls s = some s') :
    Reaches (step text) (fun s call => test s call = true) s s' :=
  (reaches_of_follow .start h).of_step fun _ _ _ => step_of_next

def aliceSession : Session :=
  Session.new aliceWorld.userConfigs aliceWorld.store aliceWorld.clock

/-- After every history of calls, made one at a time from a new manager, in which no counter
overflows: the flag says whether the usage is beyond the quota. -/
theorem exceeded_flag_exact (hrun : Reaches (step text) (fun s call => counts s call = true)
      (Session.new configs store clock) s)
    (hc : s.world.userConfigs.lookup u = some c) (hs : s.world.state? u = some state) :
    (state.exceeded = true ↔ c.quotaBytes < state.usage) ∧ 0 < c.quotaBytes ∧
      0 ≤ state.pendingDelta := by
  have he : s.Exact text := hrun.invariant _ ⟨new_idle _ _ _,fun _ => nofun,nofun⟩
    fun s call s' h hst hco => h.step hst hco
  obtain ⟨hp,hf⟩ := he.flags u state hs
  exact ⟨hf c hc,c.positive,hp⟩

theorem exceeded_flag_exact_alice : ∃ s, Reaches (step plainText)
    (fun s call => counts s call = true) aliceSession s ∧
    ∃ state, s.world.state? "alice" = some state ∧ state.usage = 1500 ∧
    (state.exceeded = true ↔ aliceConfig.quotaBytes < state.usage) ∧
    0 < aliceConfig.quotaBytes ∧ 0 ≤ state.pendingDelta := by
  have hf : (follow (Session.next plainText) counts [.addBytes "alice" 1500]
      aliceSession).map (fun s => (s.world.userConfigs.lookup "alice",
        (s.world.state? "alice").map UserState.usage)) =
      some (some aliceConfig,some 1500) := by decide +kernel
  obtain ⟨s,hs,heq⟩ := Option.map_eq_some_iff.mp hf
  obtain ⟨hco,hu⟩ := Prod.mk.inj heq
  obtain ⟨state,hst,hu⟩ := Option.map_eq_some_iff.mp hu
  have hr := reaches_of_calls hs
  exact ⟨s,hr,state,hst,hu,exceeded_flag_exact hr hco hst⟩

/-- A delta that is given back is not checked: what is pending can become negative. -/
theorem negative_delta_pending : ∃ s s', step plainText aliceSession (.addBytes "alice" 5) s ∧
    step plainText s (.restorePendingDelta ⟨"alice","2026-05-14",-8⟩) s' ∧
    s'.world.userConfigs.lookup "alice" = some aliceConfig ∧
    s'.world.usage "alice" = 5 ∧ s'.world.pendingDelta "alice" < 0 := by
  have hca : ((aliceSession.next plainText (.addBytes "alice" 5)).bind fun s =>
      (s.next plainText (.restorePendingDelta ⟨"alice","2026-05-14",-8⟩)).map fun s' =>
        (s'.world.userConfigs.lookup "alice",s'.world.usage "alice",
          s'.world.pendingDelta "alice")) = some (some aliceConfig,5,-3) := by decide +kernel
  obtain ⟨s,ha,hr⟩ := Option.bind_eq_some_iff.mp hca
  obtain ⟨s',hg,heq⟩ := Option.map_eq_some_iff.mp hr
  obtain ⟨hco,hu,hp⟩ := by simpa only [Prod.mk.injEq] using heq
  exact ⟨s,s',step_of_next ha,step_of_next hg,hco,hu,by rw [hp]; decide⟩

/-- The index is a set, and who is configured and has bytes pending is in it. -/
structure DirtyCovers (w : World) : Prop where
  nodup : w.dirtyQueue.Nodup
  same : ∀ u, u ∈ w.dirtyQueue ↔ u ∈ w.dirtySet
  covers : ∀ u c state, w.userConfigs.lookup u = some c → w.state? u = some state →
    state.pendingDelta ≠ 0 → u ∈ w.dirtyQueue

/-- ConsumePendingDeltas returns what is pending, once a user, and leaves nothing. -/
def ConsumesAll (w : World) : Prop :=
  (∃ r w', (r,w') ∈ consumePendingDeltas.runs outcomes 0 w) ∧
  ∀ r w', (r,w') ∈ consumePendingDeltas.runs outcomes 0 w → (r.map PendingDelta.user).Nodup ∧
    (∀ pd, pd ∈ r ↔ ∃ state, w.state? pd.user = some state ∧ state.pendingDelta ≠ 0 ∧
      pd = ⟨pd.user,state.periodKey,state.pendingDelta⟩) ∧ ∀ u, w'.pendingDelta u = 0

lemma mem_pending {a : Account} {pd : PendingDelta} : pd ∈ a.pending u ↔
    ∃ state,a.state = some state ∧ state.pendingDelta ≠ 0 ∧
      pd = ⟨u,state.periodKey,state.pendingDelta⟩ := by
  rw [Account.pending,Option.mem_def,Option.bind_eq_some_iff]
  refine exists_congr fun state => and_congr_right fun _ => ?_
  split_ifs with h
  · simp [h]
  · simp [h,eq_comm]

lemma consumesAll (text : TimeText) (hi : s.world.books.Idle) (hb : s.world.books.Covered) :
    ConsumesAll s.world := by
  have he : consumePendingDeltas.Ends outcomes 0 (fun r w' =>
      r = s.world.dirtyQueue.filterMap (fun u => (s.world.books.account u).pending u) ∧
        w'.books = s.world.books.after text .consumePendingDeltas) s.world :=
    Prog.ends_one rfl (consumeUsers_ends (w := { s.world with dirtySet := ∅,dirtyQueue := [] }) []
      hi.2.1)
  refine ⟨?_,fun r w' hr => ?_⟩
  · obtain ⟨r,w',hr,-⟩ := he.exists_run
    exact ⟨r,w',hr⟩
  obtain ⟨rfl,hbo⟩ := he.of_mem_runs hr
  refine ⟨?_,fun pd => ?_,fun u => ?_⟩
  · rw [List.map_filterMap]
    refine List.Nodup.filterMap (fun v v' x hx hx' => ?_) hi.2.1
    have hu : ∀ {v},x ∈ ((s.world.books.account v).pending v).map PendingDelta.user → v = x := by
      intro v h
      obtain ⟨pd,hpd,rfl⟩ := Option.mem_map.mp h
      obtain ⟨state,-,-,rfl⟩ := mem_pending.mp hpd
      rfl
    exact (hu hx).trans (hu hx').symm
  · rw [List.mem_filterMap]
    constructor
    · rintro ⟨u,-,hpd⟩
      obtain ⟨state,hs,hne,rfl⟩ := mem_pending.mp hpd
      exact ⟨state,hs,hne,rfl⟩
    · rintro ⟨state,hs,hne,hpd⟩
      refine ⟨pd.user,hb pd.user ?_,mem_pending.mpr ⟨state,hs,hne,hpd⟩⟩
      rwa [Account.userState,show (s.world.books.account pd.user).state = _ from hs]
  · rw [(userState_books w' u).2,hbo]
    by_contra hne
    have hh : harmless text s .consumePendingDeltas = true := rfl
    have hqu := covered_after hi hb hh u hne
    simp [Books.after] at hqu

lemma dirtyCovers (hi : s.world.books.Idle) (hb : s.world.books.Covered) : DirtyCovers s.world := by
  refine ⟨hi.2.1,hi.2.2,fun u c state _ hs hne => hb u ?_⟩
  rwa [Account.userState,show (s.world.books.account u).state = _ from hs]

lemma not_covers_of_not_harmless (hbo : s'.world.books = s.world.books.after text call)
    (hca : harmless text s call = false) : ¬ DirtyCovers s'.world := by
  have hba : ∀ state,restoresQueued text s state = false → ∀ c a,
      restoredConfig text state = .ok c → s'.world.books = s.world.books.set state.user.name a →
      a.config = some c → (∃ key,a.state = some ⟨state.usageBytes,state.pendingDelta,
        state.exceeded,key⟩) → ¬ DirtyCovers s'.world := by
    rintro state hr c a hc hb hco ⟨key,hs⟩ h
    simp only [restoresQueued,Bool.or_eq_false_iff,decide_eq_false_iff_not] at hr
    refine hr.1.2 ?_
    have ha : s'.world.books.account state.user.name = a := by rw [hb,account_set]
    have hme := h.covers state.user.name c _ ((congrArg Account.config ha).trans hco)
      ((congrArg Account.state ha).trans hs) hr.1.1
    rwa [show s'.world.dirtyQueue = s.world.dirtyQueue from congrArg Books.dirtyQueue hb] at hme
  have hok : ∀ state,restoresQueued text s state = false → ∃ c,restoredConfig text state = .ok c := by
    intro state hr
    simp only [restoresQueued,Bool.or_eq_false_iff] at hr
    cases hc : restoredConfig text state with
    | ok c => exact ⟨c,rfl⟩
    | error err => simp [hc,Except.isOk,Except.toBool] at hr
  cases call with
  | restoreState state =>
    obtain ⟨c,hc⟩ := hok state hca
    simp only [Books.after,hc] at hbo
    exact hba state hca c _ hc hbo rfl ⟨_,rfl⟩
  | serviceRestoreState state saved =>
    simp only [harmless,Bool.or_eq_false_iff] at hca
    obtain ⟨c,hc⟩ := hok state hca.2
    simp only [Books.after,hc,hca.1] at hbo
    exact hba state hca.2 c _ hc hbo rfl ⟨_,rfl⟩
  | _ => cases hca

/-- In every history of calls, made one at a time from a new manager, that restores nothing
pending for a user who is not queued, the index covers what is pending; and such a restore is
the only call after which it does not. -/
theorem dirty_index_covers (hrun : Reaches (step text) (fun s call => harmless text s call = true)
      (Session.new configs store clock) s) :
    DirtyCovers s.world ∧ ConsumesAll s.world ∧ ∀ call s', step text s call s' →
      (DirtyCovers s'.world ↔ harmless text s call = true) := by
  obtain ⟨hi,hco⟩ := hrun.invariant (fun s => s.world.books.Idle ∧ s.world.books.Covered)
    ⟨new_idle _ _ _,fun u h => absurd rfl h⟩ fun s call s' h hs hca => by
      rw [books_after h.1 hs]
      exact ⟨Books.Idle.after h.1 text call,covered_after h.1 h.2 hca⟩
  refine ⟨dirtyCovers hi hco,consumesAll text hi hco,fun call s' hs => ?_⟩
  have hb := books_after hi hs
  cases hca : harmless text s call with
  | true =>
    refine iff_of_true (dirtyCovers ?_ ?_) rfl
    · exact hb ▸ Books.Idle.after hi text call
    · exact hb ▸ covered_after hi hco hca
  | false => exact iff_of_false (not_covers_of_not_harmless hb hca) Bool.false_ne_true

theorem dirty_index_covers_alice : ∃ s, Reaches (step plainText)
    (fun s call => harmless plainText s call = true) aliceSession s ∧
    s.world.pendingDelta "alice" = 1500 ∧ DirtyCovers s.world ∧ ConsumesAll s.world ∧
    ∀ call s', step plainText s call s' →
      (DirtyCovers s'.world ↔ harmless plainText s call = true) := by
  have hf : (follow (Session.next plainText) (harmless plainText)
      [.addBytes "alice" 1500,.snapshotState "alice"] aliceSession).map
      (fun s => s.world.pendingDelta "alice") = some 1500 := by decide +kernel
  obtain ⟨s,hs,hp⟩ := Option.map_eq_some_iff.mp hf
  have hr := reaches_of_calls hs
  exact ⟨s,hr,hp,dirty_index_covers hr⟩

/-- After every history of calls, made one at a time from a new manager, no lock is left and the queue
lists the dirty users once each; and every further call does to the books what the abstract one does. -/
theorem calls_refine_books (hrun : Reaches (step text) anyStep (Session.new configs store clock) s) :
    s.world.books.Idle ∧ ∀ call s',step text s call s' →
      s'.world.books = s.world.books.after text call := by
  have hi : s.world.books.Idle := hrun.invariant _ (new_idle _ _ _) fun s call s' h hs _ =>
    books_after h hs ▸ Books.Idle.after h text call
  exact ⟨hi,fun call s' => books_after hi⟩

theorem calls_refine_books_alice : ∃ s,Reaches (step plainText) anyStep aliceSession s ∧
    s.world.dirtyQueue = ["alice"] ∧ s.world.books.Idle ∧ ∀ call s',step plainText s call s' →
      s'.world.books = s.world.books.after plainText call := by
  have hf : (follow (Session.next plainText) (fun _ _ => true) [.addBytes "alice" 5]
      aliceSession).map (fun s => s.world.dirtyQueue) = some ["alice"] := by decide +kernel
  obtain ⟨s,hs,hd⟩ := Option.map_eq_some_iff.mp hf
  have hr := (reaches_of_calls hs).mono fun _ _ _ => trivial
  exact ⟨s,hr,hd,calls_refine_books hr⟩

/-- Alice's snapshot with 5 bytes pending, which the flush saves before the snapshot is restored:
the restored bytes are pending, and no flush visits them. -/
def pendingSnapshot : RuntimeState :=
  ⟨quotaConfigToOption plainText "alice" aliceConfig,5,5,false,"2026-05-14",none⟩

theorem restored_delta_unqueued : ∃ s s', Reaches (step plainText) anyStep aliceSession s ∧
    pendingSnapshot ∈ s.taken ∧
    step plainText s (.serviceRestoreState pendingSnapshot false) s' ∧
    "alice" ∈ s'.world.userConfigs ∧ s'.world.pendingDelta "alice" = 5 ∧
    s'.world.dirtyQueue = [] ∧ ¬ DirtyCovers s'.world := by
  have hf : (follow (Session.next plainText) (fun _ _ => true)
      [.addBytes "alice" 5,.snapshotState "alice",.consumePendingDeltas] aliceSession).bind
      (fun s => (s.next plainText (.serviceRestoreState pendingSnapshot false)).map fun s' =>
        (decide (pendingSnapshot ∈ s.taken),s'.world.userConfigs.lookup "alice",
          s'.world.state? "alice",s'.world.dirtyQueue)) =
      some (true,some aliceConfig,some ⟨5,5,false,"2026-05-14"⟩,[]) := by decide +kernel
  obtain ⟨s,hs,hre⟩ := Option.bind_eq_some_iff.mp hf
  obtain ⟨s',hr,heq⟩ := Option.map_eq_some_iff.mp hre
  obtain ⟨ht,hco,hst,hqu⟩ := by simpa only [Prod.mk.injEq] using heq
  refine ⟨s,s',(reaches_of_calls hs).mono fun _ _ _ => trivial,of_decide_eq_true ht,
    step_of_next hr,?_,?_,hqu,fun h => ?_⟩
  · exact AList.lookup_isSome.mp (by rw [hco]; rfl)
  · rw [World.pendingDelta,hst]
  · have hme := h.covers "alice" _ _ hco hst (by decide)
    simp [hqu] at hme

end runs

end SingBoxAuth.TrafficQuota
