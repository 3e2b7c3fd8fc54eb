import SingBoxAuth.QuotaConservation

/-! The in-memory usage against the store. LoadUsage overwrites a live counter with
a total read earlier in the flush, and clears the flag that later additions may
have set. -/
namespace SingBoxAuth.TrafficQuota
open Interleaving

def Act.answers : (a : Act) → a.Res → Bool
  | .incrBy _ _ _, done => done
  | .loadMany _ _, totals => totals.isSome
  | _, _ => true

def steadfast (config : QuotaConfig) (key : String) : Exec Act Act.Res World :=
  fun t a w r w' => within config key t a w r w' ∧ a.answers r = true

/-- A reload finds no bytes added since the delta was consumed, and a clear of the
flag finds the usage within the quota. -/
def Act.fresh (u : String) (config : QuotaConfig) (w : World) : Act → Bool
  | .storeUsage v _ _ => v = u → w.pendingDelta u = 0
  | .storeExceeded v _ _ => v = u → ¬ config.quotaBytes < w.usage u
  | _ => true

def freshly (u : String) (config : QuotaConfig) (key : String) : Exec Act Act.Res World :=
  fun t a w r w' => steadfast config key t a w r w' ∧ a.fresh u config w = true

/-- An excess of the usage is flagged, or a thread is about to flag it. -/
def Flagged (u : String) (config : QuotaConfig) (m : Instant) : Prop :=
  config.quotaBytes < m.state.usage u → m.state.isExceeded u = true ∨
    ∃ t total, tripDue t m.history = some (u,total) ∧ config.quotaBytes < total

structure Exact (start : Int64) (u : String) (config : QuotaConfig) (key : String)
    (m : Instant) : Prop extends Ledger start u config key m where
  usage : m.state.usage u = start + accepted u m.history
  written : ∀ t k d r, (⟨t,.incrBy u k d,r⟩ : Event Act Act.Res) ∈ m.history → k = key
  flagged : Flagged u config m

lemma usage_of_state? {w : World} {u : String} {s : UserState} (h : w.state? u = some s) :
    w.usage u = s.usage := by
  simp [World.usage,h]

lemma isExceeded_of_state? {w : World} {u : String} {s : UserState} (h : w.state? u = some s) :
    w.isExceeded u = s.exceeded := by
  simp [World.isExceeded,h]

section step

variable {start : Int64} {u : String} {config : QuotaConfig} {key : String} {m : Instant} {t : ℕ}
  {w : World}

lemma tripDue_kept {a : Act} {r : a.Res} {t' : ℕ} {total : Int64} (hp : Obliged t a m)
    (hc : m.state.userConfigs.lookup u = some config) (ha : ∀ g,a ≠ .trip u g)
    (hd : tripDue t' m.history = some (u,total)) (hq : config.quotaBytes < total) :
    tripDue t' (⟨t,a,r⟩ :: m.history) = some (u,total) := by
  by_cases ht : t = t'
  · subst ht
    obtain rfl | ⟨g,rfl⟩ := hp.trip u total config hd hc hq
    · simpa [tripDue,tripDueAfter] using hd
    · exact absurd rfl (ha g)
  · exact (tripDue_other (e := ⟨t,a,r⟩) ht).trans hd

lemma Flagged.kept {a : Act} {r : a.Res} (h : Flagged u config m) (hp : Obliged t a m)
    (hc : m.state.userConfigs.lookup u = some config) (ha : ∀ g,a ≠ .trip u g)
    (hu : w.usage u = m.state.usage u) (hx : w.isExceeded u = m.state.isExceeded u) :
    Flagged u config (m.after t a r w) := by
  intro hlt
  rw [Moment.after_state,hu] at hlt
  obtain hex | ⟨t',total,hd,hq⟩ := h hlt
  · exact .inl (hx.trans hex)
  · exact .inr ⟨t',total,tripDue_kept hp hc ha hd hq,hq⟩

lemma written_step {a : Act} {r : a.Res} (h : Exact start u config key m)
    (hp : TrafficPre t a m) (t' : ℕ) (k : String) (d : Int64) (r' : Bool)
    (he : (⟨t',.incrBy u k d,r'⟩ : Event Act Act.Res) ∈ (m.after t a r w).history) :
    k = key := by
  obtain he | he := List.mem_cons.mp he
  · cases he
    exact h.keys _ hp.needs.2
  · exact h.written t' k d r' he

lemma Exact.kept {a : Act} {r : a.Res} (h : Exact start u config key m) (hi : TrafficInv m)
    (hp : TrafficPre t a m) (hco : a.Counting) (he : within config key t a m.state r w)
    (ha : ∀ g,a ≠ .trip u g) (hu : w.usage u = m.state.usage u)
    (hx : w.isExceeded u = m.state.isExceeded u)
    (hac : accepted u (⟨t,a,r⟩ :: m.history) = accepted u m.history) :
    Exact start u config key (m.after t a r w) :=
  ⟨h.toLedger.step hi hp hco he,hu.trans (h.usage.trans (by rw [Moment.after_history,hac])),
    written_step h hp,h.flagged.kept hp.toObliged h.configured ha hu hx⟩

lemma Exact.modify {a : Act} {r : a.Res} {g : ℕ} {f : UserState → UserState}
    (h : Exact start u config key m) (hi : TrafficInv m) (hp : TrafficPre t a m)
    (hco : a.Counting) (he : within config key t a m.state r w)
    (hw : w = m.state.modifyState u g f) (hg : m.state.states u = some g)
    (hf : ∀ s,(f s).usage = s.usage ∧ (f s).exceeded = s.exceeded) (ha : ∀ g,a ≠ .trip u g)
    (hac : accepted u (⟨t,a,r⟩ :: m.history) = accepted u m.history) :
    Exact start u config key (m.after t a r w) := by
  have hs := state?_of_states hg
  have hs' : w.state? u = some (f (m.state.stateHeap (u,g))) := by
    rw [hw,state?_modifyState hg,hs,Option.map_some]
  refine h.kept hi hp hco he ha ?_ ?_ hac
  · rw [usage_of_state? hs',usage_of_state? hs,(hf _).1]
  · rw [isExceeded_of_state? hs',isExceeded_of_state? hs,(hf _).2]

lemma Exact.stateFor {g : ℕ} (h : Exact start u config key m) (hi : TrafficInv m)
    (hp : TrafficPre t (.stateFor u) m) (he : within config key t (.stateFor u) m.state g w) :
    Exact start u config key (m.after t (.stateFor u) g w) := by
  have hw : w.state? u = some ((m.state.state? u).getD .empty) := by
    have he' := he.1
    replace he' := exec_pair he' rfl
    have := state?_stateFor m.state u
    rwa [← he'] at this
  refine h.kept hi hp trivial he nofun ?_ ?_ rfl
  · rw [usage_of_state? hw,World.usage]
    cases m.state.state? u <;> rfl
  · rw [isExceeded_of_state? hw,World.isExceeded]
    cases m.state.state? u <;> rfl

lemma Exact.addBytes {g : ℕ} {n : Int64} {r : Option (String × Int64)}
    (h : Exact start u config key m) (hi : TrafficInv m)
    (hp : TrafficPre t (.addBytes u g n) m)
    (he : within config key t (.addBytes u g n) m.state r w) :
    Exact start u config key (m.after t (.addBytes u g n) r w) := by
  have hg := hp.needs.1
  have hs := state?_of_states hg
  have hu := h.usage
  rw [usage_of_state? hs] at hu
  have he' := he.1
  replace he' := exec_pair he' rfl
  obtain ⟨-,hn,-⟩ | ⟨k,-,ha⟩ := addSection_cases m.state u g n
  · rw [h.configured] at hn
    cases hn
  rw [ha,Prod.mk.injEq] at he'
  obtain ⟨rfl,rfl⟩ := he'
  have hs' := state?_modifyState hg fun s => { s with periodKey := k }.add n
  rw [hs,Option.map_some] at hs'
  refine ⟨h.toLedger.step hi hp trivial he,?_,written_step h hp,fun hlt => .inr ?_⟩
  · rw [Moment.after_state,usage_of_state? hs']
    simp only [Moment.after_history,accepted,List.foldr_cons,acceptedAfter,if_true,
      UserState.add] at hu ⊢
    grind
  · rw [Moment.after_state,usage_of_state? hs'] at hlt
    exact ⟨t,(m.state.stateHeap (u,g)).usage + n,by simp [tripDue,tripDueAfter],hlt⟩

lemma Exact.storeUsage {g : ℕ} {b : Int64} {r : Unit} (h : Exact start u config key m)
    (hi : TrafficInv m) (hp : TrafficPre t (.storeUsage u g b) m)
    (he : within config key t (.storeUsage u g b) m.state r w) (hz : m.state.pendingDelta u = 0) :
    Exact start u config key (m.after t (.storeUsage u g b) r w) := by
  obtain ⟨-,hg,hh,k,d,-,hin,hb⟩ := hp.needs
  have hk : k = key := h.written t k d true hin
  have hs := state?_of_states hg
  have hba := h.balance
  rw [hz,inFlight,hh u,World.persisted,← hk,hb] at hba
  have he' := he.1
  obtain ⟨-,rfl⟩ := exec_one he' rfl
  have hs' := state?_modifyState hg fun s => { s with usage := b }
  rw [hs,Option.map_some] at hs'
  refine ⟨h.toLedger.step hi hp trivial he,?_,written_step h hp,fun hlt => .inr ?_⟩
  · rw [Moment.after_state,usage_of_state? hs',Moment.after_history,
      show accepted u (⟨t,.storeUsage u g b,r⟩ :: m.history) = accepted u m.history from rfl]
    simpa using hba
  · rw [Moment.after_state,usage_of_state? hs'] at hlt
    exact ⟨t,b,by simp [tripDue,tripDueAfter],hlt⟩

/-- Every step within the period, with fresh reloads, keeps the usage exact. -/
theorem Exact.step {a : Act} {r : a.Res} (h : Exact start u config key m) (hi : TrafficInv m)
    (hp : TrafficPre t a m) (hco : a.Counting) (he : freshly u config key t a m.state r w) :
    Exact start u config key (m.after t a r w) := by
  obtain ⟨⟨hwi,-⟩,hf⟩ := he
  have he' := hwi.1
  by_cases hu : a.Touches u
  · cases a with
    | stateFor v => subst hu; exact h.stateFor hi hp hwi
    | addBytes v g n => subst hu; exact h.addBytes hi hp hwi
    | storeUsage v g b => subst hu; exact h.storeUsage hi hp hwi (of_decide_eq_true hf rfl)
    | consume v g =>
      subst hu
      replace he' := exec_one he' rfl
      exact h.modify hi hp hco hwi he'.2 hp.needs.2 (fun _ => ⟨rfl,rfl⟩) (by simp) rfl
    | restore v g k d =>
      subst hu
      replace he' := exec_one he' rfl
      refine h.modify hi hp hco hwi he'.2 hp.needs.2.1 (fun s => ?_) (by simp) rfl
      unfold restoreSection
      split_ifs <;> exact ⟨rfl,rfl⟩
    | setPeriodKeyIfEmpty v g k =>
      subst hu
      replace he' := exec_one he' rfl
      refine h.modify hi hp hco hwi he'.2 hp.needs.1 (fun s => ?_) (by simp) rfl
      split_ifs <;> exact ⟨rfl,rfl⟩
    | incrBy v k d =>
      subst hu
      have hw : w.state? v = m.state.state? v := by
        simp only [exec_iff,outcomes,List.mem_cons,List.not_mem_nil,or_false,Prod.mk.injEq] at he'
        obtain ⟨-,rfl⟩ | ⟨-,rfl⟩ := he' <;> rfl
      refine h.kept hi hp hco hwi (by simp) ?_ ?_ rfl
      · rw [World.usage,hw,World.usage]
      · rw [World.isExceeded,hw,World.isExceeded]
    | storeExceeded v g b =>
      subst hu
      replace he' := exec_one he' rfl
      have hs := state?_of_states hp.needs.2.1
      have hs' := state?_modifyState hp.needs.2.1 fun s => { s with exceeded := b }
      rw [hs,Option.map_some,← he'.2] at hs'
      have hsa : w.usage v = m.state.usage v := by rw [usage_of_state? hs',usage_of_state? hs]
      refine ⟨h.toLedger.step hi hp trivial hwi,hsa.trans h.usage,written_step h hp,
        fun hlt => absurd ?_ (of_decide_eq_true hf rfl)⟩
      rwa [Moment.after_state,hsa] at hlt
    | trip v g =>
      subst hu
      replace he' := exec_one he' rfl
      have hs := state?_of_states hp.needs
      have hs' := state?_modifyState hp.needs fun s => { s with exceeded := true }
      rw [hs,Option.map_some,← he'.2] at hs'
      refine ⟨h.toLedger.step hi hp trivial hwi,?_,written_step h hp,fun _ => .inl ?_⟩
      · rw [Moment.after_state,usage_of_state? hs',← usage_of_state? hs]
        exact h.usage
      · rw [Moment.after_state,isExceeded_of_state? hs']
    | rollPeriod v g k | deleteRecord v k => exact hco.elim
    | _ => exact hu.elim
  · obtain ⟨hs,-,-⟩ := untouched hp he' hu
    refine h.kept hi hp hco hwi (fun g hg => hu (hg ▸ rfl)) ?_ ?_ (accepted_untouched hu _)
    · rw [World.usage,hs,World.usage]
    · rw [World.isExceeded,hs,World.isExceeded]

end step

def steadfastOutcomes (config : QuotaConfig) (key : String) : Outcomes Act Act.Res World :=
  (withinOutcomes config key).only fun a _ r _ => a.answers r

lemma steadfast_eq (config : QuotaConfig) (key : String) :
    steadfast config key = (steadfastOutcomes config key).exec := by
  funext t a w r w'
  simp [steadfast,within_eq,steadfastOutcomes,Outcomes.only_exec]

/-- A flush of 7 bytes; before it stores the total it has read, 2000 more bytes are
added and the user is flagged. -/
def staleMoves : List (Move Act Act.Res) :=
  launch 1 (addBytes "alice" 7) 4 ++ launch 2 (void flushPending) 8 ++
    launch 1 (addBytes "alice" 2000) 6 ++ proceed 2 8

lemma staleMoves_startable : Startable countingOps staleMoves :=
  (((startable_launch (fun _ => .inl ⟨_,_,rfl⟩) 4).append
    (startable_launch (fun _ => .inr (.inl rfl)) 8)).append
    (startable_launch (fun _ => .inl ⟨_,_,rfl⟩) 6)).append (startable_proceed _ 2 8)

def freshlyOutcomes (u : String) (config : QuotaConfig) (key : String) :
    Outcomes Act Act.Res World :=
  (steadfastOutcomes config key).only fun a w _ _ => a.fresh u config w

lemma freshly_eq (u : String) (config : QuotaConfig) (key : String) :
    freshly u config key = (freshlyOutcomes u config key).exec := by
  funext t a w r w'
  simp [freshly,steadfast_eq,freshlyOutcomes,Outcomes.only_exec]

/-- The same flush without the late addition, and 2000 bytes after it. -/
def freshMoves : List (Move Act Act.Res) :=
  launch 1 (addBytes "alice" 7) 4 ++ launch 2 (void flushPending) 16 ++
    launch 1 (addBytes "alice" 2000) 6

lemma freshMoves_startable : Startable countingOps freshMoves :=
  ((startable_launch (fun _ => .inl ⟨_,_,rfl⟩) 4).append
    (startable_launch (fun _ => .inr (.inl rfl)) 16)).append
    (startable_launch (fun _ => .inl ⟨_,_,rfl⟩) 6)

end SingBoxAuth.TrafficQuota
