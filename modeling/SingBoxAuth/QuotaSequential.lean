import SingBoxAuth.InterleavingSolo
import SingBoxAuth.QuotaEffects

/-! What the operations of the quota service do when nothing interrupts them. -/
namespace SingBoxAuth.TrafficQuota
open Interleaving

def UserState.keyed (s : UserState) (key : String) : UserState :=
  { s with periodKey := if s.periodKey = "" then key else s.periodKey }

namespace World

/-- The key that CurrentPeriodKey returns for a configured user. -/
def currentKey (w : World) (u : String) (c : QuotaConfig) : String :=
  match w.state? u with
  | some s => if s.periodKey = "" then keyAt c w.clock else s.periodKey
  | none => keyAt c w.clock

def withState (w : World) (u : String) (f : UserState → UserState) : World :=
  (w.stateFor u).2.modifyState u (w.stateFor u).1 f

/-- The flag of a configured user says whether the usage is beyond the quota. -/
def settled (w : World) (u : String) (c : QuotaConfig) : World :=
  w.withState u fun s => { s.keyed (keyAt c w.clock) with exceeded := c.quotaBytes < s.usage }

def applied (w : World) (u : String) (c : QuotaConfig) : World :=
  { w with userConfigs := w.userConfigs.insert u c }.settled u c

def usageLoaded (w : World) (u : String) (c : QuotaConfig) (bytes : Int64) : World :=
  w.withState u fun s =>
    { s.keyed (keyAt c w.clock) with usage := bytes, exceeded := c.quotaBytes < bytes }

def keyed (w : World) (u : String) (c : QuotaConfig) : World :=
  w.withState u (·.keyed (keyAt c w.clock))

def withClosed (w : World) (closed : Conn → Bool) : World := { w with closed }

/-- After RemoveConfig of the manager, with what became of the connections. -/
def removed (w : World) (u : String) (closed : Conn → Bool) (lists : String × ℕ → List Conn) :
    World :=
  { w with
    userConfigs := w.userConfigs.erase u
    states := Function.update w.states u none
    activeConns := Function.update w.activeConns u none
    listHeap := lists
    closed }

lemma modifyState_modifyState (w : World) (u : String) (g : ℕ) (f f' : UserState → UserState) :
    (w.modifyState u g f).modifyState u g f' = w.modifyState u g (f' ∘ f) := by
  simp [modifyState]

lemma modifyState_id (w : World) (u : String) (g : ℕ) (f : UserState → UserState)
    (hf : f (w.stateHeap (u,g)) = w.stateHeap (u,g)) : w.modifyState u g f = w := by
  simp [modifyState,hf]

lemma modifyState_congr {w : World} {u : String} {g : ℕ} {f f' : UserState → UserState}
    (h : f (w.stateHeap (u,g)) = f' (w.stateHeap (u,g))) :
    w.modifyState u g f = w.modifyState u g f' := by
  rw [modifyState,modifyState,h]

lemma stateHeap_modifyState (w : World) (u : String) (g : ℕ) (f : UserState → UserState) :
    (w.modifyState u g f).stateHeap (u,g) = f (w.stateHeap (u,g)) := by
  simp [modifyState]

end World

section rules

variable {t : ℕ} {w : World} {u : String} {c : QuotaConfig} {g : ℕ}

lemma markAll_ends {conns : List Conn} {Q : Unit → World → Prop}
    (h : ∀ closed,Q () (w.withClosed closed)) : (markAll conns).Ends outcomes t Q w := by
  induction conns generalizing w with
  | nil => exact h w.closed
  | cons conn conns ih => exact Prog.ends_one rfl (ih fun closed => h closed)

lemma tripExceeded_ends {Q : Unit → World → Prop}
    (h : ∀ closed,Q () ((w.modifyState u g fun s => { s with exceeded := true }).withClosed closed)) :
    (tripExceeded u g).Ends outcomes t Q w := by
  refine Prog.ends_one rfl ?_
  split
  · exact h w.closed
  · refine Prog.ends_one rfl ?_
    split
    · exact h w.closed
    · exact Prog.ends_one rfl (markAll_ends h)

lemma settleExceeded_ends {usage quota : Int64} {Q : Unit → World → Prop}
    (h : ∀ closed,Q () ((w.modifyState u g fun s =>
      { s with exceeded := decide (quota < usage) }).withClosed closed)) :
    (settleExceeded u g usage quota).Ends outcomes t Q w := by
  unfold settleExceeded
  split_ifs with hlt
  · simp only [hlt,decide_true] at h
    exact tripExceeded_ends h
  · simp only [hlt,decide_false] at h
    exact Prog.ends_perform rfl (h w.closed)

lemma mustPeriodKey_ends {caller : Caller} {now : ℤ} {Q : String → World → Prop}
    (hc : w.userConfigs.lookup u = some c) (h : Q (keyAt c now) w) :
    (mustPeriodKey caller u now).Ends outcomes t Q w := by
  refine Prog.Ends.bind (R := fun r w' => r = .ok (keyAt c now) ∧ w' = w) ?_ fun r w' hr => ?_
  · refine Prog.ends_one rfl ?_
    rw [hc]
    exact ⟨periodKey_eq c now,rfl⟩
  · obtain ⟨rfl,rfl⟩ := hr
    exact h

lemma state?_stateFor_heap (w : World) (u : String) :
    (w.stateFor u).2.stateHeap (u,(w.stateFor u).1) = (w.state? u).getD .empty := by
  unfold World.stateFor World.state?
  split
  · next g hg => simp [hg]
  · next hg => simp [hg]

lemma stateFor_configs (w : World) (u : String) : (w.stateFor u).2.userConfigs = w.userConfigs := by
  unfold World.stateFor
  split <;> rfl

lemma stateFor_clock (w : World) (u : String) : (w.stateFor u).2.clock = w.clock := by
  unfold World.stateFor
  split <;> rfl

lemma currentKey_eq (w : World) (u : String) (c : QuotaConfig) : w.currentKey u c =
    if ((w.state? u).getD .empty).periodKey = "" then keyAt c w.clock
    else ((w.state? u).getD .empty).periodKey := by
  unfold World.currentKey
  cases w.state? u with
  | none => simp [UserState.empty]
  | some s => rfl

lemma setKey_ends {α : Type} {caller : Caller} {rest : String → Op α} {Q : α → World → Prop}
    (hc : w.userConfigs.lookup u = some c)
    (h : (rest (keyAt c w.clock)).Ends outcomes t Q
      (w.modifyState u g (·.keyed (keyAt c w.clock)))) :
    Prog.Ends outcomes t Q (do
      let now ← perform .now
      let key ← mustPeriodKey caller u now
      perform (.setPeriodKeyIfEmpty u g key)
      rest key) w := by
  refine Prog.ends_one rfl (Prog.Ends.bind (R := fun key w' => key = keyAt c w.clock ∧ w' = w)
    (mustPeriodKey_ends hc ⟨rfl,rfl⟩) fun key w' hk => ?_)
  obtain ⟨rfl,rfl⟩ := hk
  refine Prog.ends_one rfl ?_
  have hs : (fun s : UserState => if s.periodKey = "" then
      { s with periodKey := keyAt c w'.clock } else s) = (·.keyed (keyAt c w'.clock)) := by
    funext s
    unfold UserState.keyed
    split_ifs <;> rfl
  rw [hs]
  exact h

lemma currentPeriodKey_ends {Q : String → World → Prop} (hc : w.userConfigs.lookup u = some c)
    (h : Q (w.currentKey u c) (w.keyed u c)) : (currentPeriodKey u).Ends outcomes t Q w := by
  refine Prog.ends_one (r := (w.stateFor u).1) (z := (w.stateFor u).2) rfl (Prog.ends_one rfl ?_)
  have hh := state?_stateFor_heap w u
  rw [currentKey_eq,← hh] at h
  by_cases he : ((w.stateFor u).2.stateHeap (u,(w.stateFor u).1)).periodKey = ""
  · rw [if_neg (not_not.mpr he)]
    rw [if_pos he,← stateFor_clock w u] at h
    have hk : Q (keyAt c (w.stateFor u).2.clock) ((w.stateFor u).2.modifyState u (w.stateFor u).1
        (·.keyed (keyAt c (w.stateFor u).2.clock))) := by
      simpa only [World.keyed,World.withState,stateFor_clock] using h
    exact setKey_ends ((congrArg _ (stateFor_configs w u)).trans hc) hk
  · rw [if_pos he]
    rw [if_neg he] at h
    have hs : w.keyed u c = (w.stateFor u).2 := by
      unfold World.keyed World.withState
      refine World.modifyState_id _ _ _ _ ?_
      rw [UserState.keyed,if_neg he]
    exact hs ▸ h

lemma loadUsage_ends {bytes : Int64} {Q : Unit → World → Prop}
    (hc : w.userConfigs.lookup u = some c)
    (h : ∀ closed,Q () ((w.usageLoaded u c bytes).withClosed closed)) :
    (loadUsage u bytes).Ends outcomes t Q w := by
  refine Prog.ends_one rfl ?_
  rw [hc]
  refine Prog.ends_one (r := (w.stateFor u).1) (z := (w.stateFor u).2) rfl (setKey_ends
    ((congrArg _ (stateFor_configs w u)).trans hc) (Prog.ends_one rfl (settleExceeded_ends ?_)))
  intro closed
  rw [World.modifyState_modifyState,World.modifyState_modifyState,stateFor_clock]
  exact h closed

def userConfig (text : TimeText) (user : TrafficQuotaUser) : Except QuotaError QuotaConfig :=
  if user.name = "" then .error .missingName
  else
    match newQuotaConfig text user.quotaGB user.period user.periodStart user.periodDays none with
    | .error cause => .error (.invalidConfig user.name cause)
    | .ok none => .error (.invalidUser user.name)
    | .ok (some config) => .ok config

lemma settleUser_ends {Q : Except QuotaError Unit → World → Prop}
    (hc : w.userConfigs.lookup u = some c)
    (h : ∀ closed,Q (.ok ()) ((w.settled u c).withClosed closed)) :
    Prog.Ends outcomes t Q (do
      let state ← perform (.stateFor u)
      let now ← perform .now
      let key ← mustPeriodKey .applyConfig u now
      perform (.setPeriodKeyIfEmpty u state key)
      let usage ← perform (.readUsage u state)
      settleExceeded u state usage c.quotaBytes
      .ret (.ok ())) w := by
  have hc' : (w.stateFor u).2.userConfigs.lookup u = some c :=
    (congrArg _ (stateFor_configs w u)).trans hc
  refine Prog.ends_one (r := (w.stateFor u).1) (z := (w.stateFor u).2) rfl (setKey_ends hc' ?_)
  refine Prog.ends_one rfl ?_
  refine Prog.Ends.bind (R := fun _ => Q (.ok ())) (settleExceeded_ends fun closed => ?_)
    fun _ _ h => h
  rw [World.modifyState_modifyState,World.stateHeap_modifyState,stateFor_clock]
  have hcl := h closed
  rw [World.settled,World.withState,World.modifyState_congr] at hcl
  · exact hcl
  · rfl

lemma applyConfig_ends {text : TimeText} {user : TrafficQuotaUser}
    {Q : Except QuotaError Unit → World → Prop}
    (he : ∀ err,userConfig text user = .error err → Q (.error err) w)
    (hok : ∀ config,userConfig text user = .ok config →
      ∀ closed,Q (.ok ()) ((w.applied user.name config).withClosed closed)) :
    (applyConfig text user).Ends outcomes t Q w := by
  unfold userConfig at he hok
  unfold applyConfig
  split_ifs at he hok ⊢ with hna
  · exact he _ rfl
  · cases hn : newQuotaConfig text user.quotaGB user.period user.periodStart user.periodDays
      none with
    | error cause =>
      rw [hn] at he
      exact he _ rfl
    | ok result =>
      rw [hn] at he hok
      cases result with
      | none => exact he _ rfl
      | some config =>
        exact Prog.ends_one rfl (settleUser_ends (AList.lookup_insert _) (hok config rfl))

end rules

end SingBoxAuth.TrafficQuota
