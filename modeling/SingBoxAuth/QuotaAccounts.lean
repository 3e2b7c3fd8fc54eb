import SingBoxAuth.QuotaSequential

/-! The quota service between operations: one account a user, what each operation of the
service does to it, and that the programs of the service, run alone, have these outcomes
and no others. -/
namespace SingBoxAuth.TrafficQuota
open Interleaving

/-- What the service knows about one user: configuration, counters and records. -/
structure Account where
  config : Option QuotaConfig
  state : Option UserState
  records : String → Option Int64

namespace Account

variable (a : Account) (c : QuotaConfig) (clock : ℤ)

def userState : UserState := a.state.getD .empty

def currentKey : String :=
  if a.userState.periodKey = "" then keyAt c clock else a.userState.periodKey

def keyed : Account := { a with state := some (a.userState.keyed (keyAt c clock)) }

def configured : Account :=
  { a with
    config := some c
    state := some
      { a.userState.keyed (keyAt c clock) with exceeded := c.quotaBytes < a.userState.usage } }

def loaded : Account :=
  let bytes := (a.records (a.currentKey c clock)).getD 0
  { a with
    state := some
      { a.userState.keyed (keyAt c clock) with
        usage := bytes
        exceeded := c.quotaBytes < bytes } }

def snapshot (text : TimeText) (u : String) (conns : Option ℕ) : RuntimeState :=
  ⟨quotaConfigToOption text u c,a.userState.usage,a.userState.pendingDelta,
    a.userState.exceeded,a.userState.periodKey,conns⟩

def restored (state : RuntimeState) : Account :=
  { a with
    config := some c
    state := some ⟨state.usageBytes,state.pendingDelta,state.exceeded,state.periodKey⟩ }

/-- What was pending is part of the record that has been saved. -/
def withoutPending : Account := { a with state := some { a.userState with pendingDelta := 0 } }

def removed : Account := { a with config := none, state := none }

def setRecord (key : String) (value : Option Int64) : Account :=
  { a with records := Function.update a.records key value }

end Account

structure Unlocked (w : World) : Prop where
  mutex : ∀ x, w.mutex x = none
  writer : w.writer = none
  readers : w.readers = ∅

structure Accounts where
  account : String → Account
  clock : ℤ
  mutex : Mutex → Option ℕ
  writer : Option ℕ
  readers : Finset ℕ

def Accounts.setAccount (l : Accounts) (u : String) (a : Account) : Accounts :=
  { l with account := Function.update l.account u a }

def Accounts.withMutex (l : Accounts) (x : Mutex) (holder : Option ℕ) : Accounts :=
  { l with mutex := Function.update l.mutex x holder }

/-- ApplyConfig with a checked configuration. The stored usage of a new user may fail
to load. -/
def Accounts.apply (l : Accounts) (u : String) :
    Except QuotaError QuotaConfig → List (Except QuotaError Unit × Accounts)
  | .error err => [(.error err,l)]
  | .ok c =>
    let a := (l.account u).configured c l.clock
    if (l.account u).config.isSome then [(.ok (),l.setAccount u a)]
    else [(.ok (),l.setAccount u (a.loaded c l.clock)),(.ok (),l.setAccount u a)]

/-- RemoveConfig of the service. The record is deleted first, which may fail. -/
def Accounts.remove (l : Accounts) (u : String) : List (Except QuotaError Unit × Accounts) :=
  let a := l.account u
  match a.config with
  | none =>
    if u = "" then [(.error .missingName,l)] else [(.ok (),l.setAccount u a.removed)]
  | some c =>
    let key := a.currentKey c l.clock
    [if u = "" then (.error .missingName,l.setAccount u ((a.keyed c l.clock).setRecord key none))
      else (.ok (),l.setAccount u (a.removed.setRecord key none)),
      (.error (.deleteRecord u key),l.setAccount u (a.keyed c l.clock))]

variable {u : String}

lemma Accounts.remove_of_none {l : Accounts} (h : (l.account u).config = none) :
    l.remove u = if u = "" then [(.error .missingName,l)]
      else [(.ok (),l.setAccount u (l.account u).removed)] := by
  simp only [remove,h]

lemma Accounts.remove_of_some {l : Accounts} {c : QuotaConfig} (h : (l.account u).config = some c) :
    l.remove u = [if u = "" then (.error .missingName,l.setAccount u
        (((l.account u).keyed c l.clock).setRecord ((l.account u).currentKey c l.clock) none))
      else (.ok (),l.setAccount u
        ((l.account u).removed.setRecord ((l.account u).currentKey c l.clock) none)),
      (.error (.deleteRecord u ((l.account u).currentKey c l.clock)),
        l.setAccount u ((l.account u).keyed c l.clock))] := by
  simp only [remove,h]

def restoredConfig (text : TimeText) (state : RuntimeState) : Except QuotaError QuotaConfig :=
  match newQuotaConfig text state.user.quotaGB state.user.period state.user.periodStart
      state.user.periodDays none with
  | .error cause => .error (.invalidConfig state.user.name cause)
  | .ok none => .error (.invalidUser state.user.name)
  | .ok (some config) => .ok config

def Accounts.SameLocks (l l' : Accounts) : Prop :=
  l'.mutex = l.mutex ∧ l'.writer = l.writer ∧ l'.readers = l.readers ∧ l'.clock = l.clock

variable {o : Except QuotaError Unit × Accounts}

lemma Accounts.apply_locks (l : Accounts) {config : Except QuotaError QuotaConfig}
    (ho : o ∈ l.apply u config) : l.SameLocks o.2 := by
  unfold apply at ho
  cases config with
  | error err =>
    rw [List.mem_singleton] at ho
    exact ho ▸ ⟨rfl,rfl,rfl,rfl⟩
  | ok c =>
    dsimp only at ho
    split_ifs at ho
    · rw [List.mem_singleton] at ho
      exact ho ▸ ⟨rfl,rfl,rfl,rfl⟩
    · rcases List.mem_pair.mp ho with rfl | rfl
      · exact ⟨rfl,rfl,rfl,rfl⟩
      · exact ⟨rfl,rfl,rfl,rfl⟩

lemma Accounts.apply_ok {l : Accounts} {c : QuotaConfig} (ho : o ∈ l.apply u (.ok c)) :
    o.1 = .ok () ∧ (o.2.account u).config = some c ∧ ∀ v,v ≠ u → o.2.account v = l.account v := by
  have hset : ∀ a : Account,a.config = some c → ((l.setAccount u a).account u).config = some c ∧
        ∀ v,v ≠ u → (l.setAccount u a).account v = l.account v := by
    intro a ha
    exact ⟨by simpa [setAccount] using ha,fun v hv => Function.update_of_ne hv _ _⟩
  unfold apply at ho
  dsimp only at ho
  split_ifs at ho
  · rw [List.mem_singleton] at ho
    exact ho ▸ ⟨rfl,hset _ rfl⟩
  · rcases List.mem_pair.mp ho with rfl | rfl
    · exact ⟨rfl,hset _ rfl⟩
    · exact ⟨rfl,hset _ rfl⟩

lemma Accounts.apply_ne_nil (l : Accounts) (u : String) (config : Except QuotaError QuotaConfig) :
    l.apply u config ≠ [] := by
  unfold apply
  cases config with
  | error err => exact List.cons_ne_nil _ _
  | ok c =>
    dsimp only
    split_ifs
    · exact List.cons_ne_nil _ _
    · exact List.cons_ne_nil _ _

lemma Accounts.apply_withMutex (l : Accounts) (u : String) (config : Except QuotaError QuotaConfig)
    (x : Mutex) (ho : Option ℕ) : (l.withMutex x ho).apply u config =
      (l.apply u config).map fun o => (o.1,o.2.withMutex x ho) := by
  unfold apply
  cases config with
  | error err => rfl
  | ok c =>
    dsimp only
    rw [apply_ite (List.map _)]
    rfl

lemma Accounts.remove_locks (l : Accounts) (ho : o ∈ l.remove u) : l.SameLocks o.2 := by
  cases hc : (l.account u).config with
  | none =>
    rw [remove_of_none hc] at ho
    split_ifs at ho
    · rw [List.mem_singleton] at ho
      exact ho ▸ ⟨rfl,rfl,rfl,rfl⟩
    · rw [List.mem_singleton] at ho
      exact ho ▸ ⟨rfl,rfl,rfl,rfl⟩
  | some c =>
    rw [remove_of_some hc] at ho
    rcases List.mem_pair.mp ho with rfl | rfl
    · split_ifs <;> exact ⟨rfl,rfl,rfl,rfl⟩
    · exact ⟨rfl,rfl,rfl,rfl⟩

lemma Accounts.remove_withMutex (l : Accounts) (u : String) (x : Mutex) (ho : Option ℕ) :
    (l.withMutex x ho).remove u = (l.remove u).map fun o => (o.1,o.2.withMutex x ho) := by
  have ha : (l.withMutex x ho).account = l.account := rfl
  cases hc : (l.account u).config with
  | none =>
    rw [remove_of_none hc,remove_of_none (ha ▸ hc),apply_ite (List.map _)]
    rfl
  | some c =>
    rw [remove_of_some hc,remove_of_some (ha ▸ hc)]
    split_ifs <;> rfl

def Account.cleared (a : Account) (clock : ℤ) : Account :=
  match a.config with
  | none => a.removed
  | some c => a.removed.setRecord (a.currentKey c clock) none

lemma Accounts.remove_ok_iff (l : Accounts) (hu : u ≠ "") (l' : Accounts) :
    (.ok (),l') ∈ l.remove u ↔ l' = l.setAccount u ((l.account u).cleared l.clock) := by
  unfold Account.cleared
  cases hc : (l.account u).config with
  | none => simp [remove_of_none hc,hu]
  | some c => simp [remove_of_some hc,hu]

/-- A row of the dynamic configuration; without a quota, an authoritative row removes. -/
def Accounts.applyDynamic (text : TimeText) (l : Accounts) (row : ConfigRow) :
    List (Except QuotaError Unit × Accounts) :=
  if row.quotaGB ≤ 0 then
    if row.authoritative ∧ (l.account row.user).config.isSome then l.remove row.user
    else [(.ok (),l)]
  else l.apply row.user (userConfig text
    ⟨row.user,"",row.quotaGB,row.period,row.periodStart,row.periodDays⟩)

def World.accounts (w : World) : Accounts where
  account u := ⟨w.userConfigs.lookup u,w.state? u,fun key => w.store (u,key)⟩
  clock := w.clock
  mutex := w.mutex
  writer := w.writer
  readers := w.readers

lemma Unlocked.of_sameLocks {w w' : World} (hw : Unlocked w)
    (h : w.accounts.SameLocks w'.accounts) : Unlocked w' := by
  obtain ⟨hmu,hwr,hr,-⟩ := h
  exact ⟨fun x => (congrFun hmu x).trans (hw.mutex x),hwr.trans hw.writer,hr.trans hw.readers⟩

section views

variable (w : World) (u : String)

lemma accounts_eq_setAccount {w w' : World} {u : String} {a : Account}
    (hu : w'.accounts.account u = a)
    (ho : ∀ v,v ≠ u → w'.accounts.account v = w.accounts.account v)
    (hl : (w'.clock,w'.mutex,w'.writer,w'.readers) =
      (w.clock,w.mutex,w.writer,w.readers)) : w'.accounts = w.accounts.setAccount u a := by
  simp only [Prod.mk.injEq] at hl
  obtain ⟨hc,hm,hw,hr⟩ := hl
  have ha : w'.accounts.account = Function.update w.accounts.account u a := by
    funext v
    by_cases hv : v = u
    · rw [hv,Function.update_self,hu]
    · rw [Function.update_of_ne hv,ho v hv]
  rw [Accounts.setAccount,← ha]
  simp only [World.accounts,hc,hm,hw,hr]

lemma Accounts.setAccount_setAccount (l : Accounts) (a a' : Account) :
    (l.setAccount u a).setAccount u a' = l.setAccount u a' := by
  simp [setAccount]

@[simp] lemma Accounts.account_setAccount (l : Accounts) (a : Account) :
    (l.setAccount u a).account u = a := Function.update_self _ _ _

lemma stateFor_locks : ((w.stateFor u).2.clock,(w.stateFor u).2.mutex,(w.stateFor u).2.writer,
    (w.stateFor u).2.readers) = (w.clock,w.mutex,w.writer,w.readers) := by
  unfold World.stateFor
  split <;> rfl

lemma accounts_withState (f : UserState → UserState) : (w.withState u f).accounts =
    w.accounts.setAccount u { w.accounts.account u with
      state := some (f (w.accounts.account u).userState) } := by
  have hs : (w.withState u f).state? u = some (f ((w.state? u).getD .empty)) := by
    unfold World.withState
    rw [state?_modifyState (stateFor_states w u),state?_stateFor,Option.map_some]
  have ho : ∀ v,v ≠ u → (w.withState u f).state? v = w.state? v := by
    intro v hv
    unfold World.withState
    rw [state?_modifyState_ne (Ne.symm hv),state?_stateFor_ne (Ne.symm hv)]
  refine accounts_eq_setAccount ?_ (fun v hv => ?_) (stateFor_locks w u)
  · change Account.mk ((w.stateFor u).2.userConfigs.lookup u) ((w.withState u f).state? u)
      (fun key => (w.stateFor u).2.store (u,key)) = _
    rw [stateFor_configs,stateFor_store,hs]
    rfl
  · change Account.mk ((w.stateFor u).2.userConfigs.lookup v) ((w.withState u f).state? v)
      (fun key => (w.stateFor u).2.store (v,key)) = _
    rw [stateFor_configs,stateFor_store,ho v hv]
    rfl

lemma accounts_storeConfig (c : QuotaConfig) :
    { w with userConfigs := w.userConfigs.insert u c }.accounts =
      w.accounts.setAccount u { w.accounts.account u with config := some c } := by
  refine accounts_eq_setAccount ?_ (fun v hv => ?_) rfl
  · simp [World.accounts,World.state?]
  · simp [World.accounts,World.state?,AList.lookup_insert_ne hv]

lemma accounts_setRecord (key : String) (value : Option Int64) : (w.setRecord u key value).accounts =
    w.accounts.setAccount u ((w.accounts.account u).setRecord key value) := by
  have hr : ∀ v k,(w.setRecord u key value).store (v,k) =
      if v = u ∧ k = key then value else w.store (v,k) := by
    intro v k
    simp [World.setRecord,Function.update_apply]
  refine accounts_eq_setAccount ?_ (fun v hv => ?_) rfl
  · refine congrArg (Account.mk _ _) ?_
    funext k
    simp [hr,Function.update_apply,World.accounts]
  · refine congrArg (Account.mk _ _) ?_
    funext k
    simp [hr,hv]

lemma accounts_removed (closed : Conn → Bool) (lists : String × ℕ → List Conn) :
    (w.removed u closed lists).accounts = w.accounts.setAccount u (w.accounts.account u).removed := by
  refine accounts_eq_setAccount ?_ (fun v hv => ?_) rfl
  · simp [World.accounts,World.removed,World.state?,Account.removed]
  · simp [World.accounts,World.removed,World.state?,Function.update_of_ne hv,
      AList.lookup_erase_ne hv]

lemma World.currentKey_accounts (c : QuotaConfig) :
    w.currentKey u c = (w.accounts.account u).currentKey c w.clock := currentKey_eq w u c

end views

namespace Account

variable (a : Account) (c : QuotaConfig) (clock : ℤ)

lemma currentKey_ne_empty : a.currentKey c clock ≠ "" := by
  unfold currentKey
  split_ifs with h
  · exact keyAt_ne_empty c clock
  · exact h

lemma keyed_of_key {s : UserState} (h : s.periodKey ≠ "") (key : String) : s.keyed key = s := by
  rw [UserState.keyed,if_neg h]

lemma keyed_keyed (s : UserState) (key : String) : (s.keyed key).keyed key = s.keyed key := by
  unfold UserState.keyed
  dsimp only
  split_ifs <;> rfl

lemma keyed_loaded : { a.keyed c clock with
    state := some { (a.keyed c clock).userState.keyed (keyAt c clock) with
      usage := (a.records (a.currentKey c clock)).getD 0
      exceeded := c.quotaBytes < (a.records (a.currentKey c clock)).getD 0 } } =
    a.loaded c clock := by
  have hk : (a.keyed c clock).userState = a.userState.keyed (keyAt c clock) := rfl
  rw [hk,keyed_keyed]
  rfl

lemma keyed_configured : (a.configured c clock).keyed c clock = a.configured c clock := by
  have hk : (a.configured c clock).userState.periodKey ≠ "" := a.currentKey_ne_empty c clock
  rw [keyed,keyed_of_key hk]
  rfl

end Account

def World.withMutex (w : World) (x : Mutex) (holder : Option ℕ) : World :=
  { w with mutex := Function.update w.mutex x holder }

section service

variable {t : ℕ} {w : World} {u : String} {c : QuotaConfig} {x : Mutex}

lemma lock_outcomes (h : w.mutex x = none) :
    outcomes t (.lock x) w = [((),w.withMutex x (some t))] := if_pos h

lemma Accounts.withMutex_withMutex {l : Accounts} (h : l.mutex x = none) :
    (l.withMutex x (some t)).withMutex x none = l := by
  rw [withMutex,withMutex,Function.update_idem,← h,Function.update_eq_self]

lemma accounts_released {w' : World} {l : Accounts} (h : l.mutex x = none)
    (h' : w'.accounts = l.withMutex x (some t)) : (w'.withMutex x none).accounts = l := by
  have hw : (w'.withMutex x none).accounts = w'.accounts.withMutex x none := rfl
  rw [hw,h',Accounts.withMutex_withMutex h]

lemma loadStored_results (hc : w.userConfigs.lookup u = some c)
    (hf : w.mutex .persistAccess = none) :
    Prog.Results outcomes t World.accounts (loadStored u) w
      [((),w.accounts.setAccount u ((w.accounts.account u).loaded c w.clock)),
        ((),w.accounts.setAccount u ((w.accounts.account u).keyed c w.clock))] := by
  let w₁ := w.withMutex .persistAccess (some t)
  have hk : (w₁.keyed u c).accounts =
      w₁.accounts.setAccount u ((w.accounts.account u).keyed c w.clock) := accounts_withState w₁ u _
  have hs : (w₁.keyed u c).store = w.store := stateFor_store w₁ u
  have hcl : (w₁.keyed u c).clock = w.clock := stateFor_clock w₁ u
  refine Prog.results_one (lock_outcomes hf) (Prog.Ends.results
    (currentPeriodKey_ends (w := w₁) (Q := fun key w' => key = w₁.currentKey u c ∧ w' = w₁.keyed u c)
      hc ⟨rfl,rfl⟩) ?_)
  rintro key w' ⟨rfl,rfl⟩
  change Prog.Results _ _ _ _ _ ([_] ++ [_])
  refine Prog.results_two rfl ?_ ?_
  · refine Prog.Ends.results (loadUsage_ends (w := w₁.keyed u c) (c := c) ?_ (Q := fun _ w' =>
      w'.accounts = w₁.accounts.setAccount u ((w.accounts.account u).loaded c w.clock)) ?_) ?_
    · exact (congrArg _ (stateFor_configs w₁ u)).trans hc
    · intro closed
      change ((w₁.keyed u c).usageLoaded u c _).accounts = _
      rw [World.usageLoaded,accounts_withState,hk,Accounts.setAccount_setAccount,
        Accounts.account_setAccount,World.persisted,hs,World.currentKey_accounts,hcl]
      exact congrArg _ (Account.keyed_loaded _ _ _)
    · intro _ w' hw'
      exact Prog.results_perform rfl (accounts_released hf hw')
  · exact Prog.results_perform rfl (accounts_released hf hk)

lemma release_results {α : Type} {p : Op α} {R : List (α × Accounts)} (hf : w.mutex x = none)
    (hR : ∀ o ∈ R,o.2.mutex = w.mutex)
    (hp : Prog.Results outcomes t World.accounts p (w.withMutex x (some t))
      (R.map fun o => (o.1,o.2.withMutex x (some t)))) :
    Prog.Results outcomes t World.accounts (do
      let r ← p
      perform (.unlock x)
      .ret r) (w.withMutex x (some t)) R := by
  have hr : Prog.Results outcomes t World.accounts (do
      let r ← p
      perform (.unlock x)
      .ret r) (w.withMutex x (some t)) ((R.map fun o => (o.1,o.2.withMutex x (some t))).flatMap
        fun o => [(o.1,o.2.withMutex x none)]) := by
    refine hp.bind (F := fun r l => [(r,l.withMutex x none)]) fun r w' _ => ?_
    exact Prog.results_one rfl (Prog.results_ret rfl)
  have hs : (R.map fun o => (o.1,(o.2.withMutex x (some t)).withMutex x none)) = R := by
    refine (List.map_congr_left fun o ho => ?_).trans R.map_id
    rw [Accounts.withMutex_withMutex ((congrFun (hR o ho) x).trans hf)]
    rfl
  rw [List.flatMap_map,← List.map_eq_flatMap,hs] at hr
  exact hr

lemma hasQuota_ends {Q : Bool → World → Prop} (h : Q (w.userConfigs.lookup u).isSome w) :
    (hasQuota u).Ends outcomes t Q w := Prog.ends_one rfl h

lemma accounts_applied (w : World) (u : String) (c : QuotaConfig) : (w.applied u c).accounts =
    w.accounts.setAccount u ((w.accounts.account u).configured c w.clock) := by
  unfold World.applied World.settled
  rw [accounts_withState,accounts_storeConfig,Accounts.setAccount_setAccount,Accounts.account_setAccount]
  rfl

lemma applyLocked_results {text : TimeText} {user : TrafficQuotaUser}
    (hf : w.mutex .persistAccess = none) :
    Prog.Results outcomes t World.accounts (applyLocked text user) w
      (w.accounts.apply user.name (userConfig text user)) := by
  refine Prog.Ends.results (hasQuota_ends (Q := fun b w' =>
    b = (w.userConfigs.lookup user.name).isSome ∧ w' = w) ⟨rfl,rfl⟩) ?_
  rintro _ w' ⟨rfl,hw'⟩
  rw [hw']
  cases hco : userConfig text user with
  | error err =>
    refine Prog.Ends.results (applyConfig_ends (Q := fun r w' => r = .error err ∧ w' = w)
      (fun err' h => ?_) fun c h => ?_) ?_
    · rw [hco] at h
      cases h
      exact ⟨rfl,rfl⟩
    · rw [hco] at h
      cases h
    · rintro _ w' ⟨rfl,hw'⟩
      rw [hw']
      exact Prog.results_ret rfl
  | ok c =>
    let a := (w.accounts.account user.name).configured c w.clock
    refine Prog.Ends.results (applyConfig_ends (Q := fun r w' => r = .ok () ∧
      w'.accounts = w.accounts.setAccount user.name a) (fun err h => ?_) fun c' h closed => ?_) ?_
    · rw [hco] at h
      cases h
    · rw [hco] at h
      cases h
      exact ⟨rfl,accounts_applied w user.name c⟩
    · rintro _ w' ⟨rfl,hw'⟩
      have hc : w'.userConfigs.lookup user.name = some c :=
        congrArg (fun l => (l.account user.name).config) hw' |>.trans (by simp; rfl)
      have hf' : w'.mutex .persistAccess = none := (congrArg (·.mutex .persistAccess) hw').trans hf
      have hcl : w'.clock = w.clock := congrArg Accounts.clock hw'
      have hac : w'.accounts.account user.name = a := by rw [hw',Accounts.account_setAccount]
      by_cases hold : (w.userConfigs.lookup user.name).isSome
      · have ha : w.accounts.apply user.name (.ok c) = [(.ok (),w'.accounts)] := by
          rw [hw']
          exact if_pos hold
        rw [ha,hold]
        exact Prog.results_ret rfl
      · have ha : w.accounts.apply user.name (.ok c) =
            [((),w'.accounts.setAccount user.name (a.loaded c w.clock)),
              ((),w'.accounts.setAccount user.name (a.keyed c w.clock))].flatMap
                fun o => [(.ok (),o.2)] := by
          rw [hw',Accounts.setAccount_setAccount,Accounts.setAccount_setAccount,
            Account.keyed_configured]
          exact if_neg hold
        have hl := loadStored_results (t := t) hc hf'
        rw [hac,hcl] at hl
        rw [ha,Bool.not_eq_true _ |>.mp hold]
        refine hl.bind (F := fun _ l => [(Except.ok (),l)]) fun _ w'' _ => ?_
        exact Prog.results_ret rfl

lemma removeConfig_ends {Q : Except QuotaError Unit → World → Prop} (hw : w.writer = none)
    (hr : w.readers = ∅) (he : u = "" → Q (.error .missingName) w)
    (hok : u ≠ "" → ∀ closed lists,Q (.ok ()) (w.removed u closed lists)) :
    (removeConfig u).Ends outcomes t Q w := by
  unfold removeConfig
  split_ifs with hu
  · exact he hu
  · have hwL : outcomes t .wLock w = [((),{ w with writer := some t })] := if_pos ⟨hw,hr⟩
    have hf : ∀ closed lists,{ w.removed u closed lists with writer := none } =
        w.removed u closed lists := by
      intro closed lists
      simp [World.removed,hw]
    refine Prog.ends_one hwL (Prog.ends_one rfl (Prog.ends_one rfl (Prog.ends_one rfl
      (Prog.ends_one rfl ?_))))
    cases w.activeConns u with
    | none =>
      have h := hok hu w.closed w.listHeap
      rw [← hf] at h
      exact h
    | some list =>
      refine Prog.ends_one rfl (Prog.Ends.bind (R := fun _ => Q (.ok ())) (markAll_ends ?_)
        fun _ _ h => h)
      intro closed
      have h := hok hu closed (Function.update w.listHeap (u,list) [])
      rw [← hf] at h
      exact h

lemma removeConfigLocked_results (hf : w.mutex .persistAccess = none)
    (hw : w.writer = none) (hr : w.readers = ∅) :
    Prog.Results outcomes t World.accounts (removeConfigLocked u) w (w.accounts.remove u) := by
  let w₁ := w.withMutex .persistAccess (some t)
  refine Prog.results_one (lock_outcomes hf) (Prog.Ends.results (hasQuota_ends (w := w₁)
    (Q := fun b w' => b = (w.userConfigs.lookup u).isSome ∧ w' = w₁) ⟨rfl,rfl⟩) ?_)
  rintro _ w' ⟨rfl,hw'⟩
  rw [hw']
  cases hc : w.userConfigs.lookup u with
  | none =>
    rw [Accounts.remove_of_none hc]
    split_ifs with hu
    · refine release_results hf (by simp; rfl) (Prog.Ends.single (removeConfig_ends hw
        hr (fun _ => ⟨rfl,rfl⟩) fun h => absurd hu h))
    · refine release_results hf (by simp [Accounts.setAccount]; rfl) (Prog.Ends.single
        (removeConfig_ends hw hr (fun h => absurd h hu) fun _ closed lists =>
          ⟨rfl,accounts_removed w₁ u closed lists⟩))
  | some c =>
    let a := w.accounts.account u
    have hk : (w₁.keyed u c).accounts = w₁.accounts.setAccount u (a.keyed c w.clock) :=
      accounts_withState w₁ u _
    let w₂ := (w₁.keyed u c).setRecord u (a.currentKey c w.clock) none
    have hd : w₂.accounts = w₁.accounts.setAccount u
        ((a.keyed c w.clock).setRecord (a.currentKey c w.clock) none) := by
      rw [accounts_setRecord,hk,Accounts.setAccount_setAccount,Accounts.account_setAccount]
    have hre : ∀ closed lists,(w₂.removed u closed lists).accounts = w₁.accounts.setAccount u
        (a.removed.setRecord (a.currentKey c w.clock) none) := by
      intro closed lists
      rw [accounts_removed,hd,Accounts.setAccount_setAccount,Accounts.account_setAccount]
      rfl
    have hw₂ : w₂.writer = none := (congrArg Accounts.writer hd).trans hw
    have hr₂ : w₂.readers = ∅ := (congrArg Accounts.readers hd).trans hr
    rw [Accounts.remove_of_some hc]
    refine Prog.Ends.results (currentPeriodKey_ends (w := w₁) (Q := fun key w' =>
      key = a.currentKey c w.clock ∧ w' = w₁.keyed u c) hc ⟨w₁.currentKey_accounts u c,rfl⟩) ?_
    rintro key w' ⟨rfl,hw'⟩
    rw [hw']
    change Prog.Results _ _ _ _ _ ([_] ++ [_])
    refine Prog.results_two rfl ?_ ?_
    · refine Prog.Ends.results (removeConfig_ends (w := w₂) (Q := fun r w' => if u = ""
        then r = .error .missingName ∧ w' = w₂
        else r = .ok () ∧ ∃ closed lists,w' = w₂.removed u closed lists) hw₂ hr₂ ?_ ?_) ?_
      · intro hu
        rw [if_pos hu]
        exact ⟨rfl,rfl⟩
      · intro hu closed lists
        rw [if_neg hu]
        exact ⟨rfl,closed,lists,rfl⟩
      · intro r w' h
        split_ifs at h ⊢ with hu
        · obtain ⟨rfl,rfl⟩ := h
          exact Prog.results_one rfl (Prog.results_ret (accounts_released hf hd))
        · obtain ⟨rfl,closed,lists,rfl⟩ := h
          exact Prog.results_one rfl (Prog.results_one rfl
            (Prog.results_ret (accounts_released hf (hre closed lists))))
    · exact Prog.results_one rfl (Prog.results_ret (accounts_released hf hk))

theorem applyDynamic_results (text : TimeText) (row : ConfigRow) (hw : Unlocked w) :
    Prog.Results outcomes t World.accounts (applyDynamic text row) w
      (w.accounts.applyDynamic text row) := by
  have hf := hw.mutex .applyMu
  refine Prog.results_one (lock_outcomes hf) ?_
  unfold Accounts.applyDynamic
  split_ifs with hqu hcl
  · rw [hcl.1]
    refine Prog.Ends.results (hasQuota_ends (w := w.withMutex .applyMu (some t)) (Q := fun b w' =>
      b = true ∧ w' = w.withMutex .applyMu (some t)) ⟨hcl.2,rfl⟩) ?_
    rintro _ w' ⟨rfl,hw'⟩
    rw [hw']
    refine release_results hf (fun o ho => (w.accounts.remove_locks ho).1) ?_
    rw [← Accounts.remove_withMutex]
    exact removeConfigLocked_results (hw.mutex .persistAccess) hw.writer hw.readers
  · have hs : ((w.withMutex .applyMu (some t)).withMutex .applyMu none).accounts = w.accounts :=
      accounts_released (t := t) hf rfl
    cases hr : row.authoritative with
    | false => exact Prog.results_one rfl (Prog.results_ret hs)
    | true =>
      have hn : ((w.accounts.account row.user).config).isSome = false := by simpa [hr] using hcl
      refine Prog.Ends.results (hasQuota_ends (w := w.withMutex .applyMu (some t)) (Q := fun b w' =>
        b = false ∧ w' = w.withMutex .applyMu (some t)) ⟨hn,rfl⟩) ?_
      rintro _ w' ⟨rfl,hw'⟩
      rw [hw']
      exact Prog.results_one rfl (Prog.results_ret hs)
  · refine release_results hf (fun o ho => (w.accounts.apply_locks ho).1) ?_
    rw [← Accounts.apply_withMutex]
    exact applyLocked_results (hw.mutex .persistAccess)

lemma snapshotState_ends (text : TimeText) {Q : Option RuntimeState → World → Prop}
    (hn : (w.accounts.account u).config = none → Q none w)
    (hs : ∀ c conns,(w.accounts.account u).config = some c →
      Q (some ((w.accounts.account u).snapshot c text u conns)) w) :
    (snapshotState text u).Ends outcomes t Q w := by
  refine Prog.ends_one rfl ?_
  cases hc : w.userConfigs.lookup u with
  | none => exact hn hc
  | some c =>
    have h := hs c (w.activeConns u) hc
    refine Prog.ends_one rfl ?_
    cases hg : w.states u with
    | none =>
      refine Prog.ends_one rfl (Prog.ends_one rfl ?_)
      simp only [Account.snapshot,Account.userState,World.accounts,World.state?,hg] at h
      exact h
    | some g =>
      refine Prog.ends_one rfl (Prog.ends_one rfl (Prog.ends_one rfl (Prog.ends_one rfl
        (Prog.ends_one rfl (Prog.ends_one rfl ?_)))))
      simp only [Account.snapshot,Account.userState,World.accounts,World.state?,hg] at h
      exact h

/-- After RestoreState of the manager, with the connections that it puts back. -/
def World.restored (w : World) (c : QuotaConfig) (state : RuntimeState)
    (conns : String → Option ℕ) : World :=
  { ({ w with userConfigs := w.userConfigs.insert state.user.name c }).withState state.user.name
      fun _ => ⟨state.usageBytes,state.pendingDelta,state.exceeded,state.periodKey⟩ with
    activeConns := conns }

lemma restoreState_ends {text : TimeText} {state : RuntimeState}
    {Q : Except QuotaError Unit → World → Prop}
    (he : ∀ err,restoredConfig text state = .error err → Q (.error err) w)
    (hok : ∀ config,restoredConfig text state = .ok config →
      ∀ conns,Q (.ok ()) (w.restored config state conns)) :
    (restoreState text state).Ends outcomes t Q w := by
  unfold restoredConfig at he hok
  unfold restoreState
  cases hn : newQuotaConfig text state.user.quotaGB state.user.period state.user.periodStart
      state.user.periodDays none with
  | error cause =>
    rw [hn] at he
    exact he _ rfl
  | ok result =>
    rw [hn] at he hok
    cases result with
    | none => exact he _ rfl
    | some config =>
      let u := state.user.name
      let w₁ : World := { w with userConfigs := w.userConfigs.insert u config }
      refine Prog.ends_one (z := w₁) rfl (Prog.ends_one (r := (w₁.stateFor u).1)
        (z := (w₁.stateFor u).2) rfl (Prog.ends_one rfl (Prog.ends_one rfl (Prog.ends_one rfl
          (Prog.ends_one rfl ?_)))))
      rw [World.modifyState_modifyState,World.modifyState_modifyState,World.modifyState_modifyState]
      cases state.activeConns with
      | none => exact Prog.ends_one rfl (hok config rfl _)
      | some list => exact Prog.ends_one rfl (hok config rfl _)

def World.cleared (w : World) (u : String) : World :=
  match w.states u with
  | none => w
  | some g => w.modifyState u g fun s => { s with pendingDelta := 0 }

lemma clearPendingDelta_ends {Q : Unit → World → Prop} (h : Q () (w.cleared u)) :
    (clearPendingDelta u).Ends outcomes t Q w := by
  refine Prog.ends_one rfl ?_
  unfold World.cleared at h
  cases hg : w.states u with
  | none =>
    rw [hg] at h
    exact h
  | some g =>
    rw [hg] at h
    exact Prog.ends_perform rfl h

end service

end SingBoxAuth.TrafficQuota
