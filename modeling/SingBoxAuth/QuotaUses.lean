import SingBoxAuth.QuotaService

/-! Which actions each operation can issue. -/
namespace SingBoxAuth.TrafficQuota
open Interleaving

variable {allowed : Act → Prop}

def Act.Closing : Act → Prop
  | .loadConns _ | .listConns _ _ | .markConn _ => True
  | _ => False

def Act.Adding : Act → Prop
  | .loadConfig _ | .stateFor _ | .addBytes _ _ _ | .markDirty _ | .trip _ _ | .loadConns _
  | .listConns _ _ | .markConn _ => True
  | _ => False

def Act.Flushing : Act → Prop
  | .lock .persistAccess | .unlock .persistAccess | .takeDirty | .loadState _ | .consume _ _
  | .loadConfig _ | .incrBy _ _ _ | .stateFor _ | .restore _ _ _ _ | .markDirty _ | .iterate _
  | .loadMany _ _ | .now | .keyConfig .loadUsage _ | .panic | .setPeriodKeyIfEmpty _ _ _
  | .storeUsage _ _ _ | .storeExceeded _ _ _ | .trip _ _ | .loadConns _ | .listConns _ _
  | .markConn _ => True
  | _ => False

def Act.Checking : Act → Prop
  | .userNames | .loadState _ | .keyConfig .checkPeriodReset _ | .rollPeriod _ _ _ | .panic => True
  | _ => False

lemma uses_perform_bind {α : Type} {a : Act} {f : a.Res → Op α} (ha : allowed a)
    (hf : ∀ r,(f r).Uses allowed) : (perform a >>= f).Uses allowed :=
  Prog.Uses.bind (Prog.uses_perform.mpr ha) hf

lemma markAll_uses (h : ∀ c,allowed (.markConn c)) (conns : List Conn) :
    (markAll conns).Uses allowed := by
  induction conns with
  | nil => trivial
  | cons c conns ih => exact uses_perform_bind (h c) fun _ => ih

lemma tripExceeded_uses (h : ∀ a,a.Closing → allowed a) {u : String} {g : ℕ}
    (ht : allowed (.trip u g)) : (tripExceeded u g).Uses allowed := by
  refine uses_perform_bind ht fun tripped => ?_
  cases tripped with
  | false => trivial
  | true =>
    refine uses_perform_bind (h _ trivial) fun list => ?_
    cases list with
    | none => trivial
    | some list =>
      exact uses_perform_bind (h _ trivial) fun conns => markAll_uses (fun _ => h _ trivial) conns

lemma addBytes_uses (h : ∀ a,a.Adding → allowed a) (u : String) (n : Int64) :
    (addBytes u n).Uses allowed := by
  unfold addBytes
  split_ifs
  · trivial
  refine uses_perform_bind (h _ trivial) fun config => ?_
  cases config with
  | none => trivial
  | some config =>
    refine uses_perform_bind (h _ trivial) fun g => uses_perform_bind (h _ trivial) fun r => ?_
    cases r with
    | none => trivial
    | some p =>
      refine uses_perform_bind (h _ trivial) fun _ => ?_
      split_ifs
      · refine tripExceeded_uses (fun a ha => h a ?_) (h _ trivial)
        cases a <;> first | exact ha.elim | trivial
      · trivial

lemma mustPeriodKey_uses {caller : Caller} {u : String} {now : ℤ}
    (hk : allowed (.keyConfig caller u)) (hp : allowed .panic) :
    (mustPeriodKey caller u now).Uses allowed := by
  refine Prog.Uses.bind (uses_perform_bind hk fun config => ?_) fun r => ?_
  · cases config <;> trivial
  · cases r with
    | ok key => trivial
    | error e => exact ⟨hp,fun r => r.elim⟩

lemma loadUsage_uses (h : ∀ a,a.Flushing → allowed a) (u : String) (bytes : Int64) :
    (loadUsage u bytes).Uses allowed := by
  refine uses_perform_bind (h _ trivial) fun config => ?_
  cases config with
  | none => trivial
  | some config =>
    refine uses_perform_bind (h _ trivial) fun g => uses_perform_bind (h _ trivial) fun now => ?_
    refine Prog.Uses.bind (mustPeriodKey_uses (h _ trivial) (h _ trivial)) fun key => ?_
    refine uses_perform_bind (h _ trivial) fun _ => uses_perform_bind (h _ trivial) fun _ => ?_
    unfold settleExceeded
    split_ifs
    · refine tripExceeded_uses (fun a ha => h a ?_) (h _ trivial)
      cases a <;> first | exact ha.elim | trivial
    · exact Prog.uses_perform.mpr (h _ trivial)

lemma hasQuota_uses {u : String} (h : allowed (.loadConfig u)) : (hasQuota u).Uses allowed :=
  uses_perform_bind h fun _ => trivial

lemma consumeUsers_uses (hl : ∀ u,allowed (.loadState u)) (hc : ∀ u g,allowed (.consume u g))
    (users : List String) (pending : List PendingDelta) :
    (consumeUsers users pending).Uses allowed := by
  induction users generalizing pending with
  | nil => trivial
  | cons u users ih =>
    refine uses_perform_bind (hl u) fun r => ?_
    cases r with
    | none => exact ih _
    | some g =>
      refine uses_perform_bind (hc u g) fun p => ?_
      dsimp only
      split_ifs <;> exact ih _

lemma filterActive_uses (h : ∀ u,allowed (.loadConfig u)) (pending active : List PendingDelta) :
    (filterActive pending active).Uses allowed := by
  induction pending generalizing active with
  | nil => trivial
  | cons pd pending ih =>
    refine Prog.Uses.bind (hasQuota_uses (h _)) fun quota => ?_
    cases quota <;> exact ih _

lemma restorePendingDelta_uses (h : ∀ a,a.Flushing → allowed a) (pd : PendingDelta) :
    (restorePendingDelta pd).Uses allowed := by
  unfold restorePendingDelta
  split_ifs
  · trivial
  refine Prog.Uses.bind (hasQuota_uses (h _ trivial)) fun quota => ?_
  cases quota with
  | false => trivial
  | true =>
    refine uses_perform_bind (h _ trivial) fun g => uses_perform_bind (h _ trivial) fun r => ?_
    cases r with
    | false => trivial
    | true => exact Prog.uses_perform.mpr (h _ trivial)

lemma persistDeltas_uses (h : ∀ a,a.Flushing → allowed a) (active : List PendingDelta)
    (groups : PeriodUsers) (errs : List FlushError) :
    (persistDeltas active groups errs).Uses allowed := by
  induction active generalizing groups errs with
  | nil => trivial
  | cons pd active ih =>
    refine uses_perform_bind (h _ trivial) fun r => ?_
    cases r with
    | true => exact ih _ _
    | false => exact Prog.Uses.bind (restorePendingDelta_uses h pd) fun _ => ih _ _

lemma reloadUsers_uses (h : ∀ a,a.Flushing → allowed a) (totals : List (String × Int64))
    (users : List String) : (reloadUsers totals users).Uses allowed := by
  induction users with
  | nil => trivial
  | cons u users ih =>
    unfold reloadUsers
    split
    · exact ih
    · exact Prog.Uses.bind (loadUsage_uses h u _) fun _ => ih

lemma reloadPeriods_uses (h : ∀ a,a.Flushing → allowed a) (groups : PeriodUsers)
    (keys : List String) (errs : List FlushError) :
    (reloadPeriods groups keys errs).Uses allowed := by
  induction keys generalizing errs with
  | nil => trivial
  | cons key keys ih =>
    refine uses_perform_bind (h _ trivial) fun r => ?_
    cases r with
    | none => exact ih _
    | some totals => exact Prog.Uses.bind (reloadUsers_uses h totals _) fun _ => ih _

lemma flushPending_uses (h : ∀ a,a.Flushing → allowed a) : flushPending.Uses allowed := by
  refine uses_perform_bind (h _ trivial) fun _ => Prog.Uses.bind
    (uses_perform_bind (h _ trivial) fun users =>
      consumeUsers_uses (fun _ => h _ trivial) (fun _ _ => h _ trivial) users []) fun pending => ?_
  refine Prog.Uses.bind (filterActive_uses (fun _ => h _ trivial) pending []) fun active =>
    Prog.Uses.bind ?_ fun errs => uses_perform_bind (h _ trivial) fun _ => trivial
  unfold flushActive
  split_ifs
  · trivial
  · exact Prog.Uses.bind (persistDeltas_uses h active [] []) fun r =>
      uses_perform_bind (h _ trivial) fun keys => reloadPeriods_uses h r.1 keys r.2

lemma checkUsers_uses (h : ∀ a,a.Checking → allowed a) (now : ℤ) (users : List String)
    (resets : List PeriodReset) : (checkUsers now users resets).Uses allowed := by
  induction users generalizing resets with
  | nil => trivial
  | cons u users ih =>
    refine uses_perform_bind (h _ trivial) fun r => ?_
    cases r with
    | none => exact ih _
    | some g =>
      refine Prog.Uses.bind (mustPeriodKey_uses (h _ trivial) (h _ trivial)) fun key =>
        uses_perform_bind (h _ trivial) fun r => ?_
      cases r <;> exact ih _

end SingBoxAuth.TrafficQuota
