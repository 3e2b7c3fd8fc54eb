import SingBoxAuth.QuotaManager

/-! The operations of the traffic-quota service: which locks they hold and which
persister calls they make. The persister is present, as it is after Start. -/
namespace SingBoxAuth.TrafficQuota
open Interleaving

inductive FlushError
  | persistDelta (user : String)
  | reloadTotals (period : String)
  deriving DecidableEq

abbrev PeriodUsers := List (String × List String)

def PeriodUsers.add (groups : PeriodUsers) (key user : String) : PeriodUsers :=
  match groups with
  | [] => [(key,[user])]
  | (k,users) :: rest =>
    if k = key then (k,users ++ [user]) :: rest else (k,users) :: PeriodUsers.add rest key user

def PeriodUsers.users (groups : PeriodUsers) (key : String) : List String :=
  (groups.lookup key).getD []

def filterActive : List PendingDelta → List PendingDelta → Op (List PendingDelta)
  | [], active => .ret active
  | pd :: pending, active => do
    match ← hasQuota pd.user with
    | false => filterActive pending active
    | true => filterActive pending (active ++ [pd])

def persistDeltas : List PendingDelta → PeriodUsers → List FlushError →
    Op (PeriodUsers × List FlushError)
  | [], groups, errs => .ret (groups,errs)
  | pd :: active, groups, errs => do
    match ← perform (.incrBy pd.user pd.periodKey pd.delta) with
    | true => persistDeltas active (groups.add pd.periodKey pd.user) errs
    | false =>
      restorePendingDelta pd
      persistDeltas active groups (errs ++ [.persistDelta pd.user])

def reloadUsers (totals : List (String × Int64)) : List String → Op Unit
  | [] => .ret ()
  | user :: users =>
    match totals.lookup user with
    | none => reloadUsers totals users
    | some value => do
      loadUsage user value
      reloadUsers totals users

def reloadPeriods (groups : PeriodUsers) : List String → List FlushError → Op (List FlushError)
  | [], errs => .ret errs
  | key :: keys, errs => do
    match ← perform (.loadMany key (groups.users key)) with
    | none => reloadPeriods groups keys (errs ++ [.reloadTotals key])
    | some totals =>
      reloadUsers totals (groups.users key)
      reloadPeriods groups keys errs

def flushActive (active : List PendingDelta) : Op (List FlushError) :=
  if active = [] then .ret []
  else do
    let (groups,errs) ← persistDeltas active [] []
    let keys ← perform (.iterate (groups.map Prod.fst))
    reloadPeriods groups keys errs

def flushPending : Op (List FlushError) := do
  perform (.lock .persistAccess)
  let pending ← consumePendingDeltas
  let active ← filterActive pending []
  let errs ← flushActive active
  perform (.unlock .persistAccess)
  .ret errs

def deleteRecords : List PeriodReset → List PeriodReset → Op (List PeriodReset)
  | [], errs => .ret errs
  | reset :: resets, errs => do
    match ← perform (.deleteRecord reset.user reset.previousKey) with
    | true => deleteRecords resets errs
    | false => deleteRecords resets (errs ++ [reset])

/-- Returns the resets whose previous record could not be deleted. -/
def handlePeriodResets (now : ℤ) : Op (List PeriodReset) := do
  let resets ← checkPeriodReset now
  if resets = [] then .ret []
  else do
    perform (.lock .persistAccess)
    let errs ← deleteRecords resets []
    perform (.unlock .persistAccess)
    .ret errs

def periodResetRound : Op Unit := do
  let now ← perform .now
  void (handlePeriodResets now)

/-- The result is set before the deferred unlocks run, so a removal is reported
under the locks. -/
def removeConfigLocked (user : String) : Op (Except QuotaError Unit) := do
  perform (.lock .persistAccess)
  match ← hasQuota user with
  | false =>
    let result ← removeConfig user
    perform (.unlock .persistAccess)
    .ret result
  | true =>
    let key ← currentPeriodKey user
    match ← perform (.deleteRecord user key) with
    | false =>
      perform (.unlock .persistAccess)
      .ret (.error (.deleteRecord user key))
    | true =>
      match ← removeConfig user with
      | .error err =>
        perform (.unlock .persistAccess)
        .ret (.error err)
      | .ok () =>
        perform (.returned (.removed user key))
        perform (.unlock .persistAccess)
        .ret (.ok ())

def serviceRemoveConfig (user : String) : Op (Except QuotaError Unit) := do
  perform (.lock .applyMu)
  let result ← removeConfigLocked user
  perform (.unlock .applyMu)
  .ret result

def removeDynamic (user : String) : Op (Except QuotaError Unit) := serviceRemoveConfig user

def loadStored (user : String) : Op Unit := do
  perform (.lock .persistAccess)
  let key ← currentPeriodKey user
  match ← perform (.load user key) with
  | none => perform (.unlock .persistAccess)
  | some bytes =>
    loadUsage user bytes
    perform (.unlock .persistAccess)

/-- The common part of ApplyConfig and applyDynamic, under applyMu. -/
def applyLocked (text : TimeText) (user : TrafficQuotaUser) : Op (Except QuotaError Unit) := do
  let quota ← hasQuota user.name
  match ← applyConfig text user with
  | .error err => .ret (.error err)
  | .ok () =>
    if quota then .ret (.ok ())
    else do
      loadStored user.name
      .ret (.ok ())

def serviceApplyConfig (text : TimeText) (user : TrafficQuotaUser) :
    Op (Except QuotaError Unit) := do
  perform (.lock .applyMu)
  let result ← applyLocked text user
  perform (.unlock .applyMu)
  .ret result

/-- A row of the dynamic configuration, as far as the quota service reads it. -/
structure ConfigRow where
  user : String
  quotaGB : ℚ
  period : String
  periodStart : String
  periodDays : ℤ
  authoritative : Bool

def applyDynamic (text : TimeText) (row : ConfigRow) : Op (Except QuotaError Unit) := do
  perform (.lock .applyMu)
  if row.quotaGB ≤ 0 then
    match row.authoritative with
    | false =>
      perform (.unlock .applyMu)
      .ret (.ok ())
    | true =>
      match ← hasQuota row.user with
      | false =>
        perform (.unlock .applyMu)
        .ret (.ok ())
      | true =>
        let result ← removeConfigLocked row.user
        perform (.unlock .applyMu)
        .ret result
  else do
    let result ← applyLocked text
      ⟨row.user,"",row.quotaGB,row.period,row.periodStart,row.periodDays⟩
    perform (.unlock .applyMu)
    .ret result

def serviceRestoreState (text : TimeText) (state : RuntimeState) :
    Op (Except QuotaError Unit) := do
  perform (.lock .persistAccess)
  match ← restoreState text state with
  | .error err =>
    perform (.unlock .persistAccess)
    .ret (.error err)
  | .ok () =>
    let key ← if state.periodKey = "" then currentPeriodKey state.user.name else .ret state.periodKey
    match ← perform (.save state.user.name key state.usageBytes) with
    | false =>
      perform (.unlock .persistAccess)
      .ret (.error (.saveRecord state.user.name key))
    | true =>
      clearPendingDelta state.user.name
      perform (.unlock .persistAccess)
      .ret (.ok ())

end SingBoxAuth.TrafficQuota
