import SingBoxAuth.QuotaState

/-! The operations of QuotaManager as programs over the atomic actions. -/
namespace SingBoxAuth.TrafficQuota
open Interleaving

abbrev Op (α : Type) : Type := Prog Act Act.Res α

abbrev perform (a : Act) : Op a.Res := Prog.perform a

def void {α : Type} (p : Op α) : Op Unit := do
  let _ ← p
  .ret ()

inductive QuotaError
  | missingName
  | invalidConfig (user : String) (cause : ConfigError)
  | invalidUser (user : String)
  | deleteRecord (user key : String)
  | saveRecord (user key : String)
  deriving DecidableEq

def markAll : List Conn → Op Unit
  | [] => .ret ()
  | conn :: conns => do
    perform (.markConn conn)
    markAll conns

def closeAll (user : String) (list : ℕ) : Op Unit := do
  let conns ← perform (.listConns user list)
  markAll conns

def closeAllAndClear (user : String) (list : ℕ) : Op Unit := do
  let snapshot ← perform (.clearConns user list)
  markAll snapshot

def tripExceeded (user : String) (state : ℕ) : Op Unit := do
  match ← perform (.trip user state) with
  | false => .ret ()
  | true =>
    match ← perform (.loadConns user) with
    | none => .ret ()
    | some list => closeAll user list

def getCurrentPeriodKey (caller : Caller) (user : String) (now : ℤ) :
    Op (Except String String) := do
  match ← perform (.keyConfig caller user) with
  | none => .ret (.error ("traffic-quota user not configured: " ++ user))
  | some config => .ret (periodKey config now)

def mustPeriodKey (caller : Caller) (user : String) (now : ℤ) : Op String := do
  match ← getCurrentPeriodKey caller user now with
  | .ok key => .ret key
  | .error _ => .act .panic nofun

def hasQuota (user : String) : Op Bool := do
  let config ← perform (.loadConfig user)
  .ret config.isSome

/-- Returns whether callbacks were handed out. The connection list that onClose
captures is reported with them. -/
def registerConn (user : String) (conn : Conn) : Op Bool := do
  perform .rLock
  match ← perform (.loadConfig user) with
  | none =>
    perform .rUnlock
    .ret false
  | some _ =>
    let state ← perform (.stateFor user)
    let now ← perform .now
    let key ← mustPeriodKey .registerConn user now
    perform (.setPeriodKeyIfEmpty user state key)
    let list ← perform (.connsFor user)
    perform (.addConn user list conn)
    match ← perform (.readExceeded user state) with
    | false =>
      perform .rUnlock
      perform (.returned (.registered user list conn))
      .ret true
    | true =>
      perform .rUnlock
      perform (.markConn conn)
      perform (.returned (.registered user list conn))
      .ret true

def onClose (user : String) (list : ℕ) (conn : Conn) : Op Unit :=
  perform (.removeConn user list conn)

/-- Trip or clear the flag for a usage compared with the quota. -/
def settleExceeded (user : String) (state : ℕ) (usage quota : Int64) : Op Unit :=
  if quota < usage then tripExceeded user state
  else perform (.storeExceeded user state false)

def applyConfig (text : TimeText) (user : TrafficQuotaUser) : Op (Except QuotaError Unit) :=
  if user.name = "" then .ret (.error .missingName)
  else
    match newQuotaConfig text user.quotaGB user.period user.periodStart user.periodDays none with
    | .error cause => .ret (.error (.invalidConfig user.name cause))
    | .ok none => .ret (.error (.invalidUser user.name))
    | .ok (some config) => do
      perform (.storeConfig user.name config)
      let state ← perform (.stateFor user.name)
      let now ← perform .now
      let key ← mustPeriodKey .applyConfig user.name now
      perform (.setPeriodKeyIfEmpty user.name state key)
      let usage ← perform (.readUsage user.name state)
      settleExceeded user.name state usage config.quotaBytes
      .ret (.ok ())

def removeConfig (user : String) : Op (Except QuotaError Unit) :=
  if user = "" then .ret (.error .missingName)
  else do
    perform .wLock
    perform (.deleteConfig user)
    let list ← perform (.takeConns user)
    perform (.deleteState user)
    perform .wUnlock
    match list with
    | none => .ret (.ok ())
    | some list =>
      closeAllAndClear user list
      .ret (.ok ())

def snapshotState (text : TimeText) (user : String) : Op (Option RuntimeState) := do
  match ← perform (.loadConfig user) with
  | none => .ret none
  | some config =>
    let option := quotaConfigToOption text user config
    match ← perform (.loadState user) with
    | none =>
      let list ← perform (.loadConns user)
      perform (.returned (.snapshot ⟨option,0,0,false,"",list⟩))
      .ret (some ⟨option,0,0,false,"",list⟩)
    | some state =>
      let usage ← perform (.readUsage user state)
      let pending ← perform (.readPending user state)
      let exceeded ← perform (.readExceeded user state)
      let key ← perform (.getPeriodKey user state)
      let list ← perform (.loadConns user)
      perform (.returned (.snapshot ⟨option,usage,pending,exceeded,key,list⟩))
      .ret (some ⟨option,usage,pending,exceeded,key,list⟩)

def restoreState (text : TimeText) (state : RuntimeState) : Op (Except QuotaError Unit) :=
  match newQuotaConfig text state.user.quotaGB state.user.period state.user.periodStart
      state.user.periodDays none with
  | .error cause => .ret (.error (.invalidConfig state.user.name cause))
  | .ok none => .ret (.error (.invalidUser state.user.name))
  | .ok (some config) => do
    let user := state.user.name
    perform (.storeConfig user config)
    let userState ← perform (.stateFor user)
    perform (.storeUsage user userState state.usageBytes)
    perform (.storePending user userState state.pendingDelta)
    perform (.storeExceeded user userState state.exceeded)
    perform (.setPeriodKey user userState state.periodKey)
    match state.activeConns with
    | some list =>
      perform (.storeConns user list)
      .ret (.ok ())
    | none =>
      perform (.deleteConns user)
      .ret (.ok ())

def clearPendingDelta (user : String) : Op Unit := do
  match ← perform (.loadState user) with
  | none => .ret ()
  | some state => perform (.storePending user state 0)

def addBytes (user : String) (n : Int64) : Op Unit :=
  if n ≤ 0 then .ret ()
  else do
    match ← perform (.loadConfig user) with
    | none => .ret ()
    | some config =>
      let state ← perform (.stateFor user)
      match ← perform (.addBytes user state n) with
      | none => .ret ()
      | some (_,total) =>
        perform (.markDirty user)
        if config.quotaBytes < total then tripExceeded user state else .ret ()

def loadUsage (user : String) (bytes : Int64) : Op Unit := do
  match ← perform (.loadConfig user) with
  | none => .ret ()
  | some config =>
    let state ← perform (.stateFor user)
    let now ← perform .now
    let key ← mustPeriodKey .loadUsage user now
    perform (.setPeriodKeyIfEmpty user state key)
    perform (.storeUsage user state bytes)
    settleExceeded user state bytes config.quotaBytes

def checkUsers (now : ℤ) : List String → List PeriodReset → Op (List PeriodReset)
  | [], resets => .ret resets
  | user :: users, resets => do
    match ← perform (.loadState user) with
    | none => checkUsers now users resets
    | some state =>
      let currentKey ← mustPeriodKey .checkPeriodReset user now
      match ← perform (.rollPeriod user state currentKey) with
      | none => checkUsers now users resets
      | some previousKey =>
        checkUsers now users (resets ++ [⟨user,previousKey,currentKey⟩])

def checkPeriodReset (now : ℤ) : Op (List PeriodReset) := do
  let users ← perform .userNames
  checkUsers now users []

def currentPeriodKey (user : String) : Op String := do
  let state ← perform (.stateFor user)
  let key ← perform (.getPeriodKey user state)
  if key ≠ "" then .ret key
  else do
    let now ← perform .now
    let key ← mustPeriodKey .currentPeriodKey user now
    perform (.setPeriodKeyIfEmpty user state key)
    .ret key

def consumeUsers : List String → List PendingDelta → Op (List PendingDelta)
  | [], pending => .ret pending
  | user :: users, pending => do
    match ← perform (.loadState user) with
    | none => consumeUsers users pending
    | some state =>
      let (key,delta) ← perform (.consume user state)
      if delta = 0 then consumeUsers users pending
      else consumeUsers users (pending ++ [⟨user,key,delta⟩])

def consumePendingDeltas : Op (List PendingDelta) := do
  let users ← perform .takeDirty
  consumeUsers users []

def restorePendingDelta (pd : PendingDelta) : Op Unit :=
  if pd.delta = 0 then .ret ()
  else do
    match ← hasQuota pd.user with
    | false => .ret ()
    | true =>
      let state ← perform (.stateFor pd.user)
      match ← perform (.restore pd.user state pd.periodKey pd.delta) with
      | false => .ret ()
      | true => perform (.markDirty pd.user)

end SingBoxAuth.TrafficQuota
