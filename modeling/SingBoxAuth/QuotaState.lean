import SingBoxAuth.QuotaConfig
import SingBoxAuth.InterleavingContract

/-! The shared state of the traffic-quota manager and service, and the atomic
actions on it. Pointers are represented by the user and the number of the object
allocated for that user. Each action is one atomic operation or one critical
section of the source; several outcomes stand for a choice of the environment. -/
namespace SingBoxAuth.TrafficQuota
open Interleaving

/-- A tracked connection; equality of connections is pointer equality. -/
abbrev Conn := ℕ

structure UserState where
  usage : Int64
  pendingDelta : Int64
  exceeded : Bool
  periodKey : String
  deriving DecidableEq

def UserState.empty : UserState := ⟨0,0,false,""⟩

structure PeriodReset where
  user : String
  previousKey : String
  currentPeriod : String
  deriving DecidableEq

structure PendingDelta where
  user : String
  periodKey : String
  delta : Int64
  deriving DecidableEq

structure RuntimeState where
  user : TrafficQuotaUser
  usageBytes : Int64
  pendingDelta : Int64
  exceeded : Bool
  periodKey : String
  activeConns : Option ℕ
  deriving DecidableEq

inductive Mutex
  | persistAccess
  | applyMu
  deriving DecidableEq

structure World where
  userConfigs : AList fun _ : String => QuotaConfig
  states : String → Option ℕ
  stateHeap : String × ℕ → UserState
  stateCount : String → ℕ
  activeConns : String → Option ℕ
  listHeap : String × ℕ → List Conn
  listCount : String → ℕ
  closed : Conn → Bool
  connCount : ℕ
  dirtySet : Finset String
  dirtyQueue : List String
  store : String × String → Option Int64
  clock : ℤ
  readers : Finset ℕ
  writer : Option ℕ
  mutex : Mutex → Option ℕ

/-- Why a period key is computed; the label of the calling function. -/
inductive Caller
  | registerConn
  | applyConfig
  | loadUsage
  | checkPeriodReset
  | currentPeriodKey
  deriving DecidableEq

/-- Values handed back to callers that keep them for a later operation. -/
inductive Returned
  | registered (user : String) (list : ℕ) (conn : Conn)
  | snapshot (state : RuntimeState)
  | removed (user key : String)
  deriving DecidableEq

inductive Act
  | loadConfig (user : String)
  | storeConfig (user : String) (config : QuotaConfig)
  | deleteConfig (user : String)
  | userNames
  | keyConfig (caller : Caller) (user : String)
  | now
  | loadState (user : String)
  | stateFor (user : String)
  | deleteState (user : String)
  | getPeriodKey (user : String) (state : ℕ)
  | setPeriodKey (user : String) (state : ℕ) (key : String)
  | setPeriodKeyIfEmpty (user : String) (state : ℕ) (key : String)
  | addBytes (user : String) (state : ℕ) (n : Int64)
  | consume (user : String) (state : ℕ)
  | restore (user : String) (state : ℕ) (key : String) (delta : Int64)
  | rollPeriod (user : String) (state : ℕ) (key : String)
  | readUsage (user : String) (state : ℕ)
  | storeUsage (user : String) (state : ℕ) (bytes : Int64)
  | readPending (user : String) (state : ℕ)
  | storePending (user : String) (state : ℕ) (delta : Int64)
  | readExceeded (user : String) (state : ℕ)
  | storeExceeded (user : String) (state : ℕ) (value : Bool)
  | trip (user : String) (state : ℕ)
  | markDirty (user : String)
  | takeDirty
  | newConn
  | loadConns (user : String)
  | connsFor (user : String)
  | storeConns (user : String) (list : ℕ)
  | deleteConns (user : String)
  | takeConns (user : String)
  | addConn (user : String) (list : ℕ) (conn : Conn)
  | removeConn (user : String) (list : ℕ) (conn : Conn)
  | listConns (user : String) (list : ℕ)
  | clearConns (user : String) (list : ℕ)
  | markConn (conn : Conn)
  | load (user key : String)
  | loadMany (key : String) (users : List String)
  | save (user key : String) (bytes : Int64)
  | incrBy (user key : String) (delta : Int64)
  | deleteRecord (user key : String)
  | iterate (keys : List String)
  | lock (mutex : Mutex)
  | unlock (mutex : Mutex)
  | rLock
  | rUnlock
  | wLock
  | wUnlock
  | returned (value : Returned)
  | panic
  | tick (nanoseconds : ℕ)

/-- What each action returns. A persister call returns whether it succeeded, or none
when it failed; a panic returns nothing at all. -/
@[reducible] def Act.Res : Act → Type
  | .loadConfig _ | .keyConfig _ _ => Option QuotaConfig
  | .userNames | .takeDirty | .iterate _ => List String
  | .now => ℤ
  | .loadState _ | .loadConns _ | .takeConns _ => Option ℕ
  | .stateFor _ | .connsFor _ => ℕ
  | .getPeriodKey _ _ => String
  | .addBytes _ _ _ => Option (String × Int64)
  | .consume _ _ => String × Int64
  | .restore _ _ _ _ | .readExceeded _ _ | .trip _ _ => Bool
  | .rollPeriod _ _ _ => Option String
  | .readUsage _ _ | .readPending _ _ => Int64
  | .newConn => Conn
  | .listConns _ _ | .clearConns _ _ => List Conn
  | .load _ _ => Option Int64
  | .loadMany _ _ => Option (List (String × Int64))
  | .save _ _ _ | .incrBy _ _ _ | .deleteRecord _ _ => Bool
  | .panic => Empty
  | _ => Unit

def removeConn (conns : List Conn) (conn : Conn) : List Conn :=
  match conns.findIdx? (· == conn) with
  | none => conns
  | some i => (conns.set i (conns.getLast?.getD conn)).dropLast

namespace World

def modifyState (w : World) (user : String) (state : ℕ) (f : UserState → UserState) : World :=
  { w with stateHeap := Function.update w.stateHeap (user,state) (f (w.stateHeap (user,state))) }

def modifyList (w : World) (user : String) (list : ℕ) (f : List Conn → List Conn) : World :=
  { w with listHeap := Function.update w.listHeap (user,list) (f (w.listHeap (user,list))) }

def setRecord (w : World) (user key : String) (value : Option Int64) : World :=
  { w with store := Function.update w.store (user,key) value }

def persisted (w : World) (user key : String) : Int64 := (w.store (user,key)).getD 0

def stateFor (w : World) (user : String) : ℕ × World :=
  match w.states user with
  | some state => (state,w)
  | none => (w.stateCount user,
      { w with
        states := Function.update w.states user (some (w.stateCount user))
        stateHeap := Function.update w.stateHeap (user,w.stateCount user) .empty
        stateCount := Function.update w.stateCount user (w.stateCount user + 1) })

def connsFor (w : World) (user : String) : ℕ × World :=
  match w.activeConns user with
  | some list => (list,w)
  | none => (w.listCount user,
      { w with
        activeConns := Function.update w.activeConns user (some (w.listCount user))
        listHeap := Function.update w.listHeap (user,w.listCount user) []
        listCount := Function.update w.listCount user (w.listCount user + 1) })

def markDirty (w : World) (user : String) : World :=
  if user ∈ w.dirtySet then w
  else { w with dirtySet := insert user w.dirtySet, dirtyQueue := w.dirtyQueue ++ [user] }

def state? (w : World) (user : String) : Option UserState :=
  (w.states user).map fun state => w.stateHeap (user,state)

def isExceeded (w : World) (user : String) : Bool :=
  match w.state? user with
  | some state => state.exceeded
  | none => false

def usage (w : World) (user : String) : Int64 :=
  match w.state? user with
  | some state => state.usage
  | none => 0

def pendingDelta (w : World) (user : String) : Int64 :=
  match w.state? user with
  | some state => state.pendingDelta
  | none => 0

end World

def UserState.add (state : UserState) (n : Int64) : UserState :=
  { state with usage := state.usage + n, pendingDelta := state.pendingDelta + n }

/-- The periodAccess section of AddBytes; an unset period is resolved inside it.
Reports the key the bytes are counted under and the new total. -/
def addSection (w : World) (user : String) (state : ℕ) (n : Int64) :
    Option (String × Int64) × World :=
  let s := w.stateHeap (user,state)
  if s.periodKey = "" then
    match w.userConfigs.lookup user with
    | none => (none,w)
    | some config =>
      match periodKey config w.clock with
      | .error _ => (none,w)
      | .ok key => (some (key,s.usage + n),
          w.modifyState user state fun s => { s with periodKey := key }.add n)
  else (some (s.periodKey,s.usage + n),w.modifyState user state fun s => s.add n)

/-- The periodAccess section of CheckPeriodReset; returns the key that was left. -/
def rollSection (s : UserState) (currentKey : String) : Option String × UserState :=
  if s.periodKey = "" then (none,{ s with periodKey := currentKey })
  else if currentKey = s.periodKey then (none,s)
  else (some s.periodKey,⟨0,0,false,currentKey⟩)

def restoreSection (s : UserState) (key : String) (delta : Int64) : Bool × UserState :=
  if s.periodKey = key then (true,{ s with pendingDelta := s.pendingDelta + delta }) else (false,s)

def outcomes (t : ℕ) : (a : Act) → World → List (a.Res × World)
  | .loadConfig user, w | .keyConfig _ user, w => [(w.userConfigs.lookup user,w)]
  | .storeConfig user config, w => [((),{ w with userConfigs := w.userConfigs.insert user config })]
  | .deleteConfig user, w => [((),{ w with userConfigs := w.userConfigs.erase user })]
  | .userNames, w => w.userConfigs.keys.permutations'.map (·,w)
  | .now, w => [(w.clock,w)]
  | .loadState user, w => [(w.states user,w)]
  | .stateFor user, w => [w.stateFor user]
  | .deleteState user, w => [((),{ w with states := Function.update w.states user none })]
  | .getPeriodKey user state, w => [((w.stateHeap (user,state)).periodKey,w)]
  | .setPeriodKey user state key, w =>
    [((),w.modifyState user state fun s => { s with periodKey := key })]
  | .setPeriodKeyIfEmpty user state key, w =>
    [((),w.modifyState user state fun s => if s.periodKey = "" then { s with periodKey := key } else s)]
  | .addBytes user state n, w => [addSection w user state n]
  | .consume user state, w =>
    [(((w.stateHeap (user,state)).periodKey,(w.stateHeap (user,state)).pendingDelta),
      w.modifyState user state fun s => { s with pendingDelta := 0 })]
  | .restore user state key delta, w =>
    [((restoreSection (w.stateHeap (user,state)) key delta).1,
      w.modifyState user state fun s => (restoreSection s key delta).2)]
  | .rollPeriod user state key, w =>
    [((rollSection (w.stateHeap (user,state)) key).1,
      w.modifyState user state fun s => (rollSection s key).2)]
  | .readUsage user state, w => [((w.stateHeap (user,state)).usage,w)]
  | .storeUsage user state bytes, w =>
    [((),w.modifyState user state fun s => { s with usage := bytes })]
  | .readPending user state, w => [((w.stateHeap (user,state)).pendingDelta,w)]
  | .storePending user state delta, w =>
    [((),w.modifyState user state fun s => { s with pendingDelta := delta })]
  | .readExceeded user state, w => [((w.stateHeap (user,state)).exceeded,w)]
  | .storeExceeded user state value, w =>
    [((),w.modifyState user state fun s => { s with exceeded := value })]
  | .trip user state, w =>
    [(!(w.stateHeap (user,state)).exceeded,
      w.modifyState user state fun s => { s with exceeded := true })]
  | .markDirty user, w => [((),w.markDirty user)]
  | .takeDirty, w => [(w.dirtyQueue,{ w with dirtySet := ∅, dirtyQueue := [] })]
  | .newConn, w => [(w.connCount,{ w with connCount := w.connCount + 1 })]
  | .loadConns user, w => [(w.activeConns user,w)]
  | .connsFor user, w => [w.connsFor user]
  | .storeConns user list, w =>
    [((),{ w with activeConns := Function.update w.activeConns user (some list) })]
  | .deleteConns user, w => [((),{ w with activeConns := Function.update w.activeConns user none })]
  | .takeConns user, w =>
    [(w.activeConns user,{ w with activeConns := Function.update w.activeConns user none })]
  | .addConn user list conn, w => [((),w.modifyList user list (· ++ [conn]))]
  | .removeConn user list conn, w => [((),w.modifyList user list (removeConn · conn))]
  | .listConns user list, w => [(w.listHeap (user,list),w)]
  | .clearConns user list, w => [(w.listHeap (user,list),w.modifyList user list fun _ => [])]
  | .markConn conn, w => [((),{ w with closed := Function.update w.closed conn true })]
  | .load user key, w => [(some (w.persisted user key),w),(none,w)]
  | .loadMany key users, w =>
    [(some (users.filterMap fun user => (w.store (user,key)).map (user,·)),w),(none,w)]
  | .save user key bytes, w => [(true,w.setRecord user key (some bytes)),(false,w)]
  | .incrBy user key delta, w =>
    [(true,w.setRecord user key (some (w.persisted user key + delta))),(false,w)]
  | .deleteRecord user key, w => [(true,w.setRecord user key none),(false,w)]
  | .iterate keys, w => keys.permutations'.map (·,w)
  | .lock mutex, w =>
    if w.mutex mutex = none then [((),{ w with mutex := Function.update w.mutex mutex (some t) })]
    else []
  | .unlock mutex, w => [((),{ w with mutex := Function.update w.mutex mutex none })]
  | .rLock, w => if w.writer = none then [((),{ w with readers := insert t w.readers })] else []
  | .rUnlock, w => [((),{ w with readers := w.readers.erase t })]
  | .wLock, w =>
    if w.writer = none ∧ w.readers = ∅ then [((),{ w with writer := some t })] else []
  | .wUnlock, w => [((),{ w with writer := none })]
  | .returned _, w => [((),w)]
  | .panic, _ => []
  | .tick d, w => [((),{ w with clock := w.clock + d })]

def aliceConfig : QuotaConfig := ⟨1000,.daily,zeroTime,0,by decide,daily_start,daily_days⟩

def plainText : TimeText := ⟨fun _ => none,fun _ => ""⟩

def aliceWorld : World where
  userConfigs := AList.singleton "alice" aliceConfig
  states := fun u => if u = "alice" then some 0 else none
  stateHeap := fun _ => ⟨0,0,false,"2026-05-14"⟩
  stateCount := fun _ => 1
  activeConns := fun _ => none
  listHeap := fun _ => []
  listCount := fun _ => 0
  closed := fun _ => false
  connCount := 0
  dirtySet := ∅
  dirtyQueue := []
  store := fun _ => none
  clock := 1778752800000000000
  readers := ∅
  writer := none
  mutex := fun _ => none

end SingBoxAuth.TrafficQuota
