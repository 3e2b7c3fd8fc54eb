import SingBoxAuth.SpeedConfig

/-! The rate limiters of the speed limiter: the map from limiter keys to pairs of
limiters, the operations that change it, and the rates of all limiters that were ever
created. -/
namespace SingBoxAuth.SpeedLimiter

/-- A rate: none at all, or the bytes per second of a number of Mbps. -/
inductive Limit
  | inf
  | mbps (speed : ℤ)
  deriving DecidableEq

inductive Direction
  | upload
  | download
  deriving DecidableEq

/-- The limiters of an entry are numbered within their key and direction. -/
structure UserLimiter where
  upload : Option ℕ
  download : Option ℕ
  lastActive : ℤ
  deriving DecidableEq

def UserLimiter.pointer (ul : UserLimiter) : Direction → Option ℕ
  | .upload => ul.upload
  | .download => ul.download

/-- The limiters of one key and direction, in the order of their creation. -/
structure Lane where
  rate : ℕ → Limit
  count : ℕ

def newLimiter (mbps : ℤ) (lane : Lane) : Option ℕ × Lane :=
  if mbps ≤ 0 then (none,lane)
  else (some lane.count,⟨Function.update lane.rate lane.count (.mbps mbps),lane.count + 1⟩)

def setLimit (limiter : Option ℕ) (limit : Limit) (lane : Lane) : Lane :=
  match limiter with
  | none => lane
  | some n => { lane with rate := Function.update lane.rate n limit }

def neutralizeLimiter (limiter : Option ℕ) (lane : Lane) : Lane := setLimit limiter .inf lane

def setLimiterRate (limiter : Option ℕ) (mbps : ℤ) (lane : Lane) : Lane :=
  setLimit limiter (.mbps mbps) lane

def reconcileLimiterDirection (limiter : Option ℕ) (mbps : ℤ) (lane : Lane) : Option ℕ × Lane :=
  if 0 < mbps then
    match limiter with
    | none => newLimiter mbps lane
    | some n => (some n,setLimiterRate (some n) mbps lane)
  else (none,neutralizeLimiter limiter lane)

/-- The entry of one key, with all limiters that were created under the key. -/
structure Slot where
  entry : Option UserLimiter
  upload : Lane
  download : Lane

def Slot.empty : Slot := ⟨none,⟨fun _ => .inf,0⟩,⟨fun _ => .inf,0⟩⟩

def Slot.lane (slot : Slot) : Direction → Lane
  | .upload => slot.upload
  | .download => slot.download

def Slot.pointer (slot : Slot) (d : Direction) : Option ℕ := slot.entry.bind (·.pointer d)

def Slot.drop (slot : Slot) : Slot :=
  ⟨none,neutralizeLimiter (slot.pointer .upload) slot.upload,
    neutralizeLimiter (slot.pointer .download) slot.download⟩

def Slot.update (slot : Slot) (cfg : Option SpeedConfig) : Slot :=
  match slot.entry with
  | none => slot
  | some ul =>
    match cfg with
    | none => slot.drop
    | some cfg =>
      let (up,upLane) := reconcileLimiterDirection ul.upload cfg.uploadMbps slot.upload
      let (down,downLane) := reconcileLimiterDirection ul.download cfg.downloadMbps slot.download
      if up = none ∧ down = none then ⟨none,upLane,downLane⟩
      else ⟨some { ul with upload := up, download := down },upLane,downLane⟩

def clientLimiterKeySep : Char := '|'

def extractUserName (key : String) : String :=
  String.ofList (key.toList.takeWhile (· ≠ clientLimiterKeySep))

def perClientKey (key : String) : Bool := clientLimiterKeySep ∈ key.toList

def ownsKey (user key : String) : Bool :=
  key = user || (user.toList ++ [clientLimiterKeySep]).isPrefixOf key.toList

def clientKey (user addr : String) : String :=
  user ++ String.ofList [clientLimiterKeySep] ++ addr

structure LimiterManager where
  config : ConfigSnapshot
  slots : String → Slot
  lastCheck : Option ℤ

namespace LimiterManager

variable (zone : ℤ → ℤ)

def new (config : ConfigSnapshot) : LimiterManager := ⟨config,fun _ => .empty,none⟩

variable (m : LimiterManager)

def setSlot (key : String) (slot : Slot) : LimiterManager :=
  { m with slots := Function.update m.slots key slot }

def currentConfig (userName : String) : Option SpeedConfig :=
  match m.lastCheck with
  | some checked => m.config.effectiveSpeed userName (timeOfDay zone checked)
  | none => m.config.resolveConfig userName

def limiterKey (cfg : SpeedConfig) (userName : String) (sourceAddr : Option String) : String :=
  match sourceAddr with
  | some addr => if cfg.perClient then clientKey userName addr else userName
  | none => userName

/-- Returns the key of the entry and what is found or stored there. -/
def getOrCreateLimiterForClient (userName : String)
    (sourceAddr : Option String) (now : ℤ) : Option (String × UserLimiter) × LimiterManager :=
  match m.currentConfig zone userName with
  | none => (none,m)
  | some cfg =>
    let key := limiterKey cfg userName sourceAddr
    let slot := m.slots key
    match slot.entry with
    | some ul =>
      let ul := { ul with lastActive := now }
      (some (key,ul),m.setSlot key { slot with entry := some ul })
    | none =>
      let (up,upLane) := newLimiter cfg.uploadMbps slot.upload
      let (down,downLane) := newLimiter cfg.downloadMbps slot.download
      if up = none ∧ down = none then (none,m)
      else
        let ul := ⟨up,down,now⟩
        (some (key,ul),m.setSlot key ⟨some ul,upLane,downLane⟩)

def updateLimiterRates (now : ℤ) : LimiterManager :=
  { m with
    slots := fun key => (m.slots key).update
      (m.config.effectiveSpeed (extractUserName key) (timeOfDay zone now)) }

def applyRuntimeState (now : ℤ) : LimiterManager :=
  updateLimiterRates zone { m with lastCheck := some now } now

def ttlSeconds : ℤ := (m.config.clientTTL / 1000000000).toInt

def expired (now : ℤ) (key : String) (ul : UserLimiter) : Bool :=
  perClientKey key && 0 < ul.lastActive && m.ttlSeconds < now - ul.lastActive

def cleanExpiredClientLimiters (now : ℤ) : LimiterManager :=
  { m with
    slots := fun key =>
      let slot := m.slots key
      if slot.entry.any (m.expired now key) then { slot with entry := none } else slot }

def checkSchedules (now : ℤ) : LimiterManager :=
  cleanExpiredClientLimiters (applyRuntimeState zone m now) now

def applyConfig (user : SpeedLimiterUser) (now : ℤ) :
    Except SpeedError LimiterManager :=
  (m.config.applyConfig user).map fun config => applyRuntimeState zone { m with config } now

def removeConfig (user : String) : Except SpeedError LimiterManager :=
  (m.config.removeConfig user).map fun config =>
    { m with
      config
      slots := fun key => if ownsKey user key then (m.slots key).drop else m.slots key }

def replaceUserSchedules (user : String) (schedules : List UserSchedule)
    (now : ℤ) : Except SpeedError LimiterManager :=
  (m.config.replaceUserSchedules user schedules).map fun config =>
    applyRuntimeState zone { m with config } now

def removeUserSchedules (user : String) (now : ℤ) :
    Except SpeedError LimiterManager :=
  (m.config.removeUserSchedules user).map fun config =>
    applyRuntimeState zone { m with config } now

/-- A row of the dynamic configuration; without a speed, an authoritative row removes. -/
def applyDynamic (row : ConfigRow) (now : ℤ) :
    Except SpeedError LimiterManager :=
  if row.noSpeed then
    if !row.authoritative then .ok m
    else
      match m.config.getConfig row.user with
      | none => .ok m
      | some _ => m.removeConfig row.user
  else m.applyConfig zone row.toUser now

end LimiterManager

lemma map_eq_ok {ε α β : Type} {x : Except ε α} {f : α → β} {b : β} (h : x.map f = .ok b) :
    ∃ a,x = .ok a ∧ f a = b := by
  cases x with
  | error e => cases h
  | ok a => exact ⟨a,rfl,Except.ok.inj h⟩

inductive LimiterOp
  | getOrCreate (user : String) (addr : Option String)
  | checkSchedules
  | applyConfig (user : SpeedLimiterUser)
  | removeConfig (user : String)
  | replaceUserSchedules (user : String) (schedules : List UserSchedule)
  | removeUserSchedules (user : String)
  deriving DecidableEq

structure Handed where
  key : String
  direction : Direction
  number : ℕ
  deriving DecidableEq

def handedBy (key : String) (ul : UserLimiter) : List Handed :=
  (ul.upload.map (Handed.mk key .upload)).toList ++
    (ul.download.map (Handed.mk key .download)).toList

/-- The manager with the limiters that were ever handed to a connection. -/
structure Tracked where
  manager : LimiterManager
  handed : List Handed

def Tracked.change (s : Tracked) (result : Except SpeedError LimiterManager) : Tracked :=
  match result with
  | .ok manager => { s with manager }
  | .error _ => s

def Tracked.step (zone : ℤ → ℤ) (s : Tracked) : LimiterOp × ℤ → Tracked
  | (.getOrCreate user addr,now) =>
    let (result,manager) := s.manager.getOrCreateLimiterForClient zone user addr now
    match result with
    | none => { s with manager }
    | some (key,ul) => ⟨manager,handedBy key ul ++ s.handed⟩
  | (.checkSchedules,now) => { s with manager := s.manager.checkSchedules zone now }
  | (.applyConfig user,now) => s.change (s.manager.applyConfig zone user now)
  | (.removeConfig user,_) => s.change (s.manager.removeConfig user)
  | (.replaceUserSchedules user schedules,now) =>
    s.change (s.manager.replaceUserSchedules zone user schedules now)
  | (.removeUserSchedules user,now) => s.change (s.manager.removeUserSchedules zone user now)

def Tracked.run (zone : ℤ → ℤ) (config : ConfigSnapshot) (history : List (LimiterOp × ℤ)) :
    Tracked :=
  history.foldl (Tracked.step zone) ⟨.new config,[]⟩

end SingBoxAuth.SpeedLimiter
