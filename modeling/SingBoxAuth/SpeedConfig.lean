import Mathlib

/-! Configuration of the speed limiter: schedules and their text form, the immutable
snapshot, the speed that is in effect for a user, and the edits of a snapshot. -/
namespace SingBoxAuth.SpeedLimiter

structure SpeedLimiterUser where
  name : String
  group : String
  uploadMbps : ℤ
  downloadMbps : ℤ
  perClient : Option Bool
  deriving DecidableEq

structure SpeedConfig where
  uploadMbps : ℤ
  downloadMbps : ℤ
  perClient : Bool
  deriving DecidableEq

def SpeedConfig.zero : SpeedConfig := ⟨0,0,false⟩

structure TimeOfDay where
  hour : Fin 24
  minute : Fin 60
  deriving DecidableEq

def TimeOfDay.minutes (t : TimeOfDay) : ℕ := t.hour * 60 + t.minute

structure ScheduleEntry where
  start : TimeOfDay
  stop : TimeOfDay
  uploadMbps : ℤ
  downloadMbps : ℤ
  groups : List String
  deriving DecidableEq

structure UserSchedule where
  timeRange : String
  uploadMbps : ℤ
  downloadMbps : ℤ
  deriving DecidableEq

def ScheduleEntry.matchesTime (e : ScheduleEntry) (now : TimeOfDay) : Bool :=
  if e.start.minutes ≤ e.stop.minutes then
    e.start.minutes ≤ now.minutes && now.minutes < e.stop.minutes
  else e.start.minutes ≤ now.minutes || now.minutes < e.stop.minutes

/-- The local time of day of a unix time, for the offset of the zone at that time. -/
def timeOfDay (zone : ℤ → ℤ) (now : ℤ) : TimeOfDay :=
  let seconds := ((now + zone now) % 86400).toNat
  have hs : seconds < 86400 := by
    have h0 := Int.emod_nonneg (now + zone now) (show (86400 : ℤ) ≠ 0 by decide)
    have h1 := Int.emod_lt_of_pos (now + zone now) (show (0 : ℤ) < 86400 by decide)
    omega
  ⟨⟨seconds / 3600,by omega⟩,⟨seconds % 3600 / 60,by omega⟩⟩

inductive TimeError
  | format
  | invalidHour (text : String)
  | invalidMinute (text : String)
  deriving DecidableEq

inductive ScheduleError
  | format (range : String)
  | start (text : String) (cause : TimeError)
  | stop (text : String) (cause : TimeError)
  deriving DecidableEq

def isSpace (c : Char) : Bool :=
  c.toNat ∈ [9,10,11,12,13,32,0x85,0xA0,0x1680,0x2028,0x2029,0x202F,0x205F,0x3000] ||
    (0x2000 ≤ c.toNat && c.toNat ≤ 0x200A)

def trimSpace (s : List Char) : List Char :=
  ((s.dropWhile isSpace).reverse.dropWhile isSpace).reverse

/-- The two parts of SplitN with limit 2, when the separator occurs. -/
def cut (sep : Char) (s : List Char) : Option (List Char × List Char) :=
  match s.span (· ≠ sep) with
  | (before,_ :: after) => some (before,after)
  | (_,[]) => none

def digitsValue : List Char → Option ℕ
  | [] => none
  | ds => if ds.all Char.isDigit then some (ds.foldl (fun n d => n * 10 + (d.toNat - 48)) 0) else none

/-- A number beyond the machine range is an error of Atoi; here it is a number that the
range checks of parseTime refuse all the same. -/
def atoi : List Char → Option ℤ
  | '-' :: ds => (digitsValue ds).map fun n => -(n : ℤ)
  | '+' :: ds => (digitsValue ds).map fun n => (n : ℤ)
  | ds => (digitsValue ds).map fun n => (n : ℤ)

def boundedNat (bound : ℕ) (text : List Char) : Option (Fin bound) :=
  match atoi text with
  | some (.ofNat n) => if h : n < bound then some ⟨n,h⟩ else none
  | _ => none

def parseTime (text : List Char) : Except TimeError TimeOfDay :=
  match cut ':' (trimSpace text) with
  | none => .error .format
  | some (hourText,minuteText) =>
    match boundedNat 24 hourText with
    | none => .error (.invalidHour (String.ofList hourText))
    | some hour =>
      match boundedNat 60 minuteText with
      | none => .error (.invalidMinute (String.ofList minuteText))
      | some minute => .ok ⟨hour,minute⟩

def parseRange (range : String) : Except ScheduleError (TimeOfDay × TimeOfDay) :=
  match cut '-' range.toList with
  | none => .error (.format range)
  | some (startText,stopText) =>
    match parseTime startText with
    | .error cause => .error (.start (String.ofList startText) cause)
    | .ok start =>
      match parseTime stopText with
      | .error cause => .error (.stop (String.ofList stopText) cause)
      | .ok stop => .ok (start,stop)

abbrev UserEntry := { e : ScheduleEntry // e.groups = [] }

def parseUserSchedule (s : UserSchedule) : Except ScheduleError UserEntry :=
  (parseRange s.timeRange).map fun (start,stop) =>
    ⟨⟨start,stop,s.uploadMbps,s.downloadMbps,[]⟩,rfl⟩

/-- An immutable snapshot of the configuration. A user with a group or an override has
a raw configuration, which carries the user's name. No entry in userSchedules is the
same as an empty one. -/
structure ConfigSnapshot where
  defaultConfig : Option SpeedConfig
  groups : String → Option SpeedConfig
  userGroups : String → Option String
  userOverrides : String → Option SpeedConfig
  userRawConfig : String → Option SpeedLimiterUser
  schedules : List ScheduleEntry
  userSchedules : String → List UserEntry
  clientTTL : Int64
  coherent : ∀ u, userRawConfig u = none → userGroups u = none ∧ userOverrides u = none
  named : ∀ u raw, userRawConfig u = some raw → raw.name = u ∧ u ≠ ""

namespace ConfigSnapshot

lemma coherent_none (_ : String) (_ : (none : Option SpeedLimiterUser) = none) :
    (none : Option String) = none ∧ (none : Option SpeedConfig) = none := ⟨rfl,rfl⟩

lemma named_none (u : String) (raw : SpeedLimiterUser) (h : none = some raw) :
    raw.name = u ∧ u ≠ "" := nomatch h

variable (s : ConfigSnapshot) (userName : String)

def positiveOr (value base : ℤ) : ℤ := if 0 < value then value else base

def applyGroup (base : Option SpeedConfig) : Option SpeedConfig :=
  match (s.userGroups userName).bind s.groups with
  | none => base
  | some group =>
    let below := base.getD .zero
    some ⟨positiveOr group.uploadMbps below.uploadMbps,
      positiveOr group.downloadMbps below.downloadMbps,group.perClient⟩

def applyOverride (base : Option SpeedConfig) : Option SpeedConfig :=
  match s.userOverrides userName with
  | none => base
  | some override =>
    let below := base.getD .zero
    some ⟨positiveOr override.uploadMbps below.uploadMbps,
      positiveOr override.downloadMbps below.downloadMbps,below.perClient⟩

def applyPerClient (base : Option SpeedConfig) : Option SpeedConfig :=
  match (s.userRawConfig userName).bind SpeedLimiterUser.perClient with
  | none => base
  | some perClient => some { base.getD .zero with perClient }

/-- Per-user settings come before those of the group, and these before the default. -/
def resolveConfig : Option SpeedConfig :=
  s.applyPerClient userName (s.applyOverride userName (s.applyGroup userName s.defaultConfig))

def hasFixedUserUploadOverride : Bool :=
  (s.userRawConfig userName).any fun raw => 0 < raw.uploadMbps

def hasFixedUserDownloadOverride : Bool :=
  (s.userRawConfig userName).any fun raw => 0 < raw.downloadMbps

def activeGlobalSchedule (now : TimeOfDay) : Option ScheduleEntry :=
  (s.schedules.filter fun entry => entry.matchesTime now &&
    (entry.groups.isEmpty || (s.userGroups userName).any (· ∈ entry.groups))).getLast?

def activeUserSchedule (now : TimeOfDay) : Option ScheduleEntry :=
  (((s.userSchedules userName).map Subtype.val).filter (·.matchesTime now)).getLast?

/-- Speeds of an active schedule, where the user has no fixed speed. -/
def applySchedule (active : Option ScheduleEntry) (base : SpeedConfig) : SpeedConfig :=
  match active with
  | none => base
  | some entry =>
    { base with
      uploadMbps := if s.hasFixedUserUploadOverride userName then base.uploadMbps
        else positiveOr entry.uploadMbps base.uploadMbps
      downloadMbps := if s.hasFixedUserDownloadOverride userName then base.downloadMbps
        else positiveOr entry.downloadMbps base.downloadMbps }

def effectiveSpeed (now : TimeOfDay) : Option SpeedConfig :=
  let base :=
    match s.resolveConfig userName with
    | some base => some base
    | none => if (s.activeUserSchedule userName now).isSome then some .zero else none
  base.map fun base => s.applySchedule userName (s.activeUserSchedule userName now)
    (s.applySchedule userName (s.activeGlobalSchedule userName now) base)

def getConfig : Option SpeedLimiterUser := s.userRawConfig userName

structure UserSettings where
  group : Option String
  override : Option SpeedConfig
  raw : Option SpeedLimiterUser
  schedules : List UserEntry
  deriving DecidableEq

def ofUser : UserSettings :=
  ⟨s.userGroups userName,s.userOverrides userName,s.userRawConfig userName,s.userSchedules userName⟩

end ConfigSnapshot

inductive SpeedError
  | missingGroupName
  | missingName
  | unknownGroup (user group : String)
  | missingSpeed (user : String)
  | schedule (cause : ScheduleError)
  deriving DecidableEq

def SpeedLimiterUser.override (user : SpeedLimiterUser) : Option SpeedConfig :=
  if 0 < user.uploadMbps ∨ 0 < user.downloadMbps then
    some ⟨user.uploadMbps,user.downloadMbps,false⟩
  else none

def SpeedLimiterUser.groupName (user : SpeedLimiterUser) : Option String :=
  if user.group = "" then none else some user.group

namespace ConfigSnapshot

def setMaps (s : ConfigSnapshot) (user : String) (group : Option String)
    (override : Option SpeedConfig) (raw : Option SpeedLimiterUser)
    (coherent : raw = none → group = none ∧ override = none)
    (named : ∀ r, raw = some r → r.name = user ∧ user ≠ "") : ConfigSnapshot :=
  { s with
    userGroups := Function.update s.userGroups user group
    userOverrides := Function.update s.userOverrides user override
    userRawConfig := Function.update s.userRawConfig user raw
    coherent := fun u hu => by
      by_cases h : u = user
      · subst h
        simpa using coherent (by simpa using hu)
      · rw [Function.update_of_ne h] at hu
        simpa [Function.update_of_ne h] using s.coherent u hu
    named := fun u r hr => by
      by_cases h : u = user
      · subst h
        exact named r (by simpa using hr)
      · rw [Function.update_of_ne h] at hr
        exact s.named u r hr }

def applyConfig (s : ConfigSnapshot) (user : SpeedLimiterUser) : Except SpeedError ConfigSnapshot :=
  if hname : user.name = "" then .error .missingName
  else if user.group ≠ "" ∧ s.groups user.group = none then
    .error (.unknownGroup user.name user.group)
  else if user.group = "" ∧ user.uploadMbps ≤ 0 ∧ user.downloadMbps ≤ 0 then
    .error (.missingSpeed user.name)
  else .ok (s.setMaps user.name user.groupName user.override (some user) nofun fun r hr =>
    ⟨by rw [← Option.some.inj hr],hname⟩)

def removeConfig (s : ConfigSnapshot) (user : String) : Except SpeedError ConfigSnapshot :=
  if user = "" then .error .missingName
  else .ok (s.setMaps user none none none (fun _ => ⟨rfl,rfl⟩) nofun)

lemma removeConfig_of_getConfig_none {s : ConfigSnapshot} {user : String}
    (h : s.getConfig user = none) (hn : user ≠ "") : s.removeConfig user = .ok s := by
  obtain ⟨hg,ho⟩ := s.coherent user h
  have hr : s.userRawConfig user = none := h
  rw [removeConfig,if_neg hn,setMaps]
  simp only [← hg,← ho,← hr,Function.update_eq_self]

def setSchedules (s : ConfigSnapshot) (user : String) (entries : List UserEntry) :
    ConfigSnapshot :=
  { s with userSchedules := Function.update s.userSchedules user entries }

def replaceUserSchedules (s : ConfigSnapshot) (user : String) (schedules : List UserSchedule) :
    Except SpeedError ConfigSnapshot :=
  if user = "" then .error .missingName
  else
    match schedules.mapM parseUserSchedule with
    | .error cause => .error (.schedule cause)
    | .ok entries => .ok (s.setSchedules user entries)

def removeUserSchedules (s : ConfigSnapshot) (user : String) : Except SpeedError ConfigSnapshot :=
  if user = "" then .error .missingName else .ok (s.setSchedules user [])

end ConfigSnapshot

structure SpeedLimiterDefault where
  uploadMbps : ℤ
  downloadMbps : ℤ
  perClient : Bool
  clientTTLMinutes : Int64

structure SpeedLimiterGroup where
  name : String
  uploadMbps : ℤ
  downloadMbps : ℤ
  perClient : Option Bool

structure SpeedLimiterSchedule where
  timeRange : String
  uploadMbps : ℤ
  downloadMbps : ℤ
  groups : List String

structure SpeedLimiterOptions where
  default : Option SpeedLimiterDefault
  groups : List SpeedLimiterGroup
  users : List SpeedLimiterUser
  schedules : List SpeedLimiterSchedule

def parseSchedule (s : SpeedLimiterSchedule) : Except ScheduleError ScheduleEntry :=
  (parseRange s.timeRange).map fun (start,stop) =>
    ⟨start,stop,s.uploadMbps,s.downloadMbps,s.groups⟩

def minute : Int64 := 60000000000

def newClientTTL (default : Option SpeedLimiterDefault) : Int64 :=
  let ttl : Int64 :=
    match default with
    | some d => if 0 < d.clientTTLMinutes then d.clientTTLMinutes * minute else 0
    | none => 0
  if ttl = 0 then 10 * minute else ttl

def addGroup (s : ConfigSnapshot) (g : SpeedLimiterGroup) : Except SpeedError ConfigSnapshot :=
  if g.name = "" then .error .missingGroupName
  else .ok
    { s with
      groups := Function.update s.groups g.name
        (some ⟨g.uploadMbps,g.downloadMbps,g.perClient.getD false⟩) }

/-- A static user; the maps keep what an earlier entry of the same name has set where
this one sets nothing. -/
def addUser (s : ConfigSnapshot) (u : SpeedLimiterUser) : Except SpeedError ConfigSnapshot :=
  if hname : u.name = "" then .error .missingName
  else if u.group ≠ "" ∧ s.groups u.group = none then .error (.unknownGroup u.name u.group)
  else .ok (s.setMaps u.name (u.groupName <|> s.userGroups u.name)
    (u.override <|> s.userOverrides u.name) (some u) nofun fun r hr =>
      ⟨by rw [← Option.some.inj hr],hname⟩)

def addSchedule (s : ConfigSnapshot) (schedule : SpeedLimiterSchedule) :
    Except SpeedError ConfigSnapshot :=
  match parseSchedule schedule with
  | .error cause => .error (.schedule cause)
  | .ok entry => .ok { s with schedules := s.schedules ++ [entry] }

def newSnapshot (options : SpeedLimiterOptions) : Except SpeedError ConfigSnapshot := do
  let defaultConfig := options.default.map fun d => ⟨d.uploadMbps,d.downloadMbps,d.perClient⟩
  let s : ConfigSnapshot := ⟨defaultConfig,fun _ => none,fun _ => none,fun _ => none,
    fun _ => none,[],fun _ => [],newClientTTL options.default,ConfigSnapshot.coherent_none,
    ConfigSnapshot.named_none⟩
  let s ← options.groups.foldlM addGroup s
  let s ← options.users.foldlM addUser s
  options.schedules.foldlM addSchedule s

/-- A row of the dynamic configuration, as far as the speed limiter reads it. -/
structure ConfigRow where
  user : String
  uploadMbps : ℤ
  downloadMbps : ℤ
  perClient : Option Bool
  authoritative : Bool
  deriving DecidableEq

def ConfigRow.noSpeed (row : ConfigRow) : Bool := row.uploadMbps ≤ 0 && row.downloadMbps ≤ 0

def ConfigRow.toUser (row : ConfigRow) : SpeedLimiterUser :=
  ⟨row.user,"",row.uploadMbps,row.downloadMbps,row.perClient⟩

end SingBoxAuth.SpeedLimiter
