import SingBoxAuth.KeyedMerge

/-! The user provider: users of five sources, an overlay of users that were created or
changed through the admin API, and the names of source users that were deleted. Every
operation merges them anew. -/
namespace SingBoxAuth.UserProvider
open KeyedMerge

/-- The fields of option.User, which are those of adapter.User. -/
structure User where
  name : String
  password : String
  uuid : String
  alterId : ℤ
  flow : String
  deriving DecidableEq

def User.zero : User := ⟨"","","",0,""⟩

structure UserPatch where
  password : Option String
  uuid : Option String
  alterId : Option ℤ
  flow : Option String
  deriving DecidableEq

def UserPatch.apply (patch : UserPatch) (user : User) : User :=
  { user with
    password := patch.password.getD user.password
    uuid := patch.uuid.getD user.uuid
    alterId := patch.alterId.getD user.alterId
    flow := patch.flow.getD user.flow }

inductive ProviderError
  | missingName
  | alreadyExists (name : String)
  | notFound (name : String)
  | loadFile
  | push
  deriving DecidableEq

/-- What the sources hold when they are read. The file may be unreadable; the other
sources are cached. A source that is not configured holds nothing. -/
structure Contents where
  inline : List User
  file : Option (List User)
  http : List User
  redis : List User
  postgres : List User

def sourceUsers (c : Contents) : Except ProviderError (List User) :=
  match c.file with
  | none => .error .loadFile
  | some file => .ok (c.inline ++ file ++ c.http ++ c.redis ++ c.postgres)

/-- The surroundings of one operation: what each of its reads of the sources finds, the
order in which each of its merges ranges over the overlay, and whether the push to the
inbounds succeeds. -/
structure Env where
  read : ℕ → Contents
  order : ℕ → List String → List String
  perm : ∀ i names, (order i names).Perm names
  pushed : Bool

structure Provider where
  overlayUsers : AList fun _ : String => User
  deletedUsers : Finset String
  allUsers : List User

def Provider.new : Provider := ⟨∅,∅,[]⟩

def mergeSources (deleted : Finset String) (source : List User) : Merge String User :=
  source.foldl (fun m user => if user.name ∈ deleted then m else m.put user.name user) .empty

/-- The loop over the overlay; the names are those that no source has. -/
def mergeOverlay (overlay : AList fun _ : String => User) (order : List String)
    (m : Merge String User) : Merge String User :=
  order.foldl (fun m name =>
    match overlay.lookup name with
    | none => m
    | some user => m.put name user) { m with names := [] }

namespace Provider

variable (p : Provider)

def merged (order : List String) (source : List User) : List User :=
  let m := mergeSources p.deletedUsers source
  let o := mergeOverlay p.overlayUsers order m
  (m.names ++ o.names.insertionSort (· ≤ ·)).map fun name => (o.entries name).getD .zero

def mergedUsers (env : Env) (i : ℕ) : Except ProviderError (List User) :=
  (sourceUsers (env.read i)).map (p.merged (env.order i p.overlayUsers.keys))

def loadAndPush (env : Env) (i : ℕ) : Except ProviderError Unit × Provider :=
  match p.mergedUsers env i with
  | .error err => (.error err,p)
  | .ok users => (if env.pushed then .ok () else .error .push,{ p with allUsers := users })

def setOverlay (user : User) : Provider :=
  { p with
    overlayUsers := p.overlayUsers.insert user.name user
    deletedUsers := p.deletedUsers.erase user.name }

def createUser (env : Env) (user : User) : Except ProviderError Unit × Provider :=
  if user.name = "" then (.error .missingName,p)
  else
    match p.mergedUsers env 0 with
    | .error err => (.error err,p)
    | .ok users =>
      if users.any (·.name = user.name) then (.error (.alreadyExists user.name),p)
      else (p.setOverlay user).loadAndPush env 1

def updateUser (env : Env) (name : String) (patch : UserPatch) :
    Except ProviderError Unit × Provider :=
  match p.mergedUsers env 0 with
  | .error err => (.error err,p)
  | .ok users =>
    match users.find? (·.name = name) with
    | none => (.error (.notFound name),p)
    | some current =>
      { p with
        overlayUsers := p.overlayUsers.insert name (patch.apply current)
        deletedUsers := p.deletedUsers.erase name }.loadAndPush env 1

/-- The sources are read three times: for the merged view, for the source view, and for
the new visible users. -/
def deleteUser (env : Env) (name : String) : Except ProviderError Unit × Provider :=
  match p.mergedUsers env 0 with
  | .error err => (.error err,p)
  | .ok users =>
    if users.any (·.name = name) then
      match sourceUsers (env.read 1) with
      | .error err => (.error err,p)
      | .ok source =>
        { p with
          overlayUsers := p.overlayUsers.erase name
          deletedUsers := if source.any (·.name = name) then insert name p.deletedUsers
            else p.deletedUsers.erase name }.loadAndPush env 2
    else (.error (.notFound name),p)

def getUser (name : String) : Option User := p.allUsers.find? (·.name = name)

end Provider

end SingBoxAuth.UserProvider
