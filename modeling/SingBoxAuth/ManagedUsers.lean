import SingBoxAuth.InterleavingContract

/-! Inbounds that identify a user by its position in the user list. Authentication
looks a credential up in one table and keeps the index; every hand-over looks the
index up in another table of names. ReplaceUsers exchanges the two tables one after
the other. Trojan and TUIC are two instances. -/
namespace SingBoxAuth.ManagedUsers
open Interleaving

structure User where
  name : String
  password : String
  uuid : String
deriving DecidableEq, Repr

/-- The authentication side of an index-based inbound. A credential is only found at
the index of a user that owns it. -/
structure IndexServer (Credential : Type) where
  Table : Type
  Error : Type
  build : List User → Except Error Table
  find : Table → Credential → Option ℕ
  credential : User → Option Credential
  owned : ∀ {users table c i}, build users = .ok table → find table c = some i →
    ∃ user, users[i]? = some user ∧ credential user = some c

section trojan

inductive UpdateError (K : Type)
  | userExists
  | passwordUsed (oldUser : K)
deriving DecidableEq, Repr

def UpdateError.text {K : Type} [ToString K] : UpdateError K → String
  | .userExists => "user already exists"
  | .passwordUsed oldUser => "password used by " ++ toString oldUser

variable {K Key : Type} [DecidableEq K] [DecidableEq Key]

/-- The loop of Service.UpdateUsers over users and their passwords. -/
def updateUsers (key : String → Key) :
    List (K × String) → AList (fun _ : K => Key) → AList (fun _ : Key => K) →
      Except (UpdateError K) (AList (fun _ : K => Key) × AList (fun _ : Key => K))
  | [], users, keys => .ok (users,keys)
  | (user,password) :: rest, users, keys =>
    if (users.lookup user).isSome then
      .error .userExists
    else
      match keys.lookup (key password) with
      | some oldUser => .error (.passwordUsed oldUser)
      | none => updateUsers key rest (users.insert user (key password))
          (keys.insert (key password) user)

lemma updateUsers_keys {key : String → Key} {entries : List (K × String)}
    {users users' : AList fun _ : K => Key} {keys keys' : AList fun _ : Key => K}
    (h : updateUsers key entries users keys = .ok (users',keys')) {c : Key} {user : K}
    (hc : keys'.lookup c = some user) :
    keys.lookup c = some user ∨ ∃ password,(user,password) ∈ entries ∧ key password = c := by
  induction entries generalizing users keys with
  | nil =>
    simp only [updateUsers,Except.ok.injEq,Prod.mk.injEq] at h
    exact .inl (h.2 ▸ hc)
  | cons entry rest ih =>
    obtain ⟨first,password⟩ := entry
    simp only [updateUsers] at h
    split_ifs at h
    split at h
    · cases h
    · obtain hold | ⟨p,hp,hk⟩ := ih h
      · by_cases hck : c = key password
        · subst hck
          rw [AList.lookup_insert,Option.some.injEq] at hold
          exact .inr ⟨password,by simp [hold],rfl⟩
        · rw [AList.lookup_insert_ne hck] at hold
          exact .inl hold
      · exact .inr ⟨p,List.mem_cons_of_mem _ hp,hk⟩

/-- The user indices and passwords that Inbound.ReplaceUsers passes on. -/
def indexedPasswords (users : List User) : List (ℕ × String) :=
  users.zipIdx.map fun (user,i) => (i,user.password)

lemma mem_indexedPasswords {users : List User} {i : ℕ} {password : String}
    (h : (i,password) ∈ indexedPasswords users) :
    ∃ user,users[i]? = some user ∧ user.password = password := by
  obtain ⟨⟨user,j⟩,hme,heq⟩ := List.mem_map.mp h
  simp only [Prod.mk.injEq] at heq
  exact ⟨user,heq.1 ▸ List.mem_zipIdx_iff_getElem?.mp hme,heq.2⟩

/-- Trojan: the tables are users and keys, and a credential is a key, the hex form
of the SHA-224 digest of a password. -/
def trojanServer (key : String → Key) : IndexServer Key where
  Table := AList (fun _ : ℕ => Key) × AList (fun _ : Key => ℕ)
  Error := UpdateError ℕ
  build users := updateUsers key (indexedPasswords users) ∅ ∅
  find table c := table.2.lookup c
  credential user := some (key user.password)
  owned := by
    intro users table c i hbuild hfind
    obtain hnone | ⟨password,hmem,hkey⟩ := updateUsers_keys hbuild hfind
    · simp at hnone
    · obtain ⟨user,huser,hpw⟩ := mem_indexedPasswords hmem
      exact ⟨user,huser,by rw [hpw,hkey]⟩

end trojan

section tuic

/-- The authentication service that TUIC is built on: it only accepts a UUID and a
password that it was given, for the user they were given for. -/
structure TuicService (UUID : Type) where
  Table : Type
  updateUsers : List (ℕ × UUID × String) → Table
  authenticate : Table → UUID × String → Option ℕ
  given : ∀ {entries c i}, authenticate (updateUsers entries) c = some i → (i,c) ∈ entries

inductive UUIDError
  | missing (index : ℕ)
  | invalid (index : ℕ)
deriving DecidableEq, Repr

def UUIDError.text : UUIDError → String
  | .missing index => "missing uuid for user " ++ toString index
  | .invalid index => "invalid uuid for user " ++ toString index

variable {UUID : Type}

/-- The loop of Inbound.ReplaceUsers; the first argument is the running index. -/
def tuicEntries (parse : String → Option UUID) :
    ℕ → List User → Except UUIDError (List (ℕ × UUID × String))
  | _, [] => .ok []
  | i, user :: users =>
    if user.uuid = "" then
      .error (.missing i)
    else
      match parse user.uuid with
      | none => .error (.invalid i)
      | some uuid => (tuicEntries parse (i + 1) users).map ((i,uuid,user.password) :: ·)

def tuicCredential (parse : String → Option UUID) (user : User) : Option (UUID × String) :=
  (parse user.uuid).map (·,user.password)

lemma mem_tuicEntries {parse : String → Option UUID} {users : List User} {k i : ℕ}
    {entries : List (ℕ × UUID × String)} {c : UUID × String}
    (h : tuicEntries parse k users = .ok entries) (hc : (i,c) ∈ entries) :
    ∃ j user,i = k + j ∧ users[j]? = some user ∧ tuicCredential parse user = some c := by
  induction users generalizing k entries with
  | nil =>
    cases h
    cases hc
  | cons user users ih =>
    simp only [tuicEntries] at h
    split_ifs at h
    split at h
    · cases h
    · next uuid huu =>
      cases hr : tuicEntries parse (k + 1) users with
      | error e => simp [hr,Except.map] at h
      | ok rest =>
        simp only [hr,Except.map,Except.ok.injEq] at h
        subst h
        obtain heq | hme := List.mem_cons.mp hc
        · cases heq
          exact ⟨0,user,rfl,rfl,by simp [tuicCredential,huu]⟩
        · obtain ⟨j,u,rfl,hu,hcr⟩ := ih hr hme
          exact ⟨j + 1,u,by omega,hu,hcr⟩

def tuicServer (parse : String → Option UUID) (service : TuicService UUID) :
    IndexServer (UUID × String) where
  Table := service.Table
  Error := UUIDError
  build users := (tuicEntries parse 0 users).map service.updateUsers
  find := service.authenticate
  credential := tuicCredential parse
  owned := by
    intro users table c i hbuild hfind
    cases hentries : tuicEntries parse 0 users with
    | error e => simp [hentries,Except.map] at hbuild
    | ok entries =>
      simp only [hentries,Except.map,Except.ok.injEq] at hbuild
      subst hbuild
      obtain ⟨j,user,rfl,huser,hcred⟩ := mem_tuicEntries hentries (service.given hfind)
      exact ⟨user,by simpa using huser,hcred⟩

end tuic

variable {Credential : Type}

structure World (S : IndexServer Credential) where
  table : S.Table
  names : List String

/-- What a hand-over writes to metadata.User: an unnamed user leaves it unset. -/
def metadataUser (name : String) : Option String := if name = "" then none else some name

/-- The value of metadata.User after a hand-over; none when the index is out of range. -/
def World.handOver {S : IndexServer Credential} (w : World S) (index : ℕ) :
    Option (Option String) := w.names[index]?.map metadataUser

inductive Act (Credential : Type)
  | storeTable (users : List User)
  | storeNames (names : List String)
  | authenticate (credential : Credential)
  | handOver (index : ℕ)
  | close
  | panic
deriving DecidableEq

@[reducible] def Act.Res : Act Credential → Type
  | .storeTable _ => Unit
  | .storeNames _ => Unit
  | .authenticate _ => Option ℕ
  | .handOver _ => Option (Option String)
  | .close => Unit
  | .panic => Empty

abbrev Op (Credential α : Type) : Type := Prog (Act Credential) Act.Res α

abbrev perform (a : Act Credential) : Op Credential a.Res := Prog.perform a

def outcomes (S : IndexServer Credential) :
    Outcomes (Act Credential) Act.Res (World S)
  | _, .storeTable users, w =>
    match S.build users with
    | .ok table => [((),{ w with table })]
    | .error _ => []
  | _, .storeNames names, w => [((),{ w with names })]
  | _, .authenticate c, w => [(S.find w.table c,w)]
  | _, .handOver index, w => [(w.handOver index,w)]
  | _, .close, w => [((),w)]
  | _, .panic, _ => []

/-- Inbound.ReplaceUsers: a list that is refused changes nothing, and the names follow
the authentication table in a second store. -/
def replaceUsers (S : IndexServer Credential) (users : List User) :
    Op Credential (Except S.Error Unit) :=
  match S.build users with
  | .error e => .ret (.error e)
  | .ok _ => do
    perform (.storeTable users)
    perform (.storeNames (users.map User.name))
    .ret (.ok ())

/-- The hand-overs of one connection: one for a Trojan request, one for each stream
or packet session of a TUIC connection. -/
def handOvers (index : ℕ) : ℕ → Op Credential Unit
  | 0 => .ret ()
  | n + 1 => do
    match ← perform (.handOver index) with
    | none => .act .panic nofun
    | some _ => handOvers index n

/-- A connection: authentication, then any number of hand-overs under the index. -/
def connection (c : Credential) (n : ℕ) : Op Credential Unit := do
  match ← perform (.authenticate c) with
  | none => .ret ()
  | some index => do
    handOvers index n
    perform .close

/-- ReplaceUsers is called by one thread at a time; connections come on any other. -/
def inboundOps (S : IndexServer Credential) : Ops (Act Credential) Act.Res (World S) :=
  fun t _ p => (t = 0 ∧ ∃ users, p = (do let _ ← replaceUsers S users)) ∨
    (t ≠ 0 ∧ ∃ c n, p = connection c n)

end SingBoxAuth.ManagedUsers
