import SingBoxAuth.UserOverlay

/-! The user provider with the inbounds that it pushes its users to: which operations that return
an error leave the provider and every inbound as they were. -/
namespace SingBoxAuth.UserProvider

/-- An inbound: ReplaceUsers takes over a whole list or changes nothing. -/
structure Server where
  accepts : List User → Bool
  users : List User

def Server.replaceUsers (server : Server) (users : List User) : Bool × Server :=
  if server.accepts users then (true,{ server with users }) else (false,server)

/-- The loop of pushUsers: it goes on after an inbound that refuses the list. -/
def pushUsers (users : List User) : List Server → Bool × List Server
  | [] => (true,[])
  | server :: servers =>
    let (accepted,server) := server.replaceUsers users
    let (rest,servers) := pushUsers users servers
    (accepted && rest,server :: servers)

structure Service where
  provider : Provider
  valid : provider.Valid
  servers : List Server

namespace Service

/-- An operation of the provider; what it does last is to push the users that it has loaded. -/
def call (s : Service) (env : Env) (op : Op) : Except ProviderError Unit × Service :=
  let loaded := s.provider.step { env with pushed := true } op
  let push := pushUsers loaded.2.allUsers s.servers
  match loaded.1 with
  | .error err => (.error err,⟨loaded.2,Provider.step_valid s.valid _ op,s.servers⟩)
  | .ok () =>
    (if push.1 then .ok () else .error .push,
      ⟨loaded.2,Provider.step_valid s.valid _ op,push.2⟩)

/-- The overlay, the tombstones, the visible users and the users of the inbounds are the same. -/
structure Same (s s' : Service) : Prop where
  overlay : s'.provider.overlayUsers.toFinmap = s.provider.overlayUsers.toFinmap
  deleted : s'.provider.deletedUsers = s.provider.deletedUsers
  visible : s'.provider.allUsers = s.provider.allUsers
  servers : s'.servers.map Server.users = s.servers.map Server.users

end Service

/-- An operation comes to its edits, and with them the provider is as given. -/
inductive Edited (p : Provider) (read : ℕ → Contents) : Op → Provider → Prop
  | create {user : User} {source : List User} : user.name ≠ "" →
      sourceUsers (read 0) = .ok source → (p.overlayMap source).record user.name = none →
      Edited p read (.create user) (p.setOverlay user)
  | update {name : String} {patch : UserPatch} {source : List User} {current : User} :
      sourceUsers (read 0) = .ok source → (p.overlayMap source).record name = some current →
      Edited p read (.update name patch)
        { p with
          overlayUsers := p.overlayUsers.insert name (patch.apply current)
          deletedUsers := p.deletedUsers.erase name }
  | delete {name : String} {source source' : List User} {current : User} :
      sourceUsers (read 0) = .ok source → (p.overlayMap source).record name = some current →
      sourceUsers (read 1) = .ok source' →
      Edited p read (.delete name)
        { p with
          overlayUsers := p.overlayUsers.erase name
          deletedUsers := if source'.any (·.name = name) then insert name p.deletedUsers
            else p.deletedUsers.erase name }
  | reload : Edited p read .reload p

/-- What an operation edits is so already. A new user is never there already; a user without a
record of its own can vanish from the file while it is deleted. -/
def Repeats (p : Provider) (read : ℕ → Contents) : Op → Prop
  | .create _ => False
  | .update name patch => ∃ user, p.overlayUsers.lookup name = some user ∧ patch.apply user = user
  | .delete name => p.overlayUsers.lookup name = none ∧
      ∀ source, sourceUsers (read 1) = .ok source → name ∉ source.map User.name
  | .reload => True

section edits

variable {p p' : Provider} {read : ℕ → Contents} {op : Op}

lemma record_eq_lookup {name : String} {source : List User} {user : User}
    (h : p.overlayUsers.lookup name = some user) :
    (p.overlayMap source).record name = some user := by
  rw [OverlayMap.record,show (p.overlayMap source).overlay.lookup name = some user from h]
  rfl

lemma repeats_iff (hp : p.Valid) (h : Edited p read op p') :
    (p'.overlayUsers.toFinmap = p.overlayUsers.toFinmap ∧ p'.deletedUsers = p.deletedUsers) ↔
      Repeats p read op := by
  cases h with
  | reload => exact iff_of_true ⟨rfl,rfl⟩ trivial
  | @create user source hna hre hno =>
    refine iff_of_false (fun ⟨ho,_⟩ => ?_) id
    have hl := congrArg (Finmap.lookup user.name) ho
    rw [Finmap.lookup_toFinmap,Finmap.lookup_toFinmap] at hl
    rw [record_eq_lookup (hl.symm.trans (AList.lookup_insert _))] at hno
    cases hno
  | @update name patch source current hre hr =>
    constructor
    · rintro ⟨ho,-⟩
      have hl := congrArg (Finmap.lookup name) ho
      rw [Finmap.lookup_toFinmap,Finmap.lookup_toFinmap] at hl
      have hs := hl.symm.trans (AList.lookup_insert _)
      have hcu := Option.some.inj ((record_eq_lookup hs).symm.trans hr)
      exact ⟨_,hs,by rw [hcu]; exact hcu⟩
    · rintro ⟨user,hl,hsa⟩
      have hcu := Option.some.inj ((record_eq_lookup hl).symm.trans hr)
      refine ⟨Finmap.ext_lookup fun n => ?_,Finset.erase_eq_of_notMem fun hd => ?_⟩
      · rw [Finmap.lookup_toFinmap,Finmap.lookup_toFinmap]
        by_cases hn : n = name
        · rw [hn,AList.lookup_insert,hl,← hcu,hsa]
        · exact AList.lookup_insert_ne hn
      · have hno := hp.disjoint name hd
        rw [show (p.overlayMap []).overlay.lookup name = some user from hl] at hno
        cases hno
  | @delete name source source' current hre hr hso =>
    have ha : (source'.any (·.name = name) = true) = (name ∈ source'.map User.name) := by simp
    simp only [ha]
    constructor
    · rintro ⟨ho,hd⟩
      have hl := congrArg (Finmap.lookup name) ho
      rw [Finmap.lookup_toFinmap,Finmap.lookup_toFinmap] at hl
      have hno := hl.symm.trans (AList.lookup_erase _ _)
      refine ⟨hno,fun other hot hme => ?_⟩
      rw [hso] at hot
      cases hot
      rw [if_pos hme,Finset.insert_eq_self] at hd
      rw [OverlayMap.record,show (p.overlayMap source).overlay.lookup name = none from hno,
        show (p.overlayMap source).hidden = p.deletedUsers from rfl,if_pos hd] at hr
      cases hr
    · rintro ⟨hno,hg⟩
      rw [if_neg (hg source' hso)]
      refine ⟨Finmap.ext_lookup fun n => ?_,Finset.erase_eq_of_notMem fun hd => ?_⟩
      · rw [Finmap.lookup_toFinmap,Finmap.lookup_toFinmap]
        by_cases hn : n = name
        · rw [hn,AList.lookup_erase,hno]
        · exact AList.lookup_erase_ne hn
      · rw [OverlayMap.record,show (p.overlayMap source).overlay.lookup name = none from hno,
          show (p.overlayMap source).hidden = p.deletedUsers from rfl,if_pos hd] at hr
        cases hr

lemma Edited.allUsers (h : Edited p read op p') : p'.allUsers = p.allUsers := by cases h <;> rfl

lemma step_edited (hp : p.Valid) (env : Env) (op : Op) :
    (∃ err,p.step env op = (.error err,p) ∧ ∀ p',¬ Edited p env.read op p') ∨
    ∃ p',Edited p env.read op p' ∧ (∀ p'',Edited p env.read op p'' → p'' = p') ∧
      p.step env op = p'.loadAndPush env op.lastRead := by
  have hre : ∀ i,(∃ err,sourceUsers (env.read i) = .error err ∧
      p.mergedUsers env i = .error err) ∨ ∃ source,sourceUsers (env.read i) = .ok source ∧
        p.mergedUsers env i = .ok (p.overlayMap source).users := by
    intro i
    cases h : sourceUsers (env.read i) with
    | error err => exact .inl ⟨err,rfl,by rw [Provider.mergedUsers,h]; rfl⟩
    | ok source => exact .inr ⟨source,rfl,mergedUsers_of_read h⟩
  cases op with
  | reload => exact .inr ⟨p,.reload,fun p'' h => by cases h; rfl,rfl⟩
  | create user =>
    simp only [Provider.step,Provider.createUser]
    by_cases hn : user.name = ""
    · exact .inl ⟨_,if_pos hn,fun p' h => by cases h; contradiction⟩
    rw [if_neg hn]
    obtain ⟨err,hs,hme⟩ | ⟨source,hs,hme⟩ := hre 0
    · exact .inl ⟨err,by rw [hme],fun p' h => by cases h; simp_all⟩
    rw [hme]
    dsimp only
    rw [OverlayMap.any_users (hp.overlayMap source)]
    cases hr : (p.overlayMap source).record user.name with
    | some old => exact .inl ⟨_,rfl,fun p' h => by cases h; simp_all⟩
    | none => exact .inr ⟨_,.create hn hs hr,fun p'' h => by cases h; rfl,rfl⟩
  | update name patch =>
    simp only [Provider.step,Provider.updateUser]
    obtain ⟨err,hs,hme⟩ | ⟨source,hs,hme⟩ := hre 0
    · exact .inl ⟨err,by rw [hme],fun p' h => by cases h; simp_all⟩
    rw [hme]
    dsimp only
    rw [OverlayMap.find_users (hp.overlayMap source)]
    cases hr : (p.overlayMap source).record name with
    | none => exact .inl ⟨_,rfl,fun p' h => by cases h; simp_all⟩
    | some current => exact .inr ⟨_,.update hs hr,fun p'' h => by cases h; simp_all,rfl⟩
  | delete name =>
    simp only [Provider.step,Provider.deleteUser]
    obtain ⟨err,hs,hme⟩ | ⟨source,hs,hme⟩ := hre 0
    · exact .inl ⟨err,by rw [hme],fun p' h => by cases h; simp_all⟩
    rw [hme]
    dsimp only
    rw [OverlayMap.any_users (hp.overlayMap source)]
    cases hr : (p.overlayMap source).record name with
    | none => exact .inl ⟨_,rfl,fun p' h => by cases h; simp_all⟩
    | some current =>
      obtain ⟨err,hs',-⟩ | ⟨source',hs',-⟩ := hre 1
      · exact .inl ⟨err,by rw [hs']; rfl,fun p' h => by cases h; simp_all⟩
      · rw [hs']
        exact .inr ⟨_,.delete hs hr hs',fun p'' h => by cases h; simp_all,rfl⟩

end edits

section push

variable {users : List User} {servers : List Server}

lemma pushUsers_accepted :
    (pushUsers users servers).1 = true ↔ ∀ server ∈ servers,server.accepts users = true := by
  induction servers with
  | nil => simp [pushUsers]
  | cons server servers ih =>
    simp only [pushUsers,Bool.and_eq_true,ih,List.forall_mem_cons,Server.replaceUsers]
    split_ifs with h
    · simp [h]
    · simp [h]

lemma pushUsers_users : (pushUsers users servers).2.map Server.users =
    servers.map fun server => if server.accepts users then users else server.users := by
  induction servers with
  | nil => rfl
  | cons server servers ih =>
    simp only [pushUsers,List.map_cons,ih,Server.replaceUsers]
    split_ifs with h
    · rfl
    · rfl

lemma pushUsers_same : (pushUsers users servers).2.map Server.users = servers.map Server.users ↔
    ∀ server ∈ servers,server.accepts users = true → server.users = users := by
  rw [pushUsers_users,List.map_inj_left]
  refine forall₂_congr fun server _ => ?_
  split_ifs with h
  · exact ⟨fun heq _ => heq.symm,fun heq => (heq h).symm⟩
  · exact iff_of_true rfl fun h' => absurd h' h

end push

namespace Service

variable (s : Service) (env : Env) (op : Op)

/-- If the operation comes to its edits: the file can be read again and every inbound accepts the
new list; or the edits are there already, and so is the new list, if it can be loaded, in the
visible users and in the inbounds that accept it. -/
def Settles : Prop :=
  ∀ p, Edited s.provider env.read op p →
    match sourceUsers (env.read op.lastRead) with
    | .error _ => Repeats s.provider env.read op
    | .ok source =>
      let users := (p.overlayMap source).users
      (∀ server ∈ s.servers, server.accepts users = true) ∨
        Repeats s.provider env.read op ∧ users = s.provider.allUsers ∧
          ∀ server ∈ s.servers, server.accepts users = true → server.users = users

lemma call_provider :
    (s.call env op).2.provider = (s.provider.step { env with pushed := true } op).2 := by
  unfold call
  dsimp only
  split <;> rfl

lemma call_error {err : ProviderError} {p : Provider}
    (h : s.provider.step { env with pushed := true } op = (.error err,p)) :
    (s.call env op).1 = .error err ∧ (s.call env op).2.servers = s.servers := by
  simp [call,h]

lemma call_ok {p : Provider} (h : s.provider.step { env with pushed := true } op = (.ok (),p)) :
    (s.call env op).1 = (if (pushUsers p.allUsers s.servers).1 then .ok () else .error .push) ∧
      (s.call env op).2.servers = (pushUsers p.allUsers s.servers).2 := by
  simp [call,h]

/-- Which operations leave everything as it was when they return an error. -/
theorem edit_atomic_iff :
    (∀ err, (s.call env op).1 = .error err → s.Same (s.call env op).2) ↔ s.Settles env op := by
  have hp := s.call_provider env op
  obtain ⟨err,hst,hn⟩ | ⟨p,he,hu,hst⟩ := step_edited s.valid { env with pushed := true } op
  · rw [hst] at hp
    obtain ⟨-,hs⟩ := s.call_error env op hst
    refine iff_of_true (fun _ _ => ⟨?_,?_,?_,by rw [hs]⟩) fun p h => absurd h (hn p)
    all_goals rw [hp]
  have hse : s.Settles env op ↔ _ := ⟨fun h => h p he,fun h p' hp' => hu p' hp' ▸ h⟩
  have hed := repeats_iff s.valid he
  rw [hse]
  cases hre : sourceUsers (env.read op.lastRead) with
  | error err =>
    have hl : p.loadAndPush { env with pushed := true } op.lastRead = (.error err,p) := by
      rw [Provider.loadAndPush,Provider.mergedUsers,hre]
      rfl
    rw [hst,hl] at hp
    obtain ⟨hr,hs⟩ := s.call_error env op (hst.trans hl)
    dsimp only
    rw [← hed]
    constructor
    · intro h
      obtain ⟨ho,hd,-,-⟩ := h err hr
      rw [hp] at ho hd
      exact ⟨ho,hd⟩
    · rintro ⟨ho,hd⟩ _ -
      refine ⟨?_,?_,?_,by rw [hs]⟩
      all_goals rw [hp]
      · exact ho
      · exact hd
      · exact he.allUsers
  | ok source =>
    have hl : p.loadAndPush { env with pushed := true } op.lastRead =
        (.ok (),{ p with allUsers := (p.overlayMap source).users }) := by
      have hme : p.mergedUsers { env with pushed := true } op.lastRead = _ :=
        mergedUsers_of_read hre
      rw [Provider.loadAndPush,hme]
      rfl
    rw [hst,hl] at hp
    obtain ⟨hr,hs⟩ := s.call_ok env op (hst.trans hl)
    dsimp only at hr hs ⊢
    rw [← pushUsers_accepted,← pushUsers_same,← hed,hr]
    by_cases ha : (pushUsers (p.overlayMap source).users s.servers).1 = true
    · rw [if_pos ha]
      exact iff_of_true (by simp) (.inl ha)
    rw [if_neg ha]
    constructor
    · intro h
      obtain ⟨ho,hd,hv,hsa⟩ := h .push rfl
      rw [hp] at ho hd hv
      rw [hs] at hsa
      exact .inr ⟨⟨ho,hd⟩,hv,hsa⟩
    · rintro (h | ⟨⟨ho,hd⟩,hv,hsa⟩) _ -
      · exact absurd h ha
      · refine ⟨?_,?_,?_,by rw [hs,hsa]⟩
        all_goals rw [hp]
        · exact ho
        · exact hd
        · exact hv

/-- One inbound that takes any list and one that takes no password twice, as Trojan does. -/
def sharedPassword : Service where
  provider := Provider.new
  valid := ⟨nofun,nofun⟩
  servers := [⟨fun _ => true,[aliceUser "secret"]⟩,
    ⟨fun users => (users.map User.password).Nodup,[aliceUser "secret"]⟩]

/-- A user is created whose password the second inbound refuses. The call fails, the user is
visible, and the inbounds have different users. -/
theorem refused_user_stays : let bob : User := ⟨"bob","secret","",0,""⟩
    let after := sharedPassword.call (steadyEnv [aliceUser "secret"]) (.create bob)
    after.1 = .error .push ∧ after.2.provider.overlayUsers.lookup "bob" = some bob ∧
      after.2.provider.getUser "bob" = some bob ∧
      after.2.servers.map Server.users = [[aliceUser "secret",bob],[aliceUser "secret"]] ∧
      ¬ sharedPassword.Same after.2 := by
  intro bob after
  have hs : after.2.servers.map Server.users =
      [[aliceUser "secret",bob],[aliceUser "secret"]] := by decide +kernel
  refine ⟨by decide +kernel,by decide +kernel,by decide +kernel,hs,fun h => ?_⟩
  have hsa := h.servers
  rw [hs] at hsa
  exact absurd hsa (by decide)

end Service

end SingBoxAuth.UserProvider
