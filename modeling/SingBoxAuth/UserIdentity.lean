import SingBoxAuth.ManagedUsers

/-! Whose name a connection is given while the user list is replaced under it. -/
namespace SingBoxAuth.ManagedUsers
open Interleaving

/-- An authenticated connection that has not been closed: the credential it showed, the
index it was given and the user who stood there in the list of that time. -/
structure Session (Credential : Type) where
  thread : ℕ
  credential : Credential
  index : ℕ
  user : User
deriving DecidableEq

variable {Credential : Type}

abbrev Past (Credential : Type) : Type := List (Event (Act Credential) Act.Res)

def listed (users : List User) : Past Credential → List User
  | [] => users
  | ⟨_,.storeTable users',_⟩ :: _ => users'
  | _ :: h => listed users h

def sessionsAfter (list : List User) :
    Event (Act Credential) Act.Res → List (Session Credential) → List (Session Credential)
  | ⟨t,.authenticate c,some i⟩, open_ =>
    match list[i]? with
    | some user => ⟨t,c,i,user⟩ :: open_
    | none => open_
  | ⟨t,.close,_⟩, open_ => open_.filter fun s => s.thread ≠ t
  | _, open_ => open_

def sessions (users : List User) : Past Credential → List (Session Credential)
  | [] => []
  | e :: h => sessionsAfter (listed users h) e (sessions users h)

variable {S : IndexServer Credential} {users : List User}

abbrev Instant (S : IndexServer Credential) : Type := Moment (Act Credential) Act.Res (World S)

def Holding (users : List User) (t index : ℕ) (m : Instant S) : Prop :=
  ∃ s ∈ sessions users m.history, s.thread = t ∧ s.index = index

lemma holding_after {t t' i : ℕ} {m : Instant S} {a : Act Credential} {r : a.Res} {w : World S}
    (h : Holding users t i m) (ha : t' ≠ t ∨ a ≠ .close) :
    Holding users t i (m.after t' a r w) := by
  obtain ⟨s,hs,rfl,rfl⟩ := h
  refine ⟨s,?_,rfl,rfl⟩
  simp only [Moment.after_history,sessions]
  unfold sessionsAfter
  split
  · split
    · exact List.mem_cons_of_mem _ hs
    · exact hs
  · next heq =>
    cases heq
    obtain ht | hcl := ha
    · exact List.mem_filter.mpr ⟨hs,decide_eq_true ht.symm⟩
    · exact absurd rfl hcl
  · exact hs

/-- The table is the one built from the listed users, and a hand-over belongs to an
open session of its thread. -/
def inboundContract (S : IndexServer Credential) (users : List User) :
    Contract (Act Credential) Act.Res (World S) where
  exec := (outcomes S).exec
  inv m := S.build (listed users m.history) = .ok m.state.table
  pre t a m := ∀ i, a = .handOver i → Holding users t i m
  keeps := by
    intro t a m r w hinv _ he
    cases a with
    | storeTable users' =>
      simp only [Outcomes.exec,outcomes] at he
      split at he
      · next table htable =>
        rw [List.mem_singleton,Prod.mk.injEq] at he
        obtain ⟨-,rfl⟩ := he
        exact htable
      · cases he
    | panic => exact r.elim
    | _ =>
      obtain ⟨-,rfl⟩ := Outcomes.exec_one he rfl
      exact hinv

lemma stable_holding (t i : ℕ) : (inboundContract S users).Stable t (Holding users t i) :=
  Contract.stable_of_step fun _ _ _ _ _ hu _ _ _ h => holding_after h (.inl hu)

lemma handOvers_triple (t index n : ℕ) : (inboundContract S users).Triple t
    (Holding users t index) (handOvers index n) fun _ => Holding users t index := by
  induction n with
  | zero => exact .ret fun _ _ h => h
  | succ n ih =>
    refine .act (R := fun _ => Holding users t index) (stable_holding t index) (fun m _ hm => ?_)
      fun r => ?_
    · refine ⟨fun i hi => ?_,fun r w _ _ => holding_after hm (.inr nofun)⟩
      cases hi
      exact hm
    · cases r with
      | none =>
        refine .act (R := fun r => r.elim) (stable_holding t index) (fun m _ hm => ?_) nofun
        exact ⟨nofun,fun r => r.elim⟩
      | some name => exact ih

lemma connection_triple (t : ℕ) (c : Credential) (n : ℕ) :
    (inboundContract S users).Triple t (fun _ => True) (connection c n) fun _ _ => True := by
  refine .bind (R := fun (r : Option ℕ) m => ∀ i,r = some i → Holding users t i m)
    (.perform (Contract.Stable.const _) fun m hi _ => ⟨nofun,fun r w he _ i hr => ?_⟩)
    fun r => ?_
  · simp only [inboundContract,Outcomes.exec,outcomes,List.mem_singleton,Prod.mk.injEq] at he
    subst hr
    obtain ⟨user,hu,-⟩ := S.owned hi he.1.symm
    exact ⟨⟨t,c,i,user⟩,by simp [sessions,sessionsAfter,hu],rfl,rfl⟩
  · cases r with
    | none => exact .ret fun _ _ _ => trivial
    | some index =>
      refine .bind ((handOvers_triple t index n).weaken fun _ _ h => h index rfl) fun _ => ?_
      exact .act (R := fun _ _ => True) (stable_holding t index)
        (fun _ _ _ => ⟨nofun,fun _ _ _ _ => trivial⟩) fun _ => .ret fun _ _ _ => trivial

lemma replaceUsers_triple (t : ℕ) (users' : List User) :
    (inboundContract S users).Triple t (fun _ => True)
      (do let _ ← replaceUsers S users' : Op Credential Unit) fun _ _ => True := by
  refine .bind (R := fun _ _ => True) ?_ fun _ => .ret fun _ _ _ => trivial
  unfold replaceUsers
  split
  · exact .ret fun _ _ _ => trivial
  · refine .act (R := fun _ _ => True) (Contract.Stable.const _)
      (fun _ _ _ => ⟨nofun,fun _ _ _ _ => trivial⟩) fun _ => ?_
    exact .act (R := fun _ _ => True) (Contract.Stable.const _)
      (fun _ _ _ => ⟨nofun,fun _ _ _ _ => trivial⟩) fun _ => .ret fun _ _ _ => trivial

lemma inbound_safe (t : ℕ) (m : Instant S) (p : Op Credential Unit) (hp : inboundOps S t m p)
    (hi : (inboundContract S users).inv m) :
    (inboundContract S users).Safe t (fun _ _ => True) p m := by
  obtain ⟨-,users',rfl⟩ | ⟨-,c,n,rfl⟩ := hp
  · exact replaceUsers_triple t users' m hi trivial
  · exact connection_triple t c n m hi trivial

/-- A credential is only accepted while the names agree with it at the index found, and
a new list of names leaves those of the open sessions where they are. -/
def namesKept (S : IndexServer Credential) (users : List User) :
    ℕ → Act Credential → Instant S → Bool
  | _, .authenticate c, m => (S.find m.state.table c).all fun i =>
    m.state.names[i]? = (listed users m.history)[i]?.map User.name
  | _, .storeNames names, m => (sessions users m.history).all fun s =>
    names[s.index]? = m.state.names[s.index]?
  | _, _, _ => true

/-- Every open session stands under the name of the user that authenticated it. -/
def Identified (users : List User) (m : Instant S) : Prop :=
  ∀ s ∈ sessions users m.history, S.credential s.user = some s.credential ∧
    m.state.names[s.index]? = some s.user.name

theorem Identified.step {t : ℕ} {a : Act Credential} {m : Instant S} {r : a.Res} {w : World S}
    (h : Identified users m) (hi : (inboundContract S users).inv m)
    (hg : namesKept S users t a m = true) (he : (outcomes S).exec t a m.state r w) :
    Identified users (m.after t a r w) := by
  cases a with
  | storeTable users' =>
    simp only [Outcomes.exec,outcomes] at he
    split at he
    · rw [List.mem_singleton,Prod.mk.injEq] at he
      obtain ⟨-,rfl⟩ := he
      exact h
    · cases he
  | storeNames names =>
    obtain ⟨-,rfl⟩ := Outcomes.exec_one he rfl
    intro s hs
    have hk := of_decide_eq_true (List.all_eq_true.mp hg s hs)
    exact ⟨(h s hs).1,hk.trans (h s hs).2⟩
  | authenticate c =>
    obtain ⟨rfl,rfl⟩ := Outcomes.exec_one he rfl
    intro s hs
    simp only [Moment.after_history,sessions] at hs
    cases hf : S.find m.state.table c with
    | none =>
      rw [hf] at hs
      exact h s hs
    | some i =>
      obtain ⟨user,hu,hcr⟩ := S.owned hi hf
      have hn : m.state.names[i]? = some user.name := by simpa [namesKept,hf,hu] using hg
      rw [hf] at hs
      simp only [sessionsAfter,hu] at hs
      obtain rfl | hs := List.mem_cons.mp hs
      · exact ⟨hcr,hn⟩
      · exact h s hs
  | handOver i =>
    obtain ⟨-,rfl⟩ := Outcomes.exec_one he rfl
    exact h
  | close =>
    obtain ⟨-,rfl⟩ := Outcomes.exec_one he rfl
    exact fun s hs => h s (List.mem_of_mem_filter hs)
  | panic => exact r.elim

/-- In every run in which replacements keep the names of open sessions in place, each
hand-over is given the name of the user whose credential authenticated it. -/
theorem identity_kept {table : S.Table} (hbuild : S.build users = .ok table)
    {c : Config (Act Credential) Act.Res (World S)}
    (run : ReachWhen (fun t a m => namesKept S users t a m = true) (outcomes S).exec (inboundOps S)
      (Config.idle ⟨table,users.map User.name⟩) c) {t index : ℕ} (hat : c.At t (.handOver index)) :
    ∃ s ∈ sessions users c.moment.history, s.thread = t ∧ s.index = index ∧
      S.credential s.user = some s.credential ∧
      c.moment.state.handOver index = some (metadataUser s.user.name) := by
  obtain ⟨hin,hsa⟩ := Contract.sound_idle (C := inboundContract S users)
    (fun _ => Contract.Stable.const True) (fun t m p hp hi _ => inbound_safe t m p hp hi)
    (ReachWhen.reach run) hbuild fun _ => trivial
  have hid : Identified users c.moment :=
    Contract.sound_also (C := inboundContract S users) (fun _ => Contract.Stable.const True)
      (fun t m p hp hi _ => inbound_safe t m p hp hi) (fun _ _ _ _ _ h => h)
      (fun _ _ p _ => Prog.uses_true p) (fun _ _ _ _ _ hi _ _ hg he h => h.step hi hg he) run
      hbuild (fun _ => trivial) (fun _ => trivial) nofun
  obtain ⟨next,hn⟩ := hat
  have hs := hsa t
  rw [hn] at hs
  obtain ⟨s,hme,ht,hix⟩ := hs.pre hin index rfl
  refine ⟨s,hme,ht,hix,(hid s hme).1,?_⟩
  simp [World.handOver,← hix,(hid s hme).2]

section runs

def alice : User := ⟨"alice","swordfish",""⟩

def bob : User := ⟨"bob","opensesame",""⟩

abbrev plainTrojan : IndexServer String := trojanServer id

def plainTable : plainTrojan.Table :=
  (((∅ : AList fun _ : ℕ => String).insert 0 "swordfish").insert 1 "opensesame",
    ((∅ : AList fun _ : String => ℕ).insert "swordfish" 0).insert "opensesame" 1)

lemma plainTable_built : plainTrojan.build [alice,bob] = .ok plainTable := rfl

def plainStart : Config (Act String) Act.Res (World plainTrojan) :=
  Config.idle ⟨plainTable,[alice,bob].map User.name⟩

/-- Bob authenticates, then the list is replaced, then bob's request is handed over. -/
def replaceMoves (users : List User) : List (Move (Act String) Act.Res) :=
  launch 1 (connection "opensesame" 1) 1 ++
    launch 0 (do let _ ← replaceUsers plainTrojan users) 2

lemma replaceMoves_startable (users : List User) :
    Startable (inboundOps plainTrojan) (replaceMoves users) :=
  (startable_launch (fun _ => .inr ⟨by decide,_,_,rfl⟩) 1).append
    (startable_launch (fun _ => .inl ⟨rfl,_,rfl⟩) 2)

/-- After a reorder bob's request is handed over as alice's; after a removal the index
is out of range. -/
theorem identity_lost :
    (∃ c, Reach (outcomes plainTrojan).exec (inboundOps plainTrojan) plainStart c ∧
      c.At 1 (.handOver 1) ∧
      sessions [alice,bob] c.moment.history = [⟨1,"opensesame",1,bob⟩] ∧
      c.moment.state.handOver 1 = some (some "alice")) ∧
    ∃ c, Reach (outcomes plainTrojan).exec (inboundOps plainTrojan) plainStart c ∧
      c.At 1 (.handOver 1) ∧ c.moment.state.handOver 1 = none := by
  have hr : (play (outcomes plainTrojan) (replaceMoves [bob,alice]) plainStart).map (fun c =>
      (c.next 1 (fun a => a = .handOver 1),sessions [alice,bob] c.moment.history,
        c.moment.state.handOver 1)) =
      some (true,[⟨1,"opensesame",1,bob⟩],some (some "alice")) := by
    decide +kernel
  have hre : (play (outcomes plainTrojan) (replaceMoves [bob]) plainStart).map (fun c =>
      (c.next 1 (fun a => a = .handOver 1),c.moment.state.handOver 1)) = some (true,none) := by
    decide +kernel
  obtain ⟨c,run,hc,-⟩ := exists_of_play hr ((replaceMoves_startable _).legal _)
  obtain ⟨d,run',hd,-⟩ := exists_of_play hre ((replaceMoves_startable _).legal _)
  simp only [Prod.mk.injEq] at hc hd
  exact ⟨⟨c,run,Config.at_of_next hc.1,hc.2⟩,d,run',Config.at_of_next hd.1,hd.2⟩

/-- A user appended at the end leaves bob's session where it is. -/
theorem identity_kept_bob : ∃ c, ReachWhen
    (fun t a m => namesKept plainTrojan [alice,bob] t a m = true) (outcomes plainTrojan).exec
    (inboundOps plainTrojan) (Config.idle ⟨plainTable,[alice,bob].map User.name⟩) c ∧
    c.At 1 (.handOver 1) ∧ ∃ s ∈ sessions [alice,bob] c.moment.history, s.thread = 1 ∧
      s.index = 1 ∧ plainTrojan.credential s.user = some s.credential ∧
      c.moment.state.handOver 1 = some (metadataUser s.user.name) := by
  have hp : (play (outcomes plainTrojan) (replaceMoves [alice,bob,⟨"carol","",""⟩])
      plainStart).map (fun c => c.next 1 (fun a => a = .handOver 1)) = some true := by
    decide +kernel
  have hg : meetsAll (outcomes plainTrojan) (namesKept plainTrojan [alice,bob])
      (replaceMoves [alice,bob,⟨"carol","",""⟩]) plainStart = true := by
    decide +kernel
  obtain ⟨c,hc,hn⟩ := Option.map_eq_some_iff.mp hp
  have run := reachWhen_of_play hc ((replaceMoves_startable _).legal _) hg
  have hat : c.At 1 (.handOver 1) := Config.at_of_next hn
  exact ⟨c,run,hat,identity_kept plainTable_built run hat⟩

end runs

end SingBoxAuth.ManagedUsers
