import SingBoxAuth.Transitions

/-! The client bind of WireGuard: calls that connect, fail, close and open at the same time, step by
step, and the sockets that are open between the steps. -/
namespace SingBoxAuth.WireGuardBind
open Transitions

/-- Where a call stands. Closing a socket is called by the user of the connection or, with true, by
Close. -/
inductive PC
  | idle
  | loaded (serverConn : Option ℕ)
  | waiting
  | locked
  | checked
  | dialing
  | returned (i : ℕ)
  | closing (i : ℕ) (fromClose : Bool)
  | holding (i : ℕ) (fromClose : Bool)
  | socketClosed (i : ℕ) (fromClose : Bool)
  | closeBegun
  | doneClosed
  | closeLocked
  | closeEnding
  | openBegun
  | openReplacing
  deriving DecidableEq

inductive Action
  | connect
  | close
  | open_
  /-- The next step of the call; a dial succeeds, or a connection is used without a failure, if so. -/
  | next (ok : Bool)
  deriving DecidableEq

structure Bind (T : Type) where
  pc : T → PC
  connAccess : Option T
  conn : Option ℕ
  /-- The current done channel is closed. -/
  done : Bool
  created : ℕ
  isOpen : ℕ → Bool
  wireDone : ℕ → Bool
  access : ℕ → Option T
  /-- A Close has returned and no Open was called since. -/
  quiet : Bool

variable {T : Type} [DecidableEq T]

namespace Bind

def new : Bind T := ⟨fun _ => .idle,none,none,false,0,fun _ => false,fun _ => false,
  fun _ => none,false⟩

def go (s : Bind T) (t : T) (pc : PC) : Bind T := { s with pc := Function.update s.pc t pc }

def lock (s : Bind T) (t : T) (pc : PC) : Option (Bind T) :=
  if s.connAccess = none then some { s.go t pc with connAccess := some t } else none

def unlock (s : Bind T) (t : T) (pc : PC) : Bind T := { s.go t pc with connAccess := none }

/-- Where the caller of wireConn.Close goes on. -/
def afterClose (fromClose : Bool) : PC := if fromClose then .closeEnding else .idle

def perform (s : Bind T) (event : T × Action) : Option (Bind T) :=
  let t := event.1
  match s.pc t, event.2 with
  | .idle, .connect => some (s.go t (.loaded s.conn))
  | .idle, .close => some (s.go t .closeBegun)
  | .idle, .open_ => some { s.go t .openBegun with quiet := false }
  | .loaded none, .next _ => some (s.go t .waiting)
  | .loaded (some i), .next _ => some (s.go t (if s.wireDone i then .waiting else .returned i))
  | .waiting, .next _ => s.lock t .locked
  | .locked, .next _ => some (if s.done then s.unlock t .idle else s.go t .checked)
  | .checked, .next _ =>
    match s.conn with
    | none => some (s.go t .dialing)
    | some i => some (if s.wireDone i then s.go t .dialing else s.unlock t (.returned i))
  | .dialing, .next ok =>
    if ok then
      some { s.unlock t (.returned s.created) with
        conn := some s.created
        created := s.created + 1
        isOpen := Function.update s.isOpen s.created true }
    else some (s.unlock t .idle)
  | .returned i, .next ok => some (s.go t (if ok then .idle else .closing i false))
  | .closing i b, .next _ =>
    if s.access i = none then
      some { s.go t (.holding i b) with access := Function.update s.access i (some t) }
    else none
  | .holding i b, .next _ =>
    if s.wireDone i then
      some { s.go t (afterClose b) with access := Function.update s.access i none }
    else
      some { s.go t (.socketClosed i b) with isOpen := Function.update s.isOpen i false }
  | .socketClosed i b, .next _ =>
    some { s.go t (afterClose b) with
      wireDone := Function.update s.wireDone i true
      access := Function.update s.access i none }
  | .closeBegun, .next _ => some { s.go t .doneClosed with done := true }
  | .doneClosed, .next _ => s.lock t .closeLocked
  | .closeLocked, .next _ =>
    match s.conn with
    | none => some (s.go t .closeEnding)
    | some i => some (s.go t (.closing i true))
  | .closeEnding, .next _ => some { s.unlock t .idle with quiet := true }
  | .openBegun, .next _ => some (s.go t (if s.done then .openReplacing else .idle))
  | .openReplacing, .next _ => some { s.go t .idle with done := false }
  | _, _ => none

end Bind

def PC.hasLock : PC → Bool
  | .locked | .checked | .dialing | .closeLocked | .closeEnding => true
  | .closing _ b | .holding _ b | .socketClosed _ b => b
  | _ => false

def PC.socket : PC → Option ℕ
  | .loaded i => i
  | .returned i | .closing i _ | .holding i _ | .socketClosed i _ => some i
  | _ => none

def PC.target : PC → Option ℕ
  | .closing i true | .holding i true | .socketClosed i true => some i
  | _ => none

structure Inv (s : Bind T) : Prop where
  owner : ∀ t, (s.pc t).hasLock = true → s.connAccess = some t
  known : ∀ t i, (s.pc t).socket = some i → i < s.created
  stored : ∀ i, s.conn = some i → i < s.created
  finished : ∀ i, s.wireDone i = true → i < s.created ∧ s.isOpen i = false
  live : ∀ i, s.isOpen i = true → s.conn = some i
  shut : ∀ t i b, s.pc t = .socketClosed i b → s.isOpen i = false
  dial : ∀ t, s.pc t = .dialing → ∀ i, s.isOpen i = false
  target : ∀ t i, (s.pc t).target = some i → s.conn = some i
  ended : ∀ t, s.pc t = .closeEnding → ∀ i, s.isOpen i = false

section invariant

variable {s s' : Bind T} {t : T} {p : PC}

/-- A step that leaves the sockets alone: what is to be shown is about the place it leads to. -/
lemma Inv.move (h : Inv s) (hpc : s'.pc = Function.update s.pc t p)
    (hc : s'.conn = s.conn) (hn : s'.created = s.created) (ho : s'.isOpen = s.isOpen)
    (hw : s'.wireDone = s.wireDone)
    (hl : s'.connAccess = s.connAccess ∨ s.connAccess = none ∨ s.connAccess = some t)
    (h1 : p.hasLock = true → s'.connAccess = some t) (h2 : ∀ i,p.socket = some i → i < s.created)
    (h3 : ∀ i b,p = .socketClosed i b → s.isOpen i = false)
    (h4 : p = .dialing → ∀ i,s.isOpen i = false)
    (h5 : ∀ i,p.target = some i → s.conn = some i)
    (h6 : p = .closeEnding → ∀ i,s.isOpen i = false) : Inv s' := by
  refine ⟨owner_place h.owner hpc hl h1,?_,?_,?_,?_,?_,?_,?_,?_⟩
  · rw [hn]
    exact forall_place (f := fun _ (q : PC) => ∀ i,q.socket = some i → i < s.created) hpc h2
      fun u _ => h.known u
  · rw [hc,hn]
    exact h.stored
  · rw [hw,hn,ho]
    exact h.finished
  · rw [ho,hc]
    exact h.live
  · rw [ho]
    exact forall_place (f := fun _ (q : PC) => ∀ i b,q = .socketClosed i b → s.isOpen i = false) hpc
      h3 fun u _ => h.shut u
  · rw [ho]
    exact forall_place (f := fun _ (q : PC) => q = .dialing → ∀ i,s.isOpen i = false) hpc h4
      fun u _ => h.dial u
  · rw [hc]
    exact forall_place (f := fun _ (q : PC) => ∀ i,q.target = some i → s.conn = some i) hpc h5
      fun u _ => h.target u
  · rw [ho]
    exact forall_place (f := fun _ (q : PC) => q = .closeEnding → ∀ i,s.isOpen i = false) hpc h6
      fun u _ => h.ended u

lemma Inv.go (h : Inv s) (h1 : p.hasLock = true → s.connAccess = some t)
    (h2 : ∀ i,p.socket = some i → i < s.created)
    (h3 : ∀ i b,p = .socketClosed i b → s.isOpen i = false)
    (h4 : p = .dialing → ∀ i,s.isOpen i = false)
    (h5 : ∀ i,p.target = some i → s.conn = some i)
    (h6 : p = .closeEnding → ∀ i,s.isOpen i = false) : Inv (s.go t p) :=
  h.move rfl rfl rfl rfl rfl (.inl rfl) h1 h2 h3 h4 h5 h6

lemma Inv.unlock (h : Inv s) (hl : (s.pc t).hasLock = true)
    (hp : p = .idle ∨ ∃ i,p = .returned i ∧ i < s.created) : Inv (s.unlock t p) := by
  refine h.move rfl rfl rfl rfl rfl (.inr (.inr (h.owner t hl))) ?_ ?_ ?_ ?_ ?_ ?_
  all_goals obtain rfl | ⟨i,rfl,hi⟩ := hp
  all_goals simp_all [PC.hasLock,PC.socket,PC.target]

lemma Inv.lock (h : Inv s) (hs : s.lock t p = some s') (h2 : p = .locked ∨ p = .closeLocked) :
    Inv s' := by
  unfold Bind.lock at hs
  split_ifs at hs with hl
  cases hs
  refine h.move rfl rfl rfl rfl rfl (.inr (.inl hl)) (fun _ => rfl) ?_ ?_ ?_ ?_ ?_
  all_goals obtain rfl | rfl := h2
  all_goals simp [PC.socket,PC.target]

omit [DecidableEq T] in
lemma Inv.none_open (h : Inv s) (hc : ∀ i,s.conn = some i → s.wireDone i = true) (i : ℕ) :
    s.isOpen i = false := by
  by_contra ho
  rw [Bool.not_eq_false] at ho
  have hf := (h.finished i (hc i (h.live i ho))).2
  rw [ho] at hf
  cases hf

lemma Inv.afterClose {b : Bool} (h : Inv s) (ho : b = true → s.connAccess = some t)
    (hf : b = true → ∀ i,s.isOpen i = false)
    (hpc : s'.pc = Function.update s.pc t (Bind.afterClose b)) (hc : s'.conn = s.conn)
    (hn : s'.created = s.created) (hop : s'.isOpen = s.isOpen) (hw : s'.wireDone = s.wireDone)
    (hl : s'.connAccess = s.connAccess) : Inv s' := by
  refine h.move hpc hc hn hop hw (.inl hl) ?_ ?_ ?_ ?_ ?_ ?_
  all_goals cases b
  all_goals simp_all [Bind.afterClose,PC.hasLock,PC.socket,PC.target]

omit [DecidableEq T] in
lemma Inv.closeSocket (h : Inv s) (i : ℕ) :
    Inv { s with isOpen := Function.update s.isOpen i false } := by
  have hu (j : ℕ) (hj : Function.update s.isOpen i false j = true) : s.isOpen j = true := by
    rw [Function.update_apply] at hj
    split_ifs at hj
    exact hj
  have hf (j : ℕ) (hj : s.isOpen j = false) : Function.update s.isOpen i false j = false := by
    rw [Function.update_apply,hj,ite_self]
  exact ⟨h.owner,h.known,h.stored,fun j hj => ⟨(h.finished j hj).1,hf j (h.finished j hj).2⟩,
    fun j hj => h.live j (hu j hj),fun u j b hp => hf j (h.shut u j b hp),
    fun u hp j => hf j (h.dial u hp j),h.target,fun u hp j => hf j (h.ended u hp j)⟩

omit [DecidableEq T] in
lemma Inv.finish (h : Inv s) {i : ℕ} (hi : i < s.created) (ho : s.isOpen i = false) :
    Inv { s with wireDone := Function.update s.wireDone i true } := by
  refine ⟨h.owner,h.known,h.stored,fun j hj => ?_,h.live,h.shut,h.dial,h.target,h.ended⟩
  dsimp only at hj
  rw [Function.update_apply] at hj
  split_ifs at hj with he
  · rw [he]
    exact ⟨hi,ho⟩
  · exact h.finished j hj

lemma PC.hasLock_of_target {p : PC} {i : ℕ} (h : p.target = some i) : p.hasLock = true := by
  unfold PC.target at h
  split at h
  · rfl
  · rfl
  · rfl
  · cases h

lemma Inv.created (h : Inv s) (hp : s.pc t = .dialing) : Inv { s.unlock t (.returned s.created) with
      conn := some s.created
      created := s.created + 1
      isOpen := Function.update s.isOpen s.created true } := by
  have hl := h.owner t (by rw [hp]; rfl)
  have hd := h.dial t hp
  have hlock (u : T) (hu : u ≠ t) (hh : (s.pc u).hasLock = true) : False :=
    hu (owner_unique h.owner (by rw [hp]; rfl) hh)
  have hop (j : ℕ) : Function.update s.isOpen s.created true j = decide (j = s.created) := by
    rw [Function.update_apply,hd j]
    by_cases hj : j = s.created <;> simp [hj]
  refine ⟨owner_place h.owner rfl (.inr (.inr hl)) nofun,?_,fun i hi => ?_,fun i hi => ?_,
    fun i hi => ?_,?_,?_,?_,?_⟩
  · refine forall_place (f := fun _ (q : PC) => ∀ i,q.socket = some i → i < s.created + 1) rfl ?_ ?_
    · intro i hi
      cases hi
      exact Nat.lt_succ_self _
    · exact fun u _ i hi => (h.known u i hi).trans (Nat.lt_succ_self _)
  · cases hi
    exact Nat.lt_succ_self _
  · obtain ⟨h1,-⟩ := h.finished i hi
    refine ⟨h1.trans (Nat.lt_succ_self _),(hop i).trans ?_⟩
    simpa using h1.ne
  · have hi := (hop i).symm.trans hi
    rw [decide_eq_true_iff] at hi
    rw [hi]
  · refine forall_place (f := fun _ (q : PC) => ∀ i b,q = .socketClosed i b →
      Function.update s.isOpen s.created true i = false) rfl nofun fun u _ i b hi => ?_
    have hk := h.known u i (by rw [hi]; rfl)
    exact (hop i).trans (by simpa using hk.ne)
  · refine forall_place (f := fun _ (q : PC) => q = .dialing → _) rfl nofun fun u hu hi => ?_
    exact (hlock u hu (by rw [hi]; rfl)).elim
  · refine forall_place (f := fun _ (q : PC) => ∀ i,q.target = some i → some s.created = some i)
      rfl nofun fun u hu i hi => ?_
    exact (hlock u hu (PC.hasLock_of_target hi)).elim
  · refine forall_place (f := fun _ (q : PC) => q = .closeEnding → _) rfl nofun fun u hu hi => ?_
    exact (hlock u hu (by rw [hi]; rfl)).elim

lemma Inv.perform {event : T × Action} (h : Inv s) (hp : s.perform event = some s') : Inv s' := by
  obtain ⟨t,a⟩ := event
  have ho := h.owner t
  have hk := h.known t
  have hg := h.target t
  unfold Bind.perform at hp
  dsimp only at hp
  split at hp
  all_goals rename_i hpc
  all_goals try rw [hpc] at ho hk hg
  · cases hp
    exact h.go nofun h.stored nofun nofun nofun nofun
  · cases hp
    exact h.go nofun nofun nofun nofun nofun nofun
  · cases hp
    exact h.move rfl rfl rfl rfl rfl (.inl rfl) nofun nofun nofun nofun nofun nofun
  · cases hp
    exact h.go nofun nofun nofun nofun nofun nofun
  · cases hp
    split
    · exact h.go nofun nofun nofun nofun nofun nofun
    · exact h.go nofun hk nofun nofun nofun nofun
  · exact h.lock hp (.inl rfl)
  · cases hp
    split
    · exact h.unlock (by rw [hpc]; rfl) (.inl rfl)
    · exact h.go (fun _ => ho rfl) nofun nofun nofun nofun nofun
  · split at hp
    · rename_i hc
      cases hp
      refine h.go (fun _ => ho rfl) nofun nofun (fun _ => h.none_open fun i hi => ?_) nofun nofun
      rw [hc] at hi
      cases hi
    · rename_i i hc
      cases hp
      split
      · rename_i hw
        refine h.go (fun _ => ho rfl) nofun nofun (fun _ => h.none_open fun j hj => ?_) nofun nofun
        rw [hc] at hj
        cases hj
        exact hw
      · exact h.unlock (by rw [hpc]; rfl) (.inr ⟨i,rfl,h.stored i hc⟩)
  · split_ifs at hp
    · cases hp
      exact h.created hpc
    · cases hp
      exact h.unlock (by rw [hpc]; rfl) (.inl rfl)
  · cases hp
    split
    · exact h.go nofun nofun nofun nofun nofun nofun
    · exact h.go nofun hk nofun nofun nofun nofun
  · rename_i i b _
    split_ifs at hp
    cases hp
    refine h.move rfl rfl rfl rfl rfl (.inl rfl) ho hk nofun nofun ?_ nofun
    cases b
    · nofun
    · exact hg
  · rename_i i b _
    split_ifs at hp with hw
    · cases hp
      refine h.afterClose ho ?_ rfl rfl rfl rfl rfl rfl
      rintro rfl
      exact h.none_open fun j hj => by
        rw [hg i rfl] at hj
        cases hj
        exact hw
    · cases hp
      refine (h.closeSocket i).move rfl rfl rfl rfl rfl (.inl rfl) ho hk ?_ nofun ?_ nofun
      · intro j b he
        cases he
        exact Function.update_self ..
      · cases b
        · nofun
        · exact hg
  · rename_i i b _
    cases hp
    have hf := h.finish (hk i rfl) (h.shut t i b hpc)
    refine hf.afterClose ho ?_ rfl rfl rfl rfl rfl rfl
    rintro rfl
    exact hf.none_open fun j hj => by
      dsimp only at hj ⊢
      rw [hg i rfl] at hj
      cases hj
      exact Function.update_self ..
  · cases hp
    exact h.move rfl rfl rfl rfl rfl (.inl rfl) nofun nofun nofun nofun nofun nofun
  · exact h.lock hp (.inr rfl)
  · split at hp
    · rename_i hc
      cases hp
      refine h.go (fun _ => ho rfl) nofun nofun nofun nofun fun _ => h.none_open fun i hi => ?_
      rw [hc] at hi
      cases hi
    · rename_i i hc
      cases hp
      refine h.go (fun _ => ho rfl) (fun j hj => ?_) nofun nofun (fun j hj => ?_) nofun
      · cases hj
        exact h.stored _ hc
      · cases hj
        exact hc
  · cases hp
    exact h.move rfl rfl rfl rfl rfl (.inr (.inr (ho rfl))) nofun nofun nofun nofun nofun nofun
  · cases hp
    split <;> exact h.go nofun nofun nofun nofun nofun nofun
  · cases hp
    exact h.move rfl rfl rfl rfl rfl (.inl rfl) nofun nofun nofun nofun nofun nofun
  · cases hp

end invariant

namespace PC

def inClose : PC → Bool
  | .closeBegun | .doneClosed | .closeLocked | .closeEnding => true
  | .closing _ b | .holding _ b | .socketClosed _ b => b
  | _ => false

def inOpen : PC → Bool
  | .openBegun | .openReplacing => true
  | _ => false

/-- The call has seen the done channel open and may create a socket. -/
def creates : PC → Bool
  | .checked | .dialing => true
  | _ => false

end PC

section quiet

variable {s s' : Bind T} {t : T} {a : Action}

/-- What a step changes beside the sockets and the lock. -/
inductive Effect (s : Bind T) (t : T) (p : PC) (s' : Bind T) : Action → Prop
  | inside {a : Action} (hd : s'.done = s.done) (hq : s'.quiet = s.quiet)
    (hc : p.inClose = true → (s.pc t).inClose = true ∧ s.pc t ≠ .closeBegun)
    (ho : p.inOpen = true → (s.pc t).inOpen = true)
    (hn : p.creates = true → (s.pc t).creates = true ∨ s.done = false)
    (hi : (s.pc t).creates = false → ∀ i, s.isOpen i = false → s'.isOpen i = false) :
    Effect s t p s' a
  | beginClose (hp : p = .closeBegun) (he : s' = s.go t p) : Effect s t p s' .close
  | beginOpen (hp : p = .openBegun) (he : s' = { s.go t p with quiet := false }) :
    Effect s t p s' .open_
  | closeDone {a : Action} (hc : s.pc t = .closeBegun) (hp : p = .doneClosed)
    (he : s' = { s.go t p with done := true }) : Effect s t p s' a
  | endClose {a : Action} (hc : s.pc t = .closeEnding) (hp : p = .idle)
    (he : s' = { s.unlock t p with quiet := true }) : Effect s t p s' a
  | replace {a : Action} (hc : s.pc t = .openReplacing) (hp : p = .idle)
    (he : s' = { s.go t p with done := false }) : Effect s t p s' a

lemma inClose_of_afterClose {b : Bool} (h : (Bind.afterClose b).inClose = true) : b = true := by
  cases b
  · cases h
  · rfl

lemma perform_effect (hp : s.perform (t,a) = some s') :
    ∃ p,s'.pc = Function.update s.pc t p ∧ Effect s t p s' a := by
  unfold Bind.perform at hp
  dsimp only at hp
  split at hp
  all_goals rename_i hpc
  · cases hp
    exact ⟨_,rfl,.inside rfl rfl nofun nofun nofun fun _ _ h => h⟩
  · cases hp
    exact ⟨_,rfl,.beginClose rfl rfl⟩
  · cases hp
    exact ⟨_,rfl,.beginOpen rfl rfl⟩
  · cases hp
    exact ⟨_,rfl,.inside rfl rfl nofun nofun nofun fun _ _ h => h⟩
  · cases hp
    refine ⟨_,rfl,.inside rfl rfl ?_ ?_ ?_ fun _ _ h => h⟩ <;> split <;> nofun
  · unfold Bind.lock at hp
    split_ifs at hp
    cases hp
    exact ⟨_,rfl,.inside rfl rfl nofun nofun nofun fun _ _ h => h⟩
  · cases hp
    split
    · exact ⟨_,rfl,.inside rfl rfl nofun nofun nofun fun _ _ h => h⟩
    · rename_i hd
      exact ⟨_,rfl,.inside rfl rfl nofun nofun (fun _ => .inr (Bool.eq_false_iff.mpr hd))
        fun _ _ h => h⟩
  · split at hp
    · cases hp
      exact ⟨_,rfl,.inside rfl rfl nofun nofun (fun _ => .inl (by rw [hpc]; rfl)) fun _ _ h => h⟩
    · cases hp
      split
      · exact ⟨_,rfl,.inside rfl rfl nofun nofun (fun _ => .inl (by rw [hpc]; rfl)) fun _ _ h => h⟩
      · exact ⟨_,rfl,.inside rfl rfl nofun nofun nofun fun _ _ h => h⟩
  · split_ifs at hp
    · cases hp
      refine ⟨_,rfl,.inside rfl rfl nofun nofun nofun fun hn => ?_⟩
      rw [hpc] at hn
      cases hn
    · cases hp
      exact ⟨_,rfl,.inside rfl rfl nofun nofun nofun fun _ _ h => h⟩
  · cases hp
    refine ⟨_,rfl,.inside rfl rfl ?_ ?_ ?_ fun _ _ h => h⟩ <;> split <;> nofun
  · split_ifs at hp
    cases hp
    refine ⟨_,rfl,.inside rfl rfl (fun hc => ?_) nofun nofun fun _ _ h => h⟩
    rw [hpc]
    exact ⟨hc,nofun⟩
  · rename_i i b _
    split_ifs at hp
    · cases hp
      refine ⟨_,rfl,.inside rfl rfl (fun hc => ?_) ?_ ?_ fun _ _ h => h⟩
      · rw [hpc]
        exact ⟨inClose_of_afterClose hc,nofun⟩
      · cases b <;> nofun
      · cases b <;> nofun
    · cases hp
      refine ⟨_,rfl,.inside rfl rfl (fun hc => ?_) nofun nofun fun _ j h => ?_⟩
      · rw [hpc]
        exact ⟨hc,nofun⟩
      · dsimp only
        rw [Function.update_apply,h,ite_self]
  · rename_i i b _
    cases hp
    refine ⟨_,rfl,.inside rfl rfl (fun hc => ?_) ?_ ?_ fun _ _ h => h⟩
    · rw [hpc]
      exact ⟨inClose_of_afterClose hc,nofun⟩
    · cases b <;> nofun
    · cases b <;> nofun
  · cases hp
    exact ⟨_,rfl,.closeDone hpc rfl rfl⟩
  · unfold Bind.lock at hp
    split_ifs at hp
    cases hp
    exact ⟨_,rfl,.inside rfl rfl (fun _ => by rw [hpc]; exact ⟨rfl,nofun⟩) nofun nofun
      fun _ _ h => h⟩
  · split at hp
    all_goals
      cases hp
      exact ⟨_,rfl,.inside rfl rfl (fun _ => by rw [hpc]; exact ⟨rfl,nofun⟩) nofun nofun
        fun _ _ h => h⟩
  · cases hp
    exact ⟨_,rfl,.endClose hpc rfl rfl⟩
  · cases hp
    refine ⟨_,rfl,.inside rfl rfl ?_ (fun _ => by rw [hpc]; rfl) ?_ fun _ _ h => h⟩ <;>
      split <;> nofun
  · cases hp
    exact ⟨_,rfl,.replace hpc rfl rfl⟩
  · cases hp

lemma PC.hasLock_of_creates {p : PC} (h : p.creates = true) : p.hasLock = true := by
  unfold PC.creates at h
  split at h
  · rfl
  · rfl
  · cases h

/-- No Open is called while a Close is in progress, and the other way round. -/
def serialised (s : Bind T) (event : T × Action) : Prop :=
  (event.2 = .open_ → ∀ u, (s.pc u).inClose = false) ∧
    (event.2 = .close → ∀ u, (s.pc u).inOpen = false)

structure Calm (s : Bind T) : Prop where
  inv : Inv s
  shutting : ∀ t, (s.pc t).inClose = true → s.pc t = .closeBegun ∨ s.done = true
  apart : ∀ t u, (s.pc t).inClose = true → (s.pc u).inOpen = false
  quiet : s.quiet = true → s.done = true ∧ (∀ i, s.isOpen i = false) ∧
    ∀ t, (s.pc t).inOpen = false ∧ (s.pc t).creates = false

lemma Calm.perform (h : Calm s) (hp : s.perform (t,a) = some s') (hs : serialised s (t,a)) :
    Calm s' := by
  obtain ⟨p,hpc,he⟩ := perform_effect hp
  have hat (u : T) : s'.pc u = if u = t then p else s.pc u := by
    rw [hpc,Function.update_apply]
  have hi' := h.inv.perform hp
  have hopen (hp : p.inOpen = false) (hu : ∀ u,(s.pc u).inOpen = false) :
      ∀ u,(s'.pc u).inOpen = false :=
    forall_place (f := fun _ (q : PC) => q.inOpen = false) hpc hp fun u _ => hu u
  have hcalm (hp : p.inOpen = false ∧ p.creates = false)
      (hu : ∀ u,(s.pc u).inOpen = false ∧ (s.pc u).creates = false) :
      ∀ u,(s'.pc u).inOpen = false ∧ (s'.pc u).creates = false :=
    forall_place (f := fun _ (q : PC) => q.inOpen = false ∧ q.creates = false) hpc hp fun u _ => hu u
  cases he with
  | inside hd hq hc ho hn hi =>
    refine ⟨hi',fun u hu => ?_,fun u v hu => ?_,fun hq' => ?_⟩
    · rw [hat] at hu ⊢
      split_ifs at hu ⊢
      · obtain ⟨h1,h2⟩ := hc hu
        exact .inr (hd.trans ((h.shutting t h1).resolve_left h2))
      · rw [hd]
        exact h.shutting u hu
    · obtain ⟨u',hu'⟩ : ∃ u',(s.pc u').inClose = true := by
        rw [hat] at hu
        split_ifs at hu
        · exact ⟨t,(hc hu).1⟩
        · exact ⟨u,hu⟩
      refine hopen (Bool.eq_false_iff.mpr fun hv => ?_) (fun v => h.apart u' v hu') v
      exact Bool.eq_false_iff.mp (h.apart u' t hu') (ho hv)
    · obtain ⟨q1,q2,q3⟩ := h.quiet (hq ▸ hq')
      refine ⟨hd.trans q1,fun i => hi (q3 t).2 i (q2 i),hcalm ⟨?_,?_⟩ q3⟩
      · exact Bool.eq_false_iff.mpr fun hv => Bool.eq_false_iff.mp (q3 t).1 (ho hv)
      · refine Bool.eq_false_iff.mpr fun hv => ?_
        obtain hn | hn := hn hv
        · exact Bool.eq_false_iff.mp (q3 t).2 hn
        · exact Bool.eq_false_iff.mp hn q1
  | beginClose hb he =>
    subst hb he
    refine ⟨hi',fun u hu => ?_,fun _ v _ => hopen rfl (hs.2 rfl) v,fun hq => ?_⟩
    · rw [hat] at hu ⊢
      split_ifs at hu ⊢
      · exact .inl rfl
      · exact h.shutting u hu
    · obtain ⟨q1,q2,q3⟩ := h.quiet hq
      exact ⟨q1,q2,hcalm ⟨rfl,rfl⟩ q3⟩
  | beginOpen hb he =>
    subst hb he
    have hn (u : T) (hu : ((if u = t then PC.openBegun else s.pc u)).inClose = true) : False := by
      split_ifs at hu
      · cases hu
      · exact Bool.eq_false_iff.mp (hs.1 rfl u) hu
    refine ⟨hi',fun u hu => ?_,fun u v hu => ?_,nofun⟩
    all_goals
      rw [hat] at hu
      exact (hn u hu).elim
  | closeDone hc hp he =>
    subst hp he
    have ht : (s.pc t).inClose = true := by
      rw [hc]
      rfl
    refine ⟨hi',fun _ _ => .inr rfl,fun _ v _ => hopen rfl (fun u => h.apart t u ht) v,
      fun hq => ?_⟩
    obtain ⟨-,q2,q3⟩ := h.quiet hq
    exact ⟨rfl,q2,hcalm ⟨rfl,rfl⟩ q3⟩
  | endClose hc hp he =>
    subst hp he
    have ht : (s.pc t).inClose = true := by
      rw [hc]
      rfl
    have hd : s.done = true := (h.shutting t ht).resolve_left (by rw [hc]; nofun)
    refine ⟨hi',fun _ _ => .inr hd,fun _ v _ => hopen rfl (fun u => h.apart t u ht) v,
      fun _ => ⟨hd,h.inv.ended t hc,?_⟩⟩
    refine hcalm ⟨rfl,rfl⟩ fun u => ⟨h.apart t u ht,Bool.eq_false_iff.mpr fun hn => ?_⟩
    -- a call that may create a socket has the lock, and so has the Close that ends
    obtain rfl := owner_unique h.inv.owner (by rw [hc]; rfl) (PC.hasLock_of_creates hn)
    rw [hc] at hn
    cases hn
  | replace hc hp he =>
    subst hp he
    have ht : (s.pc t).inOpen = true := by
      rw [hc]
      rfl
    have hn (u : T) (hu : (if u = t then PC.idle else s.pc u).inClose = true) : False := by
      split_ifs at hu
      · cases hu
      · exact Bool.eq_false_iff.mp (h.apart u t hu) ht
    refine ⟨hi',fun u hu => ?_,fun u v hu => ?_,fun hq => ?_⟩
    · rw [hat] at hu
      exact (hn u hu).elim
    · rw [hat] at hu
      exact (hn u hu).elim
    · exact absurd ht (Bool.eq_false_iff.mp ((h.quiet hq).2.2 t).1)

end quiet

def Runs (cond : Bind T → T × Action → Prop) : Bind T → Prop :=
  Reaches (fun s event s' => s.perform event = some s') cond Bind.new

omit [DecidableEq T] in
lemma inv_new : Inv (Bind.new : Bind T) :=
  ⟨nofun,nofun,nofun,nofun,nofun,nofun,nofun,nofun,nofun⟩

/-- In every run at most one socket is open; and where calls of Open and Close do not overlap, none
is open, and so none is created, from the return of a Close to the next Open. -/
theorem one_socket :
    (∀ s : Bind T, Runs anyStep s → ∀ i j, s.isOpen i = true → s.isOpen j = true → i = j) ∧
    ∀ s : Bind T, Runs serialised s → s.quiet = true → ∀ i, s.isOpen i = false := by
  constructor
  · intro s hs i j hi hj
    have h := hs.invariant Inv inv_new fun _ _ _ h hp _ => h.perform hp
    have hc := h.live i hi
    rw [h.live j hj] at hc
    exact (Option.some.inj hc).symm
  · intro s hs hq
    have hn : Calm (Bind.new : Bind T) := ⟨inv_new,nofun,nofun,nofun⟩
    exact ((hs.invariant Calm hn fun _ _ _ h hp hc => h.perform hp hc).quiet hq).2.1

lemma runs_of_follow {cond : Bind Bool → Bool × Action → Prop}
    {test : Bind Bool → Bool × Action → Bool} (ht : ∀ s event,test s event = true → cond s event)
    (events : List (Bool × Action)) (p : Bind Bool → Bool)
    (h : (follow Bind.perform test events Bind.new).any p = true) :
    ∃ s,Runs cond s ∧ p s = true := by
  obtain ⟨s,hs,hp⟩ := Option.any_eq_true .. |>.mp h
  exact ⟨s,(reaches_of_follow .start hs).mono ht,hp⟩

def steps (t : Bool) (n : ℕ) : List (Bool × Action) := List.replicate n (t,.next true)

/-- A connection is made and closed by Close; after that nothing is open. -/
theorem one_socket_closed :
    ∃ s : Bind Bool, Runs serialised s ∧ s.quiet = true ∧ s.created = 1 ∧ ∀ i, s.isOpen i = false := by
  have ht (s : Bind Bool) (event : Bool × Action) (h : ((event.2 ≠ .open_ ∨
      ∀ u, (s.pc u).inClose = false) ∧ (event.2 ≠ .close ∨ ∀ u, (s.pc u).inOpen = false) : Bool) =
      true) : serialised s event := by
    simp only [decide_eq_true_eq] at h
    exact ⟨fun ho => h.1.resolve_left (not_not.mpr ho),fun hc => h.2.resolve_left (not_not.mpr hc)⟩
  obtain ⟨s,hs,hp⟩ := runs_of_follow ht
    ((true,.connect) :: steps true 5 ++ [(false,.close)] ++ steps false 7)
    (fun s => s.quiet && s.created = 1) (by decide)
  simp only [Bool.and_eq_true,decide_eq_true_eq] at hp
  exact ⟨s,hs,hp.1,hp.2,one_socket.2 s hs hp.1⟩

/-- Open replaces the done channel while Close waits for the lock: after Close has returned a socket
is created. -/
theorem opened_during_close :
    ∃ s : Bind Bool, Runs anyStep s ∧ s.quiet = true ∧ s.isOpen 0 = true := by
  have ht (s : Bind Bool) (event : Bool × Action) (_ : (fun _ _ => true : Bind Bool →
      Bool × Action → Bool) s event = true) : anyStep s event := trivial
  obtain ⟨s,hs,hp⟩ := runs_of_follow ht
    ([(true,.close),(true,.next true),(false,.open_)] ++ steps false 2 ++ steps true 3 ++
      [(false,.connect)] ++ steps false 5) (fun s => s.quiet && s.isOpen 0) (by decide)
  simp only [Bool.and_eq_true] at hp
  exact ⟨s,hs,hp⟩

end SingBoxAuth.WireGuardBind
