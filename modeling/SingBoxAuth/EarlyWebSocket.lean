import SingBoxAuth.Transitions

/-! An early WebSocket connection: calls of Read, Write and Close at the same time, step by step,
and the connections that were dialed for it. -/
namespace SingBoxAuth.EarlyWebSocket
open Transitions

inductive PC
  | idle
  | readWaiting
  | readCreated
  | reading (i : ℕ)
  | waiting
  | locked
  | dialing
  | upgrading (i : ℕ)
  | lateWriting (i : ℕ)
  | storing (i : ℕ)
  | finishing (ok : Bool)
  | writing (i : ℕ)
  | lockedWriting (i : ℕ)
  | closing (i : ℕ)
  deriving DecidableEq

inductive Action
  | read
  /-- Write and WriteBuffer differ only in the order of two reads under the lock. -/
  | write
  | close
  /-- The next step of the call; a dial, an upgrade or a write succeeds, or there is something to
  read, if so. -/
  | next (ok : Bool)
  deriving DecidableEq

structure EarlyConn (T : Type) where
  pc : T → PC
  access : Option T
  conn : Option ℕ
  err : Bool
  /-- The channel that waiting readers receive from is closed. -/
  create : Bool
  dialed : ℕ
  isOpen : ℕ → Bool
  /-- Close has been called. -/
  closed : Bool

variable {T : Type} [DecidableEq T]

namespace EarlyConn

def new : EarlyConn T := ⟨fun _ => .idle,none,none,false,false,0,fun _ => false,false⟩

def go (s : EarlyConn T) (t : T) (pc : PC) : EarlyConn T :=
  { s with pc := Function.update s.pc t pc }

def unlock (s : EarlyConn T) (t : T) : EarlyConn T := { s.go t .idle with access := none }

/-- One step of a call. The connection that was dialed is left as it is when a later step of its
creation fails. -/
def perform (s : EarlyConn T) (event : T × Action) : Option (EarlyConn T) :=
  let t := event.1
  match s.pc t, event.2 with
  | .idle, .read =>
    match s.conn with
    | none => some (s.go t .readWaiting)
    | some i => some (s.go t (.reading i))
  | .idle, .write =>
    match s.conn with
    | none => some (s.go t .waiting)
    | some i => some (s.go t (.writing i))
  | .idle, .close =>
    match s.conn with
    | none => some { s with closed := true }
    | some i => some { s.go t (.closing i) with closed := true }
  | .readWaiting, .next _ => if s.create then some (s.go t .readCreated) else none
  | .readCreated, .next _ =>
    if s.err then some (s.go t .idle)
    else
      match s.conn with
      | none => none
      | some i => some (s.go t (.reading i))
  | .reading i, .next ok => if ok || !s.isOpen i then some (s.go t .idle) else none
  | .waiting, .next _ =>
    if s.access = none then some { s.go t .locked with access := some t } else none
  | .locked, .next _ =>
    if s.err then some (s.unlock t)
    else
      match s.conn with
      | none => some (s.go t .dialing)
      | some i => some (s.go t (.lockedWriting i))
  | .dialing, .next ok =>
    if ok then
      some { s.go t (.upgrading s.dialed) with
        dialed := s.dialed + 1
        isOpen := Function.update s.isOpen s.dialed true }
    else some (s.go t (.finishing false))
  | .upgrading i, .next ok => some (s.go t (if ok then .lateWriting i else .finishing false))
  | .lateWriting i, .next ok => some (s.go t (if ok then .storing i else .finishing false))
  | .storing i, .next _ => some { s.go t (.finishing true) with conn := some i }
  | .finishing ok, .next _ => some { s.unlock t with err := !ok, create := true }
  | .writing _, .next _ => some (s.go t .idle)
  | .lockedWriting _, .next _ => some (s.unlock t)
  | .closing i, .next _ =>
    some { s.go t .idle with isOpen := Function.update s.isOpen i false }
  | _, _ => none

/-- Close is called when the creation is over, and a connection that was dialed is upgraded and
takes the late data. -/
def orderly (s : EarlyConn T) (event : T × Action) : Bool :=
  match s.pc event.1, event.2 with
  | .idle, .close => s.conn.isSome || s.err
  | .upgrading _, .next ok => ok
  | .lateWriting _, .next ok => ok
  | _, _ => true

/-- Creation has ended, or is about to end, with a connection or an error. -/
def Over (s : EarlyConn T) : Prop := s.conn ≠ none ∨ s.err = true

end EarlyConn

namespace PC

def hasLock : PC → Bool
  | .locked | .dialing | .upgrading _ | .lateWriting _ | .storing _ | .finishing _
  | .lockedWriting _ => true
  | _ => false

def creates : PC → Bool
  | .dialing | .upgrading _ | .lateWriting _ | .storing _ => true
  | _ => false

def made : PC → Option ℕ
  | .upgrading i | .lateWriting i | .storing i => some i
  | _ => none

def uses : PC → Option ℕ
  | .reading i | .writing i | .lockedWriting i | .closing i => some i
  | _ => none

/-- The number of steps up to the return of a Read. -/
def readLeft : PC → Option ℕ
  | .idle => some 0
  | .reading _ => some 1
  | .readCreated => some 2
  | .readWaiting => some 3
  | _ => none

lemma hasLock_of_creates {p : PC} (h : p.creates = true) : p.hasLock = true := by
  cases p <;> first | rfl | cases h

lemma creates_of_made {p : PC} {i : ℕ} (h : p.made = some i) : p.creates = true := by
  cases p <;> first | rfl | cases h

end PC

/-- What holds between any two steps of a run whose steps are orderly. -/
structure Inv (s : EarlyConn T) : Prop where
  owner : ∀ t, (s.pc t).hasLock = true → s.access = some t
  fresh : ∀ t, (s.pc t).creates = true → ¬ s.Over
  ended : ∀ t, s.pc t = .finishing true → s.conn ≠ none
  uses : ∀ t i, (s.pc t).uses = some i → s.conn = some i
  created : s.create = true → s.Over
  pending : s.Over → s.create = true ∨ ∃ t, s.pc t = .finishing true
  live : ∀ i, s.isOpen i = true → s.conn = some i ∨ ∃ t, (s.pc t).made = some i
  called : s.closed = true → s.Over
  shut : s.closed = true → ∀ i, s.conn = some i → s.isOpen i = false ∨ ∃ t, s.pc t = .closing i

section invariant

variable {s s' : EarlyConn T} {t : T} {p : PC}

/-- A step that leaves the shared fields alone: what is to be shown is about the place it leads to. -/
lemma Inv.move (h : Inv s) (hpc : s'.pc = Function.update s.pc t p) (hc : s'.conn = s.conn)
    (he : s'.err = s.err) (hcr : s'.create = s.create) (ho : s'.isOpen = s.isOpen)
    (hcl : s'.closed = s.closed)
    (hl : s'.access = s.access ∨ s.access = none ∨ s.access = some t)
    (h1 : p.hasLock = true → s'.access = some t) (h2 : p.creates = true → ¬ s.Over)
    (h3 : p ≠ .finishing true) (h4 : ∀ i,p.uses = some i → s.conn = some i)
    (hf : s.pc t ≠ .finishing true) (hm : ∀ i,(s.pc t).made = some i → p.made = some i)
    (hcs : ∀ i,s.pc t ≠ .closing i) : Inv s' := by
  have hov : s'.Over ↔ s.Over := by rw [EarlyConn.Over,EarlyConn.Over,hc,he]
  refine ⟨owner_place h.owner hpc hl h1,?_,?_,?_,?_,?_,?_,?_,?_⟩
  · rw [hov]
    exact forall_place (f := fun _ (q : PC) => q.creates = true → ¬ s.Over) hpc h2 fun u _ => h.fresh u
  · rw [hc]
    exact forall_place (f := fun _ (q : PC) => q = .finishing true → s.conn ≠ none) hpc (absurd · h3)
      fun u _ => h.ended u
  · rw [hc]
    exact forall_place (f := fun _ (q : PC) => ∀ i,q.uses = some i → s.conn = some i) hpc h4
      fun u _ => h.uses u
  · rw [hcr,hov]
    exact h.created
  · rw [hcr,hov]
    exact fun hs => (h.pending hs).imp_right
      (exists_place (f := (· = PC.finishing true)) hpc (absurd · hf))
  · rw [ho,hc]
    exact fun i hi => (h.live i hi).imp_right (exists_place (f := (PC.made · = some i)) hpc (hm i))
  · rw [hcl,hov]
    exact h.called
  · rw [hcl,hc,ho]
    exact fun hs i hi => (h.shut hs i hi).imp_right
      (exists_place (f := (· = PC.closing i)) hpc (absurd · (hcs i)))

lemma Inv.go (h : Inv s) (h1 : p.hasLock = true → s.access = some t)
    (h2 : p.creates = true → ¬ s.Over) (h3 : p ≠ .finishing true)
    (h4 : ∀ i,p.uses = some i → s.conn = some i) (hf : s.pc t ≠ .finishing true)
    (hm : ∀ i,(s.pc t).made = some i → p.made = some i) (hcs : ∀ i,s.pc t ≠ .closing i) :
    Inv (s.go t p) :=
  h.move rfl rfl rfl rfl rfl rfl (.inl rfl) h1 h2 h3 h4 hf hm hcs

lemma Inv.ended_place (h : Inv s) (hp : p ≠ .finishing true) :
    ∀ u,Function.update s.pc t p u = .finishing true → s.conn ≠ none :=
  forall_place (f := fun _ (q : PC) => q = .finishing true → s.conn ≠ none) rfl (absurd · hp)
    fun u _ => h.ended u

lemma Inv.uses_place (h : Inv s) (hp : ∀ i,p.uses = some i → s.conn = some i) :
    ∀ u i,(Function.update s.pc t p u).uses = some i → s.conn = some i :=
  forall_place (f := fun _ (q : PC) => ∀ i,q.uses = some i → s.conn = some i) rfl hp
    fun u _ => h.uses u

lemma Inv.dialed (h : Inv s) (hp : s.pc t = .dialing) : Inv { s.go t (.upgrading s.dialed) with
      dialed := s.dialed + 1
      isOpen := Function.update s.isOpen s.dialed true } := by
  have hn : ¬ s.Over := h.fresh t (by rw [hp]; rfl)
  have hl := h.owner t (by rw [hp]; rfl)
  refine ⟨owner_place h.owner rfl (.inl rfl) fun _ => hl,?_,?_,?_,h.created,(absurd · hn),
    fun i hi => ?_,h.called,fun hc => absurd (h.called hc) hn⟩
  · exact forall_place (f := fun _ (q : PC) => q.creates = true → ¬ s.Over) rfl (fun _ => hn)
      fun u _ => h.fresh u
  · exact h.ended_place nofun
  · exact h.uses_place nofun
  · dsimp only at hi
    rw [Function.update_apply] at hi
    split_ifs at hi with he
    · refine .inr ⟨t,(congrArg PC.made (Function.update_self ..)).trans ?_⟩
      rw [he]
      rfl
    · refine (h.live i hi).imp_right (exists_place (f := (PC.made · = some i)) rfl ?_)
      rw [hp]
      nofun

lemma Inv.stored {i : ℕ} (h : Inv s) (hp : s.pc t = .storing i) :
    Inv { s.go t (.finishing true) with conn := some i } := by
  have hn : ¬ s.Over := h.fresh t (by rw [hp]; rfl)
  have hc : s.conn = none := not_not.mp (not_or.mp hn).1
  have ht : (s.pc t).hasLock = true := by
    rw [hp]
    rfl
  refine ⟨owner_place h.owner rfl (.inl rfl) fun _ => h.owner t ht,?_,fun _ _ => nofun,?_,
    fun _ => .inl nofun,fun _ => .inr ⟨t,Function.update_self ..⟩,fun j hj => ?_,
    fun _ => .inl nofun,fun hcl => absurd (h.called hcl) hn⟩
  · refine forall_place (f := fun _ (q : PC) => q.creates = true → _) rfl nofun fun u hu hcr => ?_
    exact absurd (owner_unique h.owner ht (PC.hasLock_of_creates hcr)) hu
  · refine forall_place (f := fun _ (q : PC) => ∀ j,q.uses = some j → some i = some j) rfl nofun ?_
    intro u _ j hj
    have hs := h.uses u j hj
    rw [hc] at hs
    cases hs
  · obtain hs | ⟨u,hu⟩ := h.live j hj
    · rw [hc] at hs
      cases hs
    · obtain rfl := owner_unique h.owner ht (PC.hasLock_of_creates (PC.creates_of_made hu))
      rw [hp] at hu
      exact .inl hu

lemma Inv.finished {ok : Bool} (h : Inv s) (hp : s.pc t = .finishing ok) :
    Inv { s.unlock t with err := !ok,create := true } := by
  have ht : (s.pc t).hasLock = true := by
    rw [hp]
    rfl
  have hov : EarlyConn.Over { s.unlock t with err := !ok,create := true } := by
    cases ok with
    | true => exact .inl (h.ended t hp)
    | false => exact .inr rfl
  refine ⟨owner_place h.owner rfl (.inr (.inr (h.owner t ht))) nofun,?_,?_,?_,fun _ => hov,
    fun _ => .inl rfl,fun i hi => ?_,fun _ => hov,fun hc i hi => ?_⟩
  · refine forall_place (f := fun _ (q : PC) => q.creates = true → _) rfl nofun fun u hu hcr => ?_
    exact absurd (owner_unique h.owner ht (PC.hasLock_of_creates hcr)) hu
  · exact h.ended_place nofun
  · exact h.uses_place nofun
  · refine (h.live i hi).imp_right (exists_place (f := (PC.made · = some i)) rfl ?_)
    rw [hp]
    nofun
  · refine (h.shut hc i hi).imp_right (exists_place (f := (· = PC.closing i)) rfl ?_)
    rw [hp]
    nofun

lemma Inv.closed {i : ℕ} (h : Inv s) (hp : s.pc t = .closing i) :
    Inv { s.go t .idle with isOpen := Function.update s.isOpen i false } := by
  have hs := h.uses t i (by rw [hp]; rfl)
  refine ⟨owner_place h.owner rfl (.inl rfl) nofun,?_,?_,?_,h.created,fun ho => ?_,fun j hj => ?_,
    h.called,fun _ j hj => ?_⟩
  · exact forall_place (f := fun _ (q : PC) => q.creates = true → ¬ s.Over) rfl nofun
      fun u _ => h.fresh u
  · exact h.ended_place nofun
  · exact h.uses_place nofun
  · refine (h.pending ho).imp_right (exists_place (f := (· = PC.finishing true)) rfl ?_)
    rw [hp]
    nofun
  · dsimp only at hj
    rw [Function.update_apply] at hj
    split_ifs at hj
    refine (h.live j hj).imp_right (exists_place (f := (PC.made · = some j)) rfl ?_)
    rw [hp]
    nofun
  · have he : some i = some j := hs.symm.trans hj
    cases he
    exact .inl (Function.update_self ..)

omit [DecidableEq T] in
lemma Inv.close (h : Inv s) (ho : s.Over) (hc : ∀ i,s.conn = some i → ∃ t,s.pc t = .closing i) :
    Inv { s with closed := true } :=
  ⟨h.owner,h.fresh,h.ended,h.uses,h.created,h.pending,h.live,fun _ => ho,
    fun _ i hi => .inr (hc i hi)⟩

lemma Inv.plain (h : Inv s) (hm : (s.pc t).made = none) (hf : s.pc t ≠ .finishing true)
    (hcs : ∀ i,s.pc t ≠ .closing i) (h1 : p.hasLock = true → s.access = some t)
    (h2 : p.creates = true → ¬ s.Over) (h3 : p ≠ .finishing true)
    (h4 : ∀ i,p.uses = some i → s.conn = some i) : Inv (s.go t p) := by
  refine h.go h1 h2 h3 h4 hf ?_ hcs
  rw [hm]
  nofun

lemma Inv.unlock (h : Inv s) (hl : (s.pc t).hasLock = true) (hm : (s.pc t).made = none)
    (hf : s.pc t ≠ .finishing true) (hcs : ∀ i,s.pc t ≠ .closing i) : Inv (s.unlock t) := by
  refine h.move rfl rfl rfl rfl rfl rfl (.inr (.inr (h.owner t hl))) nofun nofun nofun nofun hf ?_
    hcs
  rw [hm]
  nofun

omit [DecidableEq T] in
lemma loaded {i : ℕ} (hp : p.uses = some i) (hc : s.conn = some i) :
    ∀ j,p.uses = some j → s.conn = some j := by
  intro j hj
  rw [hc,← hp,hj]

lemma Inv.perform {event : T × Action} (h : Inv s) (hp : s.perform event = some s')
    (ho : s.orderly event = true) : Inv s' := by
  obtain ⟨t,a⟩ := event
  have hl := h.owner t
  have hf := h.fresh t
  have hgo {p : PC} := Inv.plain (t := t) (p := p) h
  have hun := Inv.unlock (t := t) h
  unfold EarlyConn.perform at hp
  unfold EarlyConn.orderly at ho
  dsimp only at hp ho
  split at hp
  all_goals rename_i hpc
  all_goals try rw [hpc] at hl hf ho hgo hun
  · split at hp
    all_goals rename_i hc
    all_goals cases hp
    · exact hgo rfl nofun nofun nofun nofun nofun nofun
    · exact hgo rfl nofun nofun nofun nofun nofun (loaded rfl hc)
  · split at hp
    all_goals rename_i hc
    all_goals cases hp
    · exact hgo rfl nofun nofun nofun nofun nofun nofun
    · exact hgo rfl nofun nofun nofun nofun nofun (loaded rfl hc)
  · split at hp
    all_goals rename_i hc
    all_goals cases hp
    · refine h.close (.inr ?_) fun i hi => ?_
      · simpa [hc] using ho
      · rw [hc] at hi
        cases hi
    · rename_i i
      have hg : Inv (s.go t (.closing i)) :=
        hgo rfl nofun nofun nofun nofun nofun (loaded rfl hc)
      refine hg.close (.inl ?_) fun j hj => ⟨t,?_⟩
      · exact fun hn => nomatch hc.symm.trans hn
      · cases hc.symm.trans hj
        exact Function.update_self ..
  · split_ifs at hp
    cases hp
    exact hgo rfl nofun nofun nofun nofun nofun nofun
  · split_ifs at hp
    · cases hp
      exact hgo rfl nofun nofun nofun nofun nofun nofun
    · split at hp
      · cases hp
      · rename_i hc
        cases hp
        exact hgo rfl nofun nofun nofun nofun nofun (loaded rfl hc)
  · split_ifs at hp
    cases hp
    exact hgo rfl nofun nofun nofun nofun nofun nofun
  · split_ifs at hp with ha
    cases hp
    refine h.move rfl rfl rfl rfl rfl rfl (.inr (.inl ha)) (fun _ => rfl) nofun nofun nofun ?_ ?_ ?_
    all_goals rw [hpc]
    all_goals nofun
  · split_ifs at hp with he
    · cases hp
      exact hun rfl rfl nofun nofun
    · split at hp
      all_goals rename_i hc
      all_goals cases hp
      · refine hgo rfl nofun nofun (fun _ => hl rfl) (fun _ hov => ?_) nofun nofun
        exact hov.elim (absurd hc) he
      · exact hgo rfl nofun nofun (fun _ => hl rfl) nofun nofun (loaded rfl hc)
  · split_ifs at hp
    · cases hp
      exact h.dialed hpc
    · cases hp
      exact hgo rfl nofun nofun (fun _ => hl rfl) nofun nofun nofun
  · dsimp only at ho
    subst ho
    cases hp
    refine h.go (fun _ => hl rfl) (fun _ => hf rfl) nofun nofun ?_ ?_ ?_
    all_goals rw [hpc]
    · nofun
    · exact fun _ hi => hi
    · nofun
  · dsimp only at ho
    subst ho
    cases hp
    refine h.go (fun _ => hl rfl) (fun _ => hf rfl) nofun nofun ?_ ?_ ?_
    all_goals rw [hpc]
    · nofun
    · exact fun _ hi => hi
    · nofun
  · cases hp
    exact h.stored hpc
  · cases hp
    exact h.finished hpc
  · cases hp
    exact hgo rfl nofun nofun nofun nofun nofun nofun
  · cases hp
    exact hun rfl rfl nofun nofun
  · cases hp
    exact h.closed hpc
  · cases hp

omit [DecidableEq T] in
lemma inv_new : Inv (EarlyConn.new : EarlyConn T) :=
  ⟨nofun,nofun,nofun,nofun,nofun,fun h => by simp [EarlyConn.Over,EarlyConn.new] at h,nofun,
    nofun,nofun⟩

end invariant

def Quiet (s : EarlyConn T) : Prop := s.closed = true ∧ ∀ t, (s.pc t).readLeft ≠ none

structure Done (n : ℕ) (s : EarlyConn T) : Prop where
  ended : s.Over
  create : s.create = true
  dialed : s.dialed = n
  shut : ∀ i, s.isOpen i = false
  still : ∀ t, (s.pc t).creates = false ∧ ∀ ok, s.pc t ≠ .finishing ok

section quiet

variable {s s' : EarlyConn T} {t : T} {p : PC} {n : ℕ}

omit [DecidableEq T] in
lemma Inv.done (h : Inv s) (hq : Quiet s) : Done s.dialed s := by
  obtain ⟨hc,hr⟩ := hq
  have hn (u : T) {q : PC} (hu : s.pc u = q) : q.readLeft ≠ none := hu ▸ hr u
  have hs (u : T) : (s.pc u).creates = false ∧ ∀ ok,s.pc u ≠ .finishing ok := by
    constructor
    · cases hp : s.pc u <;> first | rfl | exact absurd rfl (hn u hp)
    · exact fun ok hp => hn u hp rfl
  refine ⟨h.called hc,?_,rfl,fun i => ?_,hs⟩
  · obtain hcr | ⟨u,hu⟩ := h.pending (h.called hc)
    · exact hcr
    · exact absurd hu ((hs u).2 true)
  · by_contra hi
    rw [Bool.not_eq_false] at hi
    obtain hcn | ⟨u,hu⟩ := h.live i hi
    · obtain ho | ⟨u,hu⟩ := h.shut hc i hcn
      · rw [hi] at ho
        cases ho
      · exact hn u hu rfl
    · have hcr := PC.creates_of_made hu
      rw [(hs u).1] at hcr
      cases hcr

lemma Done.move (h : Done n s) (hpc : s'.pc = Function.update s.pc t p) (hc : s'.conn = s.conn)
    (he : s'.err = s.err) (hcr : s'.create = s.create) (hd : s'.dialed = s.dialed)
    (ho : ∀ i,s.isOpen i = false → s'.isOpen i = false)
    (hp : p.creates = false ∧ ∀ ok,p ≠ .finishing ok) : Done n s' := by
  refine ⟨?_,hcr.trans h.create,hd.trans h.dialed,fun i => ho i (h.shut i),
    forall_place (f := fun _ (q : PC) => q.creates = false ∧ ∀ ok,q ≠ .finishing ok) hpc hp
      fun u _ => h.still u⟩
  rw [EarlyConn.Over,hc,he]
  exact h.ended

lemma Done.go (h : Done n s) (hp : p.creates = false ∧ ∀ ok,p ≠ .finishing ok) :
    Done n (s.go t p) :=
  h.move rfl rfl rfl rfl rfl (fun _ ho => ho) hp

lemma Done.perform {event : T × Action} (h : Done n s) (hp : s.perform event = some s') :
    Done n s' := by
  obtain ⟨t,a⟩ := event
  have ht := h.still t
  unfold EarlyConn.perform at hp
  dsimp only at hp
  split at hp
  all_goals rename_i hpc
  all_goals try rw [hpc] at ht
  · split at hp
    all_goals cases hp
    all_goals exact h.go ⟨rfl,nofun⟩
  · split at hp
    all_goals cases hp
    all_goals exact h.go ⟨rfl,nofun⟩
  · split at hp
    all_goals cases hp
    · exact ⟨h.ended,h.create,h.dialed,h.shut,h.still⟩
    · exact h.move rfl rfl rfl rfl rfl (fun _ ho => ho) ⟨rfl,nofun⟩
  · split_ifs at hp
    cases hp
    exact h.go ⟨rfl,nofun⟩
  · split_ifs at hp
    · cases hp
      exact h.go ⟨rfl,nofun⟩
    · split at hp
      all_goals cases hp
      exact h.go ⟨rfl,nofun⟩
  · split_ifs at hp
    cases hp
    exact h.go ⟨rfl,nofun⟩
  · split_ifs at hp
    cases hp
    exact h.move rfl rfl rfl rfl rfl (fun _ ho => ho) ⟨rfl,nofun⟩
  · -- a Write that gets the lock finds the connection or the error
    split_ifs at hp with he
    · cases hp
      exact h.move rfl rfl rfl rfl rfl (fun _ ho => ho) ⟨rfl,nofun⟩
    · split at hp
      all_goals rename_i hc
      all_goals cases hp
      · exact (h.ended.elim (absurd hc) he).elim
      · exact h.go ⟨rfl,nofun⟩
  · cases ht.1
  · cases ht.1
  · cases ht.1
  · cases ht.1
  · exact absurd rfl (ht.2 _)
  · cases hp
    exact h.go ⟨rfl,nofun⟩
  · cases hp
    exact h.move rfl rfl rfl rfl rfl (fun _ ho => ho) ⟨rfl,nofun⟩
  · cases hp
    refine h.move rfl rfl rfl rfl rfl (fun j ho => ?_) ⟨rfl,nofun⟩
    dsimp only
    rw [Function.update_apply,ho,ite_self]
  · cases hp

lemma Done.read (h : Done n s) {k : ℕ} (ht : (s.pc t).readLeft = some (k + 1)) :
    ∃ s' j,s.perform (t,.next false) = some s' ∧ (s'.pc t).readLeft = some j ∧ j ≤ k := by
  have hat (p : PC) : (s.go t p).pc t = p := Function.update_self ..
  unfold EarlyConn.perform
  cases hp : s.pc t with
  | readWaiting =>
    rw [hp] at ht
    cases ht
    refine ⟨s.go t .readCreated,2,?_,by rw [hat]; rfl,le_rfl⟩
    simp [hp,h.create]
  | readCreated =>
    rw [hp] at ht
    cases ht
    cases he : s.err with
    | true => exact ⟨s.go t .idle,0,by simp [hp],by rw [hat]; rfl,Nat.zero_le _⟩
    | false =>
      obtain hc | hc := h.ended
      · obtain ⟨i,hi⟩ := Option.ne_none_iff_exists'.mp hc
        exact ⟨s.go t (.reading i),1,by simp [hp,hi],by rw [hat]; rfl,le_rfl⟩
      · rw [he] at hc
        cases hc
  | reading i =>
    rw [hp] at ht
    cases ht
    exact ⟨s.go t .idle,0,by simp [hp,h.shut],by rw [hat]; rfl,le_rfl⟩
  | _ =>
    rw [hp] at ht
    cases ht

end quiet

def step (s : EarlyConn T) (event : T × Action) (s' : EarlyConn T) : Prop :=
  s.perform event = some s'

/-- In every run in which Close is called only after the creation and no step of the creation fails
after a dial: once Close was called and all calls but Read have returned, every connection is
closed, and whatever is called later, none is dialed and every Read goes on to its return. -/
theorem leaks_nothing (s : EarlyConn T)
    (h : Reaches step (fun s event => s.orderly event = true) .new s) (hq : Quiet s) :
    (∀ i, s.isOpen i = false) ∧ ∀ later, Reaches step anyStep s later → later.dialed = s.dialed ∧
      ∀ t k, (later.pc t).readLeft = some (k + 1) → ∃ s' j,
        later.perform (t,.next false) = some s' ∧ (s'.pc t).readLeft = some j ∧ j ≤ k := by
  have hi : Inv s := h.invariant Inv inv_new fun _ _ _ h hp ho => h.perform hp ho
  refine ⟨(hi.done hq).shut,fun later hl => ?_⟩
  have hd : Done s.dialed later :=
    hl.invariant (Done s.dialed) (hi.done hq) fun _ _ _ h hp _ => h.perform hp
  exact ⟨hd.dialed,fun t k => hd.read⟩

instance (s : EarlyConn Bool) : Decidable (Quiet s) := inferInstanceAs (Decidable (_ ∧ _))

lemma runs_of_follow (test : EarlyConn Bool → Bool × Action → Bool) (events : List (Bool × Action))
    (p : EarlyConn Bool → Bool)
    (h : (follow EarlyConn.perform test events .new).any p = true) :
    ∃ s,Reaches step (fun s event => test s event = true) .new s ∧ p s = true := by
  obtain ⟨s,hs,hp⟩ := Option.any_eq_true .. |>.mp h
  exact ⟨s,reaches_of_follow .start hs,hp⟩

def writes (t : Bool) : List (Bool × Action) := (t,.write) :: List.replicate 7 (t,.next true)

/-- A Read that began before the first Write returns after Close. -/
theorem leaks_nothing_read :
    ∃ s : EarlyConn Bool, Reaches step (fun s event => s.orderly event = true) .new s ∧ Quiet s ∧
      s.dialed = 1 ∧ s.pc true = .readWaiting ∧ (∀ i, s.isOpen i = false) ∧
      ∃ s' j, s.perform (true,.next false) = some s' ∧ (s'.pc true).readLeft = some j ∧ j ≤ 2 := by
  obtain ⟨s,hs,hp⟩ := runs_of_follow EarlyConn.orderly
    ((true,.read) :: writes false ++ [(false,.close),(false,.next true)])
    (fun s => Quiet s ∧ s.dialed = 1 ∧ s.pc true = .readWaiting) (by decide)
  obtain ⟨hq,hd,hr⟩ := of_decide_eq_true hp
  obtain ⟨ho,hl⟩ := leaks_nothing s hs hq
  exact ⟨s,hs,hq,hd,hr,ho,(hl s .start).2 true 2 (by rw [hr]; rfl)⟩

/-- Close before the first Write does nothing: the Write dials and its connection stays open, and
without a Write a Read waits for ever. After a failed upgrade the connection stays open too. -/
theorem open_after_close :
    (∃ s : EarlyConn Bool, Reaches step anyStep .new s ∧ Quiet s ∧ s.isOpen 0 = true) ∧
    (∃ s : EarlyConn Bool, Reaches step anyStep .new s ∧ Quiet s ∧ s.pc true = .readWaiting ∧
      (s.perform (true,.next false)).isNone = true) ∧
    ∃ s : EarlyConn Bool, Reaches step anyStep .new s ∧ Quiet s ∧ s.err = true ∧
      s.isOpen 0 = true := by
  have hany (events : List (Bool × Action)) (p : EarlyConn Bool → Bool)
      (h : (follow EarlyConn.perform (fun _ _ => true) events .new).any p = true) :
      ∃ s, Reaches step anyStep .new s ∧ p s = true := by
    obtain ⟨s,hs,hp⟩ := runs_of_follow _ events p h
    exact ⟨s,hs.mono fun _ _ _ => trivial,hp⟩
  refine ⟨?_,?_,?_⟩
  · obtain ⟨s,hs,hp⟩ := hany ((true,.close) :: writes true)
      (fun s => Quiet s ∧ s.isOpen 0 = true) (by decide)
    exact ⟨s,hs,of_decide_eq_true hp⟩
  · obtain ⟨s,hs,hp⟩ := hany [(true,.read),(false,.close)]
      (fun s => Quiet s ∧ s.pc true = .readWaiting ∧
        (s.perform (true,.next false)).isNone = true) (by decide)
    exact ⟨s,hs,of_decide_eq_true hp⟩
  · obtain ⟨s,hs,hp⟩ := hany ((true,.write) :: List.replicate 3 (true,.next true) ++
        [(true,.next false),(true,.next true),(false,.close)])
      (fun s => Quiet s ∧ s.err = true ∧ s.isOpen 0 = true) (by decide)
    exact ⟨s,hs,of_decide_eq_true hp⟩

end SingBoxAuth.EarlyWebSocket
