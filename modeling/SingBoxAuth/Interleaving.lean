import Mathlib

/-! Sequential programs over atomic actions and all interleavings of them.
A program is a tree of actions; each action has a typed result that selects the
rest of the program. Threads share one state, and every executed action is
recorded in a history, so that properties of whole runs can be stated. -/
namespace SingBoxAuth.Interleaving

inductive Prog (Act : Type) (Res : Act → Type) (α : Type)
  | ret (value : α)
  | act (a : Act) (next : Res a → Prog Act Res α)

variable {Act : Type} {Res : Act → Type} {St α β γ : Type}

namespace Prog

def bind (p : Prog Act Res α) (f : α → Prog Act Res β) : Prog Act Res β :=
  match p with
  | .ret x => f x
  | .act a next => .act a fun r => (next r).bind f

instance : Monad (Prog Act Res) where
  pure := .ret
  bind := bind

def perform (a : Act) : Prog Act Res (Res a) := .act a .ret

@[simp] lemma pure_eq (x : α) : (pure x : Prog Act Res α) = .ret x := rfl

@[simp] lemma ret_bind (x : α) (f : α → Prog Act Res β) : (.ret x >>= f) = f x := rfl

@[simp] lemma act_bind (a : Act) (next : Res a → Prog Act Res α) (f : α → Prog Act Res β) :
    (.act a next >>= f) = .act a fun r => next r >>= f := rfl

lemma bind_ret (p : Prog Act Res α) : (p >>= .ret) = p := by
  induction p with
  | ret x => rfl
  | act a next ih => exact congrArg (Prog.act a) (funext ih)

lemma perform_bind (a : Act) (f : Res a → Prog Act Res β) : (perform a >>= f) = .act a f := rfl

/-- Every action the program can ever issue lies in the given class. -/
def Uses (allowed : Act → Prop) : Prog Act Res α → Prop
  | .ret _ => True
  | .act a next => allowed a ∧ ∀ r, (next r).Uses allowed

@[simp] lemma uses_ret (allowed : Act → Prop) (x : α) :
    (.ret x : Prog Act Res α).Uses allowed := trivial

@[simp] lemma uses_perform {allowed : Act → Prop} {a : Act} :
    (perform a : Prog Act Res (Res a)).Uses allowed ↔ allowed a := by
  simp [perform,Uses]

lemma Uses.bind {allowed : Act → Prop} {p : Prog Act Res α} {f : α → Prog Act Res β}
    (hp : p.Uses allowed) (hf : ∀ x,(f x).Uses allowed) : (p >>= f).Uses allowed := by
  induction p with
  | ret x => exact hf x
  | act a next ih => exact ⟨hp.1,fun r => ih r (hp.2 r)⟩

lemma uses_true (p : Prog Act Res α) : p.Uses fun _ => True := by
  induction p with
  | ret x => trivial
  | act a next ih => exact ⟨trivial,ih⟩

lemma Uses.mono {allowed wider : Act → Prop} {p : Prog Act Res α} (hp : p.Uses allowed)
    (h : ∀ a,allowed a → wider a) : p.Uses wider := by
  induction p with
  | ret x => trivial
  | act a next ih => exact ⟨h a hp.1,fun r => ih r (hp.2 r)⟩

end Prog

/-- One executed action: who ran it, what it was and what it returned. -/
structure Event (Act : Type) (Res : Act → Type) where
  thread : ℕ
  act : Act
  result : Res act

/-- The shared state together with everything executed so far, latest first. -/
structure Moment (Act : Type) (Res : Act → Type) (St : Type) where
  state : St
  history : List (Event Act Res)

namespace Moment

def after (m : Moment Act Res St) (t : ℕ) (a : Act) (r : Res a) (s : St) : Moment Act Res St :=
  ⟨s,⟨t,a,r⟩ :: m.history⟩

@[simp] lemma after_state (m : Moment Act Res St) (t : ℕ) (a : Act) (r : Res a) (s : St) :
    (m.after t a r s).state = s := rfl

@[simp] lemma after_history (m : Moment Act Res St) (t : ℕ) (a : Act) (r : Res a) (s : St) :
    (m.after t a r s).history = ⟨t,a,r⟩ :: m.history := rfl

end Moment

/-- The meaning of actions: which results and next states an action may have. -/
abbrev Exec (Act : Type) (Res : Act → Type) (St : Type) : Type :=
  ℕ → (a : Act) → St → Res a → St → Prop

abbrev Ops (Act : Type) (Res : Act → Type) (St : Type) : Type :=
  ℕ → Moment Act Res St → Prog Act Res Unit → Prop

structure Config (Act : Type) (Res : Act → Type) (St : Type) where
  moment : Moment Act Res St
  pool : ℕ → Prog Act Res Unit

namespace Config

def idle (s : St) : Config Act Res St := ⟨⟨s,[]⟩,fun _ => .ret ()⟩

def Quiet (c : Config Act Res St) : Prop := ∀ t, c.pool t = .ret ()

def At (c : Config Act Res St) (t : ℕ) (a : Act) : Prop := ∃ next, c.pool t = .act a next

def start (c : Config Act Res St) (t : ℕ) (p : Prog Act Res Unit) : Config Act Res St :=
  ⟨c.moment,Function.update c.pool t p⟩

def run (c : Config Act Res St) (t : ℕ) (a : Act) (r : Res a) (s : St)
    (rest : Prog Act Res Unit) : Config Act Res St :=
  ⟨c.moment.after t a r s,Function.update c.pool t rest⟩

lemma quiet_idle (s : St) : (idle s : Config Act Res St).Quiet := fun _ => rfl

end Config

/-- A condition on the moment at which a thread runs an action. -/
abbrev Guard (Act : Type) (Res : Act → Type) (St : Type) : Type :=
  ℕ → Act → Moment Act Res St → Prop

inductive StepWhen (guard : Guard Act Res St) (exec : Exec Act Res St) (ops : Ops Act Res St) :
    Config Act Res St → Config Act Res St → Prop
  | start {c : Config Act Res St} {t : ℕ} {p : Prog Act Res Unit}
      (free : c.pool t = .ret ()) (allowed : ops t c.moment p) :
      StepWhen guard exec ops c (c.start t p)
  | run {c : Config Act Res St} {t : ℕ} {a : Act} {next : Res a → Prog Act Res Unit}
      {r : Res a} {s : St} (ready : c.pool t = .act a next) (meets : guard t a c.moment)
      (does : exec t a c.moment.state r s) : StepWhen guard exec ops c (c.run t a r s (next r))

/-- Runs of any length and any interleaving, each action of which meets the guard. -/
abbrev ReachWhen (guard : Guard Act Res St) (exec : Exec Act Res St) (ops : Ops Act Res St) :
    Config Act Res St → Config Act Res St → Prop :=
  Relation.ReflTransGen (StepWhen guard exec ops)

def unguarded : Guard Act Res St := fun _ _ _ => True

abbrev Step (exec : Exec Act Res St) (ops : Ops Act Res St) :
    Config Act Res St → Config Act Res St → Prop := StepWhen unguarded exec ops

abbrev Reach (exec : Exec Act Res St) (ops : Ops Act Res St) :
    Config Act Res St → Config Act Res St → Prop := ReachWhen unguarded exec ops

variable {ops : Ops Act Res St} {c d : Config Act Res St}

lemma ReachWhen.mono {guard guard' : Guard Act Res St} {exec exec' : Exec Act Res St}
    {ops' : Ops Act Res St} (hg : ∀ t a m,guard t a m → guard' t a m)
    (he : ∀ t a s r s',exec t a s r s' → exec' t a s r s') (ho : ∀ t m p,ops t m p → ops' t m p)
    (h : ReachWhen guard exec ops c d) : ReachWhen guard' exec' ops' c d := by
  refine Relation.ReflTransGen.mono (fun c d hs => ?_) _ _ h
  cases hs with
  | start free allowed => exact .start free (ho _ _ _ allowed)
  | run ready meets does => exact .run ready (hg _ _ _ meets) (he _ _ _ _ _ does)

lemma Reach.mono {exec exec' : Exec Act Res St} {ops' : Ops Act Res St}
    (he : ∀ t a s r s',exec t a s r s' → exec' t a s r s') (ho : ∀ t m p,ops t m p → ops' t m p)
    (h : Reach exec ops c d) : Reach exec' ops' c d :=
  ReachWhen.mono (fun _ _ _ h => h) he ho h

lemma ReachWhen.reach {guard : Guard Act Res St} {exec : Exec Act Res St}
    (h : ReachWhen guard exec ops c d) :
    Reach exec ops c d :=
  h.mono (fun _ _ _ _ => trivial) (fun _ _ _ _ _ h => h) fun _ _ _ h => h

/-- Executable schedules: each move starts a program or lets a thread take the
outcome with the given number. -/
inductive Move (Act : Type) (Res : Act → Type)
  | start (t : ℕ) (p : Prog Act Res Unit)
  | run (t choice : ℕ)

/-- All outcomes of an action, as a list that can be enumerated. -/
abbrev Outcomes (Act : Type) (Res : Act → Type) (St : Type) : Type :=
  ℕ → (a : Act) → St → List (Res a × St)

def Outcomes.exec (outcomes : Outcomes Act Res St) : Exec Act Res St :=
  fun t a s r s' => (r,s') ∈ outcomes t a s

section exec

variable {outcomes : Outcomes Act Res St} {t : ℕ} {a : Act} {s s' z z' : St} {r x x' : Res a}

lemma Outcomes.exec_pair {y : Res a × St} (he : outcomes.exec t a s r s') (h : outcomes t a s = [y]) :
    (r,s') = y := by
  unfold Outcomes.exec at he
  rwa [h,List.mem_singleton] at he

lemma Outcomes.exec_one (he : outcomes.exec t a s r s') (h : outcomes t a s = [(x,z)]) :
    r = x ∧ s' = z := Prod.mk.inj (Outcomes.exec_pair he h)

lemma Outcomes.exec_two (he : outcomes.exec t a s r s')
    (h : outcomes t a s = [(x,z),(x',z')]) : r = x ∧ s' = z ∨ r = x' ∧ s' = z' := by
  unfold Outcomes.exec at he
  simpa only [h,List.mem_cons,List.not_mem_nil,or_false,Prod.mk.injEq] using he

lemma Outcomes.exec_if {p : Prop} [Decidable p] (he : outcomes.exec t a s r s')
    (h : outcomes t a s = if p then [(x,z)] else []) : p ∧ r = x ∧ s' = z := by
  unfold Outcomes.exec at he
  rw [h] at he
  split_ifs at he with hp
  · exact ⟨hp,Prod.mk.inj (List.mem_singleton.mp he)⟩
  · cases he

lemma Outcomes.exec_map {l : List (Res a)} (he : outcomes.exec t a s r s')
    (h : outcomes t a s = l.map (·,s)) : r ∈ l ∧ s' = s := by
  unfold Outcomes.exec at he
  rw [h,List.mem_map] at he
  obtain ⟨x,hx,hp⟩ := he
  exact ⟨(Prod.mk.inj hp).1 ▸ hx,(Prod.mk.inj hp).2.symm⟩

end exec

def Outcomes.only (outcomes : Outcomes Act Res St) (keep : (a : Act) → St → Res a → St → Bool) :
    Outcomes Act Res St :=
  fun t a s => (outcomes t a s).filter fun p => keep a s p.1 p.2

lemma Outcomes.only_exec (outcomes : Outcomes Act Res St)
    (keep : (a : Act) → St → Res a → St → Bool) (t : ℕ) (a : Act) (s : St) (r : Res a) (s' : St) :
    (outcomes.only keep).exec t a s r s' ↔ outcomes.exec t a s r s' ∧ keep a s r s' = true :=
  List.mem_filter

def play1 (outcomes : Outcomes Act Res St) (c : Config Act Res St) :
    Move Act Res → Option (Config Act Res St)
  | .start t p =>
    match c.pool t with
    | .ret () => some (c.start t p)
    | .act _ _ => none
  | .run t choice =>
    match c.pool t with
    | .ret () => none
    | .act a next =>
      match (outcomes t a c.moment.state)[choice]? with
      | none => none
      | some (r,s) => some (c.run t a r s (next r))

def play (outcomes : Outcomes Act Res St) :
    List (Move Act Res) → Config Act Res St → Option (Config Act Res St)
  | [], c => some c
  | mv :: moves, c => (play1 outcomes c mv).bind (play outcomes moves)

def Move.Allowed (ops : Ops Act Res St) (c : Config Act Res St) : Move Act Res → Prop
  | .start t p => ops t c.moment p
  | .run _ _ => True

def Move.meets (guard : ℕ → Act → Moment Act Res St → Bool) (c : Config Act Res St) :
    Move Act Res → Bool
  | .start _ _ => true
  | .run t _ =>
    match c.pool t with
    | .ret _ => true
    | .act a _ => guard t a c.moment

/-- Every program that the schedule starts is one that may be started there. -/
def Legal (outcomes : Outcomes Act Res St) (ops : Ops Act Res St) :
    List (Move Act Res) → Config Act Res St → Prop
  | [], _ => True
  | mv :: moves, c => mv.Allowed ops c ∧ ∀ d ∈ play1 outcomes c mv, Legal outcomes ops moves d

def meetsAll (outcomes : Outcomes Act Res St) (guard : ℕ → Act → Moment Act Res St → Bool) :
    List (Move Act Res) → Config Act Res St → Bool
  | [], _ => true
  | mv :: moves, c => mv.meets guard c &&
    match play1 outcomes c mv with
    | none => true
    | some d => meetsAll outcomes guard moves d

def Move.thread : Move Act Res → ℕ
  | .start t _ => t
  | .run t _ => t

def Config.next (c : Config Act Res St) (t : ℕ) (test : Act → Bool) : Bool :=
  match c.pool t with
  | .ret _ => false
  | .act a _ => test a

lemma Config.At.next {t : ℕ} {a : Act} (h : c.At t a) (test : Act → Bool) :
    c.next t test = test a := by
  obtain ⟨next,hn⟩ := h
  simp [Config.next,hn]

lemma Config.exists_at_of_next {t : ℕ} {test : Act → Bool} (h : c.next t test = true) :
    ∃ a,c.At t a ∧ test a = true := by
  unfold Config.next at h
  split at h
  · cases h
  · next a next hp => exact ⟨a,⟨next,hp⟩,h⟩

lemma Config.at_of_next [DecidableEq Act] {t : ℕ} {a : Act} (h : c.next t (fun b => b = a) = true) :
    c.At t a := by
  obtain ⟨b,hat,hb⟩ := Config.exists_at_of_next h
  exact of_decide_eq_true hb ▸ hat

def proceed (t n : ℕ) : List (Move Act Res) := List.replicate n (.run t 0)

def launch (t : ℕ) (p : Prog Act Res Unit) (n : ℕ) : List (Move Act Res) :=
  .start t p :: proceed t n

def Startable (ops : Ops Act Res St) (moves : List (Move Act Res)) : Prop :=
  ∀ mv ∈ moves, ∀ c, mv.Allowed ops c

lemma startable_proceed (ops : Ops Act Res St) (t n : ℕ) : Startable ops (proceed t n) := by
  intro mv hmv c
  rw [List.eq_of_mem_replicate hmv]
  trivial

lemma startable_launch {t : ℕ} {p : Prog Act Res Unit} (h : ∀ m,ops t m p) (n : ℕ) :
    Startable ops (launch t p n) :=
  List.forall_mem_cons.mpr ⟨fun c => h c.moment,startable_proceed ops t n⟩

variable {moves : List (Move Act Res)}

lemma Startable.append {rest : List (Move Act Res)} (h : Startable ops moves)
    (hr : Startable ops rest) : Startable ops (moves ++ rest) :=
  List.forall_mem_append.mpr ⟨h,hr⟩

variable {outcomes : Outcomes Act Res St}

lemma Startable.legal (h : Startable ops moves) (c : Config Act Res St) :
    Legal outcomes ops moves c := by
  induction moves generalizing c with
  | nil => trivial
  | cons mv moves ih =>
    exact ⟨h mv (List.mem_cons_self ..) c,
      fun d _ => ih (fun x hx => h x (List.mem_cons_of_mem mv hx)) d⟩

lemma play1_pool {mv : Move Act Res} {t : ℕ} (h : play1 outcomes c mv = some d)
    (ht : t ≠ mv.thread) : d.pool t = c.pool t := by
  cases mv with
  | start u p =>
    simp only [play1] at h
    split at h
    · cases h
      exact Function.update_of_ne ht _ _
    · cases h
  | run u choice =>
    simp only [play1] at h
    split at h
    · cases h
    · split at h
      · cases h
      · cases h
        exact Function.update_of_ne ht _ _

lemma play_pool {t : ℕ} (h : play outcomes moves c = some d) (ht : ∀ mv ∈ moves,t ≠ mv.thread) :
    d.pool t = c.pool t := by
  induction moves generalizing c with
  | nil =>
    cases h
    rfl
  | cons mv moves ih =>
    obtain ⟨e,he,hd⟩ := Option.bind_eq_some_iff.mp h
    rw [ih hd fun x hx => ht x (List.mem_cons_of_mem mv hx),
      play1_pool he (ht mv (List.mem_cons_self ..))]

lemma step_of_play1 {guard : ℕ → Act → Moment Act Res St → Bool} {mv : Move Act Res}
    (h : play1 outcomes c mv = some d) (hl : mv.Allowed ops c) (hg : mv.meets guard c = true) :
    StepWhen (fun t a m => guard t a m = true) outcomes.exec ops c d := by
  cases mv with
  | start t p =>
    simp only [play1] at h
    split at h
    next hp => cases h; exact .start hp hl
    next => cases h
  | run t choice =>
    simp only [play1] at h
    split at h
    next => cases h
    next a next hp =>
      split at h
      next => cases h
      next r s hs =>
        cases h
        exact .run hp (by simpa [Move.meets,hp] using hg) (List.mem_of_getElem? hs)

/-- A schedule that plays through is a run. -/
theorem reachWhen_of_play {guard : ℕ → Act → Moment Act Res St → Bool}
    (h : play outcomes moves c = some d) (hl : Legal outcomes ops moves c)
    (hg : meetsAll outcomes guard moves c = true) :
    ReachWhen (fun t a m => guard t a m = true) outcomes.exec ops c d := by
  induction moves generalizing c with
  | nil =>
    cases h
    exact .refl
  | cons mv moves ih =>
    obtain ⟨e,he,hd⟩ := Option.bind_eq_some_iff.mp h
    simp only [meetsAll,he,Bool.and_eq_true] at hg
    exact .head (step_of_play1 he hl.1 hg.1) (ih hd (hl.2 e he) hg.2)

lemma meetsAll_true (outcomes : Outcomes Act Res St) (moves : List (Move Act Res))
    (c : Config Act Res St) : meetsAll outcomes (fun _ _ _ => true) moves c = true := by
  induction moves generalizing c with
  | nil => rfl
  | cons mv moves ih =>
    have hmv : mv.meets (fun _ _ _ => true) c = true := by
      cases mv with
      | start t p => rfl
      | run t choice =>
        simp only [Move.meets]
        split <;> rfl
    simp only [meetsAll,hmv,Bool.true_and]
    split
    · rfl
    · exact ih _

theorem reach_of_play (h : play outcomes moves c = some d) (hl : Legal outcomes ops moves c) :
    Reach outcomes.exec ops c d :=
  (reachWhen_of_play h hl (meetsAll_true outcomes moves c)).reach

/-- What a schedule that plays through shows about the run it stands for. -/
theorem exists_of_play {view : Config Act Res St → α} {x : α}
    (h : (play outcomes moves c).map view = some x) (hl : Legal outcomes ops moves c) :
    ∃ d,Reach outcomes.exec ops c d ∧ view d = x ∧
      ∀ t,(∀ mv ∈ moves,t ≠ mv.thread) → d.pool t = c.pool t := by
  obtain ⟨d,hd,hx⟩ := Option.map_eq_some_iff.mp h
  exact ⟨d,reach_of_play hd hl,hx,fun t ht => play_pool hd ht⟩

def Config.busy (c : Config Act Res St) (threads : List ℕ) : Bool :=
  threads.any fun t => c.next t fun _ => true

/-- A schedule that plays through, meets the guard and leaves its threads idle ends quietly. -/
theorem exists_quiet_of_play_when {guard : ℕ → Act → Moment Act Res St → Bool}
    {view : Config Act Res St → α} {x : α}
    (h : (play outcomes moves c).map (fun d => (view d,d.busy (moves.map Move.thread))) =
      some (x,false)) (hl : Legal outcomes ops moves c)
    (hg : meetsAll outcomes guard moves c = true) (hq : c.Quiet) :
    ∃ d,ReachWhen (fun t a m => guard t a m = true) outcomes.exec ops c d ∧ d.Quiet ∧
      view d = x := by
  obtain ⟨d,hpl,hd⟩ := Option.map_eq_some_iff.mp h
  rw [Prod.mk.injEq] at hd
  refine ⟨d,reachWhen_of_play hpl hl hg,fun t => ?_,hd.1⟩
  by_cases ht : t ∈ moves.map Move.thread
  · have hi := List.any_eq_false.mp hd.2 t ht
    cases hp : d.pool t with
    | ret x => rfl
    | act a next => simp [Config.next,hp] at hi
  · refine (play_pool hpl fun mv hmv hne => ht ?_).trans (hq t)
    exact List.mem_map.mpr ⟨mv,hmv,hne.symm⟩

theorem exists_quiet_of_play {view : Config Act Res St → α} {x : α}
    (h : (play outcomes moves c).map (fun d => (view d,d.busy (moves.map Move.thread))) =
      some (x,false)) (hl : Legal outcomes ops moves c) (hq : c.Quiet) :
    ∃ d,Reach outcomes.exec ops c d ∧ d.Quiet ∧ view d = x := by
  obtain ⟨d,run,hqu,hd⟩ := exists_quiet_of_play_when h hl (meetsAll_true outcomes moves c) hq
  exact ⟨d,run.reach,hqu,hd⟩

end SingBoxAuth.Interleaving
