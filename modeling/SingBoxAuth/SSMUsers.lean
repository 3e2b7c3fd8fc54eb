import Mathlib.Data.Int.Notation
import Mathlib.Data.List.Basic
import Mathlib.Logic.Function.Basic

/-! The user manager of the SSM API: edits of the user map, each of which offers the whole map to a
server that can refuse it. -/
namespace SingBoxAuth.SSMUsers

inductive Counter
  | uplink
  | downlink
  | uplinkPackets
  | downlinkPackets
  | tcpSessions
  | udpSessions

inductive Call (N P : Type)
  | add (username : N) (password : P)
  | update (username : N) (password : P)
  | delete (username : N)

inductive Error (N : Type)
  | alreadyExists (username : N)
  | rejected
  deriving DecidableEq

structure UserManager (N P : Type) where
  usersMap : N → Option P
  serverUsers : N → Option P
  traffic : Counter → N → Option ℤ

variable {N P : Type} [DecidableEq N] (accepts : (N → Option P) → Bool)

namespace UserManager

/-- The traffic manager's UpdateUsers keeps the counters of the users that are listed. -/
def updateUsers (m : UserManager N P) : UserManager N P :=
  { m with traffic := fun counter user =>
      if (m.usersMap user).isSome then m.traffic counter user else none }

def postUpdate (m : UserManager N P) (updated : Bool) : UserManager N P × Option (Error N) :=
  if accepts m.usersMap then
    let m := { m with serverUsers := m.usersMap }
    (if updated then m.updateUsers else m,none)
  else (m,some .rejected)

def edited (m : UserManager N P) : Call N P → N → Option P
  | .add username password | .update username password =>
    Function.update m.usersMap username (some password)
  | .delete username => Function.update m.usersMap username none

def taken (m : UserManager N P) : Call N P → Option N
  | .add username _ => if (m.usersMap username).isSome then some username else none
  | _ => none

def perform (m : UserManager N P) (call : Call N P) : UserManager N P × Option (Error N) :=
  match m.taken call with
  | some username => (m,some (.alreadyExists username))
  | none => postUpdate accepts { m with usersMap := m.edited call } true

def forget (m : UserManager N P) (call : Call N P) : UserManager N P × Option (Error N) :=
  match m.perform accepts call with
  | (m',none) => (m',none)
  | (_,some err) => (m,some err)

def answers (step : UserManager N P → Call N P → UserManager N P × Option (Error N)) :
    UserManager N P → List (Call N P) → List (Option (Error N))
  | _, [] => []
  | m, call :: calls => (step m call).2 :: answers step (step m call).1 calls

def Throughout (cond : UserManager N P → Call N P → Prop) :
    UserManager N P → List (Call N P) → Prop
  | _, [] => True
  | m, call :: calls => cond m call ∧ Throughout cond (m.perform accepts call).1 calls

def NoTrace (m : UserManager N P) (call : Call N P) : Prop :=
  (m.perform accepts call).2 ≠ none → (m.perform accepts call).1 = m

/-- The call adds a user that is there, or does not change the map, or makes a map that the server
accepts. -/
def Harmless (m : UserManager N P) (call : Call N P) : Prop :=
  m.taken call ≠ none ∨ m.edited call = m.usersMap ∨ accepts (m.edited call) = true

end UserManager

section calls

variable {accepts} {m : UserManager N P} {call : Call N P}

lemma noTrace_iff_harmless : m.NoTrace accepts call ↔ m.Harmless accepts call := by
  cases ht : m.taken call with
  | some username =>
    simp [UserManager.NoTrace,UserManager.Harmless,UserManager.perform,ht]
  | none =>
    by_cases ha : accepts (m.edited call) = true
    · simp [UserManager.NoTrace,UserManager.Harmless,UserManager.perform,
        UserManager.postUpdate,ht,ha]
    · obtain ⟨users,server,traffic⟩ := m
      simp [UserManager.NoTrace,UserManager.Harmless,UserManager.perform,
        UserManager.postUpdate,ht,ha]

lemma forget_eq_perform (h : m.Harmless accepts call) :
    m.forget accepts call = m.perform accepts call := by
  have hn := noTrace_iff_harmless.mpr h
  rw [UserManager.NoTrace] at hn
  rw [UserManager.forget]
  rcases hp : m.perform accepts call with ⟨m',_ | err⟩
  · rfl
  · simp only [hp,ne_eq,reduceCtorEq,not_false_eq_true,forall_const] at hn
    rw [hn]

lemma throughout_congr {p q : UserManager N P → Call N P → Prop} (h : ∀ m call,p m call ↔ q m call)
    (m : UserManager N P) (calls : List (Call N P)) :
    m.Throughout accepts p calls ↔ m.Throughout accepts q calls := by
  induction calls generalizing m with
  | nil => rfl
  | cons call calls ih => exact and_congr (h m call) (ih _)

lemma answers_forget {calls : List (Call N P)}
    (h : m.Throughout accepts (UserManager.Harmless accepts) calls) :
    UserManager.answers (UserManager.forget accepts) m calls =
      UserManager.answers (UserManager.perform accepts) m calls := by
  induction calls generalizing m with
  | nil => rfl
  | cons call calls ih =>
    obtain ⟨hc,hr⟩ := h
    simp only [UserManager.answers,forget_eq_perform hc,ih hr]

end calls

/-- For every server, every state and every sequence of calls: no call that fails leaves a trace, and
every call is answered as by the manager that forgets what was refused, exactly if all calls are
harmless. -/
theorem noTrace_throughout_iff (accepts : (N → Option P) → Bool) (m : UserManager N P)
    (calls : List (Call N P)) :
    (m.Throughout accepts (UserManager.NoTrace accepts) calls ∧
      UserManager.answers (UserManager.perform accepts) m calls =
        UserManager.answers (UserManager.forget accepts) m calls) ↔
    m.Throughout accepts (UserManager.Harmless accepts) calls := by
  have hiff : m.Throughout accepts (UserManager.NoTrace accepts) calls ↔
      m.Throughout accepts (UserManager.Harmless accepts) calls :=
    throughout_congr (fun _ _ => noTrace_iff_harmless) m calls
  constructor
  · intro h
    exact hiff.mp h.1
  · intro h
    exact ⟨hiff.mpr h,(answers_forget h).symm⟩

section refused

/-- Two users; the server wants passwords of length 4. -/
def wellFormed (users : Bool → Option ℕ) : Bool :=
  [false,true].all fun user => (users user).all (· = 4)

def noUsers : UserManager Bool ℕ := ⟨fun _ => none,fun _ => none,fun _ _ => none⟩

/-- The refused password stays in the map, and the next user, whose password is fine, is refused
too. -/
theorem refused_stays :
    (noUsers.perform wellFormed (.add false 3)).2 = some .rejected ∧
      (noUsers.perform wellFormed (.add false 3)).1.usersMap false = some 3 ∧
      (noUsers.perform wellFormed (.add true 4)).2 = none ∧
      UserManager.answers (UserManager.perform wellFormed) noUsers [.add false 3,.add true 4] =
        [some .rejected,some .rejected] := by
  decide

end refused
end SingBoxAuth.SSMUsers
