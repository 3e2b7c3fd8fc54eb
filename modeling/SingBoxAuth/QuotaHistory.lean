import SingBoxAuth.QuotaUses

/-! Auxiliary variables of the quota service: what the executed actions say about
deltas in flight, drained users and the obligations of each thread. They are
computed from the history and are not part of the modelled state. -/
namespace SingBoxAuth.TrafficQuota
open Interleaving

abbrev Past := List (Event Act Act.Res)

abbrev Instant := Moment Act Act.Res World

def exec : Exec Act Act.Res World := Outcomes.exec outcomes

@[simp] lemma exec_iff (t : ℕ) (a : Act) (w : World) (r : a.Res) (w' : World) :
    exec t a w r w' ↔ (r,w') ∈ outcomes t a w := Iff.rfl

section exec

variable {t : ℕ} {a : Act} {w w' z z' : World} {r x x' : a.Res} (he : exec t a w r w')
include he

lemma exec_pair {y : a.Res × World} (h : outcomes t a w = [y]) : (r,w') = y :=
  Outcomes.exec_pair he h

lemma exec_one (h : outcomes t a w = [(x,z)]) : r = x ∧ w' = z := Outcomes.exec_one he h

lemma exec_two (h : outcomes t a w = [(x,z),(x',z')]) : r = x ∧ w' = z ∨ r = x' ∧ w' = z' :=
  Outcomes.exec_two he h

lemma exec_if {p : Prop} [Decidable p] (h : outcomes t a w = if p then [(x,z)] else []) :
    p ∧ r = x ∧ w' = z := Outcomes.exec_if he h

lemma exec_map {l : List a.Res} (h : outcomes t a w = l.map (·,w)) : r ∈ l ∧ w' = w :=
  Outcomes.exec_map he h

end exec

def heldAfter (user : String) : Event Act Act.Res → List PendingDelta → List PendingDelta
  | ⟨_,.consume u _,(key,delta)⟩, pds =>
    if u = user ∧ delta ≠ 0 then pds ++ [⟨u,key,delta⟩] else pds
  | ⟨_,.incrBy u key delta,true⟩, pds | ⟨_,.restore u _ key delta,_⟩, pds =>
    if u = user then pds.erase ⟨u,key,delta⟩ else pds
  | ⟨_,.unlock .persistAccess,_⟩, _ => []
  | _, pds => pds

/-- The deltas of a user that the running flush has consumed and neither persisted
nor given back. -/
def held (user : String) (h : Past) : List PendingDelta := h.foldr (heldAfter user) []

def drainedAfter : Event Act Act.Res → List String → List String
  | ⟨_,.takeDirty,users⟩, _ => users
  | ⟨_,.consume u _,_⟩, users => users.filter (· ≠ u)
  | ⟨_,.unlock .persistAccess,_⟩, _ => []
  | _, users => users

/-- The users that the running flush has taken off the queue and not yet visited. -/
def drained (h : Past) : List String := h.foldr drainedAfter []

def owedAfter (t : ℕ) (e : Event Act Act.Res) (owed : Option String) : Option String :=
  if e.thread ≠ t then owed
  else
    match e with
    | ⟨_,.addBytes u _ _,some _⟩ | ⟨_,.restore u _ _ _,true⟩ => some u
    | ⟨_,.markDirty _,_⟩ => none
    | _ => owed

/-- The user that a thread has changed the pending delta of and not yet queued. -/
def owed (t : ℕ) (h : Past) : Option String := h.foldr (owedAfter t) none

def originAfter (t : ℕ) (e : Event Act Act.Res) (key : Option String) : Option String :=
  if e.thread ≠ t then key
  else
    match e with
    | ⟨_,.loadMany k _,_⟩ => some k
    | _ => key

def origin (t : ℕ) (h : Past) : Option String := h.foldr (originAfter t) none

def tripDueAfter (t : ℕ) (e : Event Act Act.Res) (due : Option (String × Int64)) :
    Option (String × Int64) :=
  if e.thread ≠ t then due
  else
    match e with
    | ⟨_,.addBytes u _ _,some (_,total)⟩ => some (u,total)
    | ⟨_,.storeUsage u _ bytes,_⟩ => some (u,bytes)
    | ⟨_,.trip _ _,_⟩ | ⟨_,.storeExceeded _ _ _,_⟩ => none
    | _ => due

/-- The total that a thread has produced and not yet compared with the quota. -/
def tripDue (t : ℕ) (h : Past) : Option (String × Int64) := h.foldr (tripDueAfter t) none

def clockReadAfter (t : ℕ) (e : Event Act Act.Res) (instant : Option ℤ) : Option ℤ :=
  if e.thread ≠ t then instant
  else
    match e with
    | ⟨_,.now,now⟩ => some now
    | _ => instant

def clockRead (t : ℕ) (h : Past) : Option ℤ := h.foldr (clockReadAfter t) none

def acceptedAfter (user : String) : Event Act Act.Res → Int64 → Int64
  | ⟨_,.addBytes u _ n,some _⟩, total => if u = user then total + n else total
  | _, total => total

def accepted (user : String) (h : Past) : Int64 := h.foldr (acceptedAfter user) 0

section own

variable {t : ℕ} {e : Event Act Act.Res} {h : Past}

lemma owed_other (he : e.thread ≠ t) : owed t (e :: h) = owed t h := by simp [owed,owedAfter,he]

lemma origin_other (he : e.thread ≠ t) : origin t (e :: h) = origin t h := by
  simp [origin,originAfter,he]

lemma tripDue_other (he : e.thread ≠ t) : tripDue t (e :: h) = tripDue t h := by
  simp [tripDue,tripDueAfter,he]

lemma clockRead_other (he : e.thread ≠ t) : clockRead t (e :: h) = clockRead t h := by
  simp [clockRead,clockReadAfter,he]

end own

@[simp] lemma held_cons (user : String) (e : Event Act Act.Res) (h : Past) :
    held user (e :: h) = heldAfter user e (held user h) := rfl

@[simp] lemma drained_cons (e : Event Act Act.Res) (h : Past) :
    drained (e :: h) = drainedAfter e (drained h) := rfl

lemma owed_cons (t : ℕ) (e : Event Act Act.Res) (h : Past) :
    owed t (e :: h) = owedAfter t e (owed t h) := rfl

lemma stateFor_states (w : World) (u : String) :
    (w.stateFor u).2.states u = some (w.stateFor u).1 := by
  unfold World.stateFor
  split
  · assumption
  · simp

lemma stateFor_exec {t : ℕ} {u : String} {w w' : World} {g : ℕ}
    (he : exec t (.stateFor u) w g w') : w'.states u = some g := by
  replace he := exec_pair he rfl
  have h := stateFor_states w u
  rwa [← he] at h

lemma loadConfig_exec {t : ℕ} {u : String} {w w' : World} {config : Option QuotaConfig}
    (he : exec t (.loadConfig u) w config w') : w'.userConfigs.lookup u = config := by
  replace he := exec_one he rfl
  rw [he.1,he.2]

end SingBoxAuth.TrafficQuota
