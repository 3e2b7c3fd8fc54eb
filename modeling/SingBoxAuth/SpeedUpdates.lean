import SingBoxAuth.InterleavingContract
import SingBoxAuth.SpeedConfig

/-! Concurrent changes of the speed limiter's configuration. A change loads the
snapshot, edits a clone and stores it; four of the six service methods do so under a
mutex. -/
namespace SingBoxAuth.SpeedUpdates
open Interleaving SpeedLimiter

inductive Call
  | applyConfig (user : SpeedLimiterUser)
  | removeConfig (user : String)
  | applyDynamic (row : ConfigRow)
  | removeDynamic (user : String)
  | replaceUserSchedules (user : String) (schedules : List UserSchedule)
  | removeUserSchedules (user : String)
  deriving DecidableEq

def Call.locked : Call → Bool
  | .applyConfig _ | .removeConfig _ | .applyDynamic _ | .removeDynamic _ => true
  | .replaceUserSchedules _ _ | .removeUserSchedules _ => false

def Call.passes : Call → Bool
  | .applyDynamic row => row.noSpeed && !row.authoritative
  | _ => false

def Call.apply : Call → ConfigSnapshot → Except SpeedError ConfigSnapshot
  | .applyConfig user, s => s.applyConfig user
  | .removeConfig user, s | .removeDynamic user, s => s.removeConfig user
  | .applyDynamic row, s =>
    if row.noSpeed then
      if !row.authoritative then .ok s
      else if s.getConfig row.user = none then .ok s
      else s.removeConfig row.user
    else s.applyConfig row.toUser
  | .replaceUserSchedules user schedules, s => s.replaceUserSchedules user schedules
  | .removeUserSchedules user, s => s.removeUserSchedules user

def replay (calls : List Call) (s : ConfigSnapshot) : Except SpeedError ConfigSnapshot :=
  calls.foldlM (fun s call => call.apply s) s

lemma replay_append (calls : List Call) (call : Call) (s : ConfigSnapshot) :
    replay (calls ++ [call]) s = (replay calls s).bind call.apply := by
  simp only [replay,List.foldlM_append,List.foldlM_cons,List.foldlM_nil]
  cases calls.foldlM (fun s call => call.apply s) s with
  | error e => rfl
  | ok s' => exact bind_pure (call.apply s')

structure World where
  config : ConfigSnapshot
  applyMu : Option ℕ

inductive Act
  | lock
  | unlock
  | load
  | getConfig (call : Call) (user : String)
  | store (call : Call) (snapshot : ConfigSnapshot)
  | returned (call : Call) (success : Bool)

@[reducible] def Act.Res : Act → Type
  | .load => ConfigSnapshot
  | .getConfig _ _ => Option SpeedLimiterUser
  | _ => Unit

def outcomes (t : ℕ) : (a : Act) → World → List (a.Res × World)
  | .lock, w => if w.applyMu = none then [((),{ w with applyMu := some t })] else []
  | .unlock, w => [((),{ w with applyMu := none })]
  | .load, w => [(w.config,w)]
  | .getConfig _ user, w => [(w.config.getConfig user,w)]
  | .store _ snapshot, w => [((),{ w with config := snapshot })]
  | .returned _ _, w => [((),w)]

abbrev Op (α : Type) : Type := Prog Act Act.Res α

abbrev perform (a : Act) : Op a.Res := Prog.perform a

def storeEdit (call : Call) (edit : ConfigSnapshot → Except SpeedError ConfigSnapshot) :
    Op (Except SpeedError Unit) := do
  let snap ← perform .load
  match edit snap with
  | .error err => .ret (.error err)
  | .ok newSnap =>
    perform (.store call newSnap)
    .ret (.ok ())

def managerApplyConfig (call : Call) (user : SpeedLimiterUser) : Op (Except SpeedError Unit) :=
  if user.name = "" then .ret (.error .missingName)
  else storeEdit call (·.applyConfig user)

def managerRemoveConfig (call : Call) (user : String) : Op (Except SpeedError Unit) :=
  if user = "" then .ret (.error .missingName)
  else storeEdit call (·.removeConfig user)

def managerReplaceUserSchedules (call : Call) (user : String) (schedules : List UserSchedule) :
    Op (Except SpeedError Unit) :=
  if user = "" then .ret (.error .missingName)
  else
    match schedules.mapM parseUserSchedule with
    | .error cause => .ret (.error (.schedule cause))
    | .ok parsed => storeEdit call fun s => .ok (s.setSchedules user parsed)

def managerRemoveUserSchedules (call : Call) (user : String) : Op (Except SpeedError Unit) :=
  if user = "" then .ret (.error .missingName)
  else storeEdit call fun s => .ok (s.setSchedules user [])

def underMutex {α : Type} (p : Op α) : Op α := do
  perform .lock
  let x ← p
  perform .unlock
  .ret x

def applyDynamicLocked (row : ConfigRow) : Op (Except SpeedError Unit) :=
  if row.noSpeed then
    if !row.authoritative then .ret (.ok ())
    else do
      match ← perform (.getConfig (.applyDynamic row) row.user) with
      | none => .ret (.ok ())
      | some _ => managerRemoveConfig (.applyDynamic row) row.user
  else managerApplyConfig (.applyDynamic row) row.toUser

def Call.body : Call → Op (Except SpeedError Unit)
  | .applyConfig user => underMutex (managerApplyConfig (.applyConfig user) user)
  | .removeConfig user => underMutex (managerRemoveConfig (.removeConfig user) user)
  | .applyDynamic row => underMutex (applyDynamicLocked row)
  | .removeDynamic user => underMutex (managerRemoveConfig (.removeDynamic user) user)
  | .replaceUserSchedules user schedules =>
    managerReplaceUserSchedules (.replaceUserSchedules user schedules) user schedules
  | .removeUserSchedules user => managerRemoveUserSchedules (.removeUserSchedules user) user

def Call.run (call : Call) : Op Unit := do
  let result ← call.body
  perform (.returned call result.isOk)

def updateOps : Ops Act Act.Res World := fun _ _ p => ∃ call : Call, p = call.run

abbrev Past := List (Event Act Act.Res)

abbrev Instant := Moment Act Act.Res World

def exec : Exec Act Act.Res World := Outcomes.exec outcomes

@[simp] lemma exec_iff (t : ℕ) (a : Act) (w : World) (r : a.Res) (w' : World) :
    exec t a w r w' ↔ (r,w') ∈ outcomes t a w := Iff.rfl

section exec

variable {t : ℕ} {a : Act} {w w' z : World} {r x : a.Res} (he : exec t a w r w')
include he

lemma exec_one (h : outcomes t a w = [(x,z)]) : r = x ∧ w' = z := Outcomes.exec_one he h

lemma exec_if {p : Prop} [Decidable p] (h : outcomes t a w = if p then [(x,z)] else []) :
    p ∧ r = x ∧ w' = z := Outcomes.exec_if he h

end exec

def effectsAfter : Event Act Act.Res → List (ℕ × Call) → List (ℕ × Call)
  | ⟨t,.store call _,_⟩, calls | ⟨t,.getConfig call _,none⟩, calls => (t,call) :: calls
  | ⟨t,.returned call success,_⟩, calls =>
    if success && call.passes then (t,call) :: calls else calls
  | _, calls => calls

/-- The calls in the order in which they take effect, latest first: a change at its
store, a call that finds nothing to remove at its lookup. -/
def effects (h : Past) : List (ℕ × Call) := h.foldr effectsAfter []

def resultsAfter : Event Act Act.Res → List (ℕ × Call) → List (ℕ × Call)
  | ⟨t,.returned call success,_⟩, calls => if success then (t,call) :: calls else calls
  | _, calls => calls

def results (h : Past) : List (ℕ × Call) := h.foldr resultsAfter []

def loadedAfter (t : ℕ) (e : Event Act Act.Res) (base : Option ConfigSnapshot) :
    Option ConfigSnapshot :=
  if e.thread ≠ t then base
  else
    match e with
    | ⟨_,.load,snap⟩ => some snap
    | ⟨_,.lock,_⟩ | ⟨_,.store _ _,_⟩ => none
    | _ => base

def loaded (t : ℕ) (h : Past) : Option ConfigSnapshot := h.foldr (loadedAfter t) none

def storedSince (t : ℕ) : Past → Bool
  | [] => false
  | ⟨u,.load,_⟩ :: h => if u = t then false else storedSince t h
  | ⟨_,.store _ _,_⟩ :: _ => true
  | _ :: h => storedSince t h

/-- A store comes while nobody has stored since the thread's load. -/
def notStale (t : ℕ) (a : Act) (m : Instant) : Bool :=
  match a with
  | .store _ _ => !storedSince t m.history
  | _ => true

def Holds (t : ℕ) (m : Instant) : Prop := m.state.applyMu = some t

def Needs (t : ℕ) : Act → Instant → Prop
  | .store call snap, m =>
    (∃ base, loaded t m.history = some base ∧ call.apply base = .ok snap) ∧
      (call.locked = true → Holds t m)
  | .getConfig call user, _ => ∀ s : ConfigSnapshot, s.getConfig user = none → call.apply s = .ok s
  | .unlock, m => Holds t m
  | _, _ => True

/-- A thread edits what it has loaded, and that is the current snapshot unless somebody
has stored since. -/
def Fresh (m : Instant) : Prop := ∀ t base, loaded t m.history = some base →
  storedSince t m.history = false → base = m.state.config

section history

variable {t u : ℕ} {a : Act} {r : a.Res} {h : Past}

@[simp] lemma effects_cons (e : Event Act Act.Res) (h : Past) :
    effects (e :: h) = effectsAfter e (effects h) := rfl

@[simp] lemma results_cons (e : Event Act Act.Res) (h : Past) :
    results (e :: h) = resultsAfter e (results h) := rfl

lemma loaded_cons (t : ℕ) (e : Event Act Act.Res) (h : Past) :
    loaded t (e :: h) = loadedAfter t e (loaded t h) := rfl

lemma loaded_other (hu : u ≠ t) : loaded t (⟨u,a,r⟩ :: h) = loaded t h := by
  simp [loaded_cons,loadedAfter,hu]

end history

lemma Fresh.step {t : ℕ} {a : Act} {m : Instant} {r : a.Res} {w : World} (h : Fresh m)
    (he : exec t a m.state r w) : Fresh (m.after t a r w) := by
  intro u base hl hs
  cases a with
  | load =>
    obtain ⟨rfl,rfl⟩ := exec_one he rfl
    by_cases hu : t = u
    · simpa [loaded_cons,loadedAfter,hu,eq_comm] using hl
    · simp only [Moment.after_history,loaded_other hu] at hl
      simp only [Moment.after_history,storedSince,hu,if_false] at hs
      exact h u base hl hs
  | store call snap => cases hs
  | lock =>
    obtain ⟨-,-,rfl⟩ := exec_if he rfl
    by_cases hu : t = u
    · simp [loaded_cons,loadedAfter,hu] at hl
    · exact h u base (loaded_other (a := .lock) (r := ()) hu ▸ hl) hs
  | unlock | getConfig _ _ | returned _ _ =>
    obtain ⟨-,rfl⟩ := exec_one he rfl
    refine h u base ?_ hs
    simpa [loaded_cons,loadedAfter] using hl

def updateContract : Contract Act Act.Res World where
  exec := exec
  inv := Fresh
  pre := Needs
  keeps := fun hi _ he => hi.step he

def mine (t : ℕ) (calls : List (ℕ × Call)) : List (ℕ × Call) := calls.filter (·.1 = t)

/-- The calls of the thread that took effect and have not returned yet. -/
def Due (t : ℕ) (due : List (ℕ × Call)) (m : Instant) : Prop :=
  mine t (effects m.history) = due ++ mine t (results m.history)

section triples

variable {t : ℕ} {due : List (ℕ × Call)}

lemma due_other {u : ℕ} {a : Act} {m : Instant} {r : a.Res} {w : World} (hu : u ≠ t)
    (h : Due t due m) : Due t due (m.after u a r w) := by
  have hne : ∀ {p : Bool} {call : Call} {calls : List (ℕ × Call)},
      mine t (if p then (u,call) :: calls else calls) = mine t calls := fun {p call calls} => by
    cases p <;> simp [mine,hu]
  have he : mine t (effects (⟨u,a,r⟩ :: m.history)) = mine t (effects m.history) := by
    cases a with
    | store _ _ => exact hne (p := true)
    | getConfig _ _ =>
      cases r with
      | none => exact hne (p := true)
      | some _ => rfl
    | returned _ _ => exact hne
    | _ => rfl
  have hr : mine t (results (⟨u,a,r⟩ :: m.history)) = mine t (results m.history) := by
    cases a with
    | returned _ _ => exact hne
    | _ => rfl
  rw [Due,Moment.after_history,he,hr]
  exact h

lemma stable_due : updateContract.Stable t (Due t due) :=
  Contract.stable_of_step fun _ _ _ _ _ hu _ _ _ h => due_other hu h

lemma stable_holds : updateContract.Stable t (Holds t) :=
  Contract.stable_of_step fun m u a r w hu _ hp he h => by
    have he' : exec u a m.state r w := he
    have hm : m.state.applyMu = some t := h
    cases a with
    | lock => simp [exec_iff,outcomes,hm] at he'
    | unlock =>
      have ho : m.state.applyMu = some u := hp
      exact absurd (Option.some.inj (ho.symm.trans hm)) hu
    | load | getConfig _ _ | store _ _ | returned _ _ =>
      obtain ⟨-,rfl⟩ := exec_one he' rfl
      exact hm

def Guarded (t : ℕ) (call : Call) (m : Instant) : Prop := call.locked = true → Holds t m

lemma stable_guarded {call : Call} : updateContract.Stable t (Guarded t call) :=
  fun m m' hr h hl => stable_holds m m' hr (h hl)

lemma stable_loaded {base : ConfigSnapshot} :
    updateContract.Stable t fun m => loaded t m.history = some base :=
  Contract.stable_of_step fun _ _ _ _ _ hu _ _ _ h => (loaded_other hu).trans h

lemma holds_kept {a : Act} {m : Instant} {r : a.Res} {w : World} (he : exec t a m.state r w)
    (ha : a ≠ .unlock) (h : Holds t m) : Holds t (m.after t a r w) := by
  have hm : m.state.applyMu = some t := h
  cases a with
  | lock => simp [exec_iff,outcomes,hm] at he
  | unlock => exact absurd rfl ha
  | load | getConfig _ _ | store _ _ | returned _ _ =>
    obtain ⟨-,rfl⟩ := exec_one he rfl
    exact hm

/-- What a call leaves behind: it took effect exactly if it succeeds. -/
def Outcome (t : ℕ) (call : Call) (result : Except SpeedError Unit) (m : Instant) : Prop :=
  Due t (if result.isOk then [(t,call)] else []) m ∧ Guarded t call m

lemma storeEdit_triple {call : Call} {edit : ConfigSnapshot → Except SpeedError ConfigSnapshot}
    (hed : ∀ base snap,edit base = .ok snap → call.apply base = .ok snap) :
    updateContract.Triple t (fun m => Due t [] m ∧ Guarded t call m) (storeEdit call edit)
      (Outcome t call) := by
  refine .bind (R := fun snap m => (Due t [] m ∧ Guarded t call m) ∧ loaded t m.history = some snap)
    (.perform (stable_due.and stable_guarded) fun m _ hm => ⟨trivial,fun snap w he _ => ?_⟩)
    fun snap => ?_
  · refine ⟨⟨hm.1,fun hl => holds_kept (a := .load) he nofun (hm.2 hl)⟩,?_⟩
    simp [loaded_cons,loadedAfter]
  · cases hs : edit snap with
    | error err => exact .ret fun _ _ h => h.1
    | ok newSnap =>
      refine .bind (R := fun _ m => Due t [(t,call)] m ∧ Guarded t call m)
        (.perform ((stable_due.and stable_guarded).and stable_loaded) fun m _ hm => ?_)
        fun _ => .ret fun _ _ h => h
      refine ⟨⟨⟨snap,hm.2,hed snap newSnap hs⟩,hm.1.2⟩,fun r w he _ => ⟨?_,fun hl => ?_⟩⟩
      · have hd : mine t (effects m.history) = mine t (results m.history) := hm.1.1
        simpa [Due,mine,effectsAfter,resultsAfter] using hd
      · exact holds_kept (a := .store call newSnap) he nofun (hm.1.2 hl)

lemma failed_triple {call : Call} {err : SpeedError} :
    updateContract.Triple t (fun m => Due t [] m ∧ Guarded t call m) (.ret (.error err))
      (Outcome t call) :=
  .ret fun _ _ h => h

lemma managerApplyConfig_triple {call : Call} {user : SpeedLimiterUser}
    (hca : ∀ s,call.apply s = s.applyConfig user) :
    updateContract.Triple t (fun m => Due t [] m ∧ Guarded t call m) (managerApplyConfig call user)
      (Outcome t call) := by
  unfold managerApplyConfig
  split_ifs
  · exact failed_triple
  · exact storeEdit_triple fun base snap h => (hca base).trans h

lemma managerRemoveConfig_triple {call : Call} {user : String}
    (hca : ∀ s,user ≠ "" → call.apply s = s.removeConfig user) :
    updateContract.Triple t (fun m => Due t [] m ∧ Guarded t call m) (managerRemoveConfig call user)
      (Outcome t call) := by
  unfold managerRemoveConfig
  split_ifs with hn
  · exact failed_triple
  · exact storeEdit_triple fun base snap h => (hca base hn).trans h

lemma apply_of_authoritative {row : ConfigRow} (hr : row.noSpeed = true)
    (ha : row.authoritative = true) (s : ConfigSnapshot) (hn : row.user ≠ "") :
    (Call.applyDynamic row).apply s = s.removeConfig row.user := by
  simp only [Call.apply,hr,ha,if_true,Bool.not_true,Bool.false_eq_true,if_false]
  split_ifs with hno
  · exact (ConfigSnapshot.removeConfig_of_getConfig_none hno hn).symm
  · rfl

lemma underMutex_triple {call : Call} {p : Op (Except SpeedError Unit)}
    {Q : Except SpeedError Unit → Instant → Prop}
    (hp : updateContract.Triple t (fun m => Due t [] m ∧ Guarded t call m) p
      fun r m => Q r m ∧ Holds t m)
    (hQ : ∀ r,updateContract.Stable t (Q r))
    (hu : ∀ r m w,Q r m → exec t .unlock m.state () w → Q r (m.after t .unlock () w)) :
    updateContract.Triple t (Due t []) (underMutex p) Q := by
  refine .bind (R := fun _ m => Due t [] m ∧ Guarded t call m)
    (.perform stable_due fun m _ hm => ⟨trivial,fun r w he _ => ⟨hm,fun _ => ?_⟩⟩) fun _ => ?_
  · have he' : exec t .lock m.state r w := he
    obtain ⟨-,he'⟩ := exec_if he' rfl
    exact he'.2 ▸ rfl
  · refine .bind hp fun result => .bind (R := fun _ => Q result)
      (.perform ((hQ result).and stable_holds) fun m _ hm => ⟨hm.2,fun _ w he _ => ?_⟩)
      fun _ => .ret fun _ _ h => h
    exact hu result m w hm.1 he

/-- The call has taken effect, unless it failed or has nothing to do. -/
def Ended (t : ℕ) (call : Call) (result : Except SpeedError Unit) : Instant → Prop :=
  Due t (if result.isOk && !call.passes then [(t,call)] else [])

lemma Outcome.ended {call : Call} (hca : call.passes = false) {result : Except SpeedError Unit}
    {m : Instant} (h : Outcome t call result m) : Ended t call result m := by
  simpa [Ended,hca] using h.1

lemma applyDynamicLocked_triple (row : ConfigRow) :
    updateContract.Triple t (fun m => Due t [] m ∧ Guarded t (.applyDynamic row) m)
      (applyDynamicLocked row)
      fun r m => Ended t (.applyDynamic row) r m ∧ Guarded t (.applyDynamic row) m := by
  unfold applyDynamicLocked
  split_ifs with hr ha
  · exact .ret fun m _ h => ⟨by simpa [Ended,Call.passes,hr,ha] using h.1,h.2⟩
  · rw [Bool.not_eq_true',Bool.not_eq_false] at ha
    have hp : (Call.applyDynamic row).passes = false := by simp [Call.passes,ha]
    refine .bind (R := fun (found : Option SpeedLimiterUser) m =>
      Due t (if found.isSome then [] else [(t,.applyDynamic row)]) m ∧
        Guarded t (.applyDynamic row) m)
      (.perform (stable_due.and stable_guarded) fun m _ hm => ⟨fun s hs => ?_,fun found w he _ => ?_⟩)
      fun found => ?_
    · simp [Call.apply,hr,ha,hs]
    · refine ⟨?_,fun hl => holds_kept he nofun (hm.2 hl)⟩
      have hd : mine t (effects m.history) = mine t (results m.history) := hm.1
      cases found with
      | none => simpa [Due,mine,effectsAfter,resultsAfter] using hd
      | some _ => exact hd
    · cases found with
      | none => exact .ret fun m _ h => ⟨by simpa [Ended,hp,Except.isOk,Except.toBool] using h.1,h.2⟩
      | some _ =>
        exact (managerRemoveConfig_triple fun s hn => apply_of_authoritative hr ha s hn).conseq
          (fun _ _ h => h) fun _ _ _ h => ⟨h.ended hp,h.2⟩
  · have hp : (Call.applyDynamic row).passes = false := by
      simp [Call.passes,Bool.not_eq_true] at hr ⊢
      simp [hr]
    refine (managerApplyConfig_triple fun s => ?_).conseq (fun _ _ h => h)
      fun _ _ _ h => ⟨h.ended hp,h.2⟩
    simp [Call.apply,hr]

lemma body_triple (call : Call) : updateContract.Triple t (Due t []) call.body (Ended t call) := by
  have hmu : ∀ {call : Call} {p : Op (Except SpeedError Unit)},call.locked = true →
      updateContract.Triple t (fun m => Due t [] m ∧ Guarded t call m) p
        (fun r m => Ended t call r m ∧ Guarded t call m) →
      updateContract.Triple t (Due t []) (underMutex p) (Ended t call) := fun {call p} hl hp =>
    underMutex_triple (hp.conseq (fun _ _ h => h) fun _ _ _ h => ⟨h.1,h.2 hl⟩)
      (fun _ => stable_due) fun _ _ _ h _ => h
  have he : ∀ {call : Call} {p : Op (Except SpeedError Unit)},call.passes = false →
      updateContract.Triple t (fun m => Due t [] m ∧ Guarded t call m) p (Outcome t call) →
      updateContract.Triple t (fun m => Due t [] m ∧ Guarded t call m) p
        (fun r m => Ended t call r m ∧ Guarded t call m) := fun {call p} hc hp =>
    hp.conseq (fun _ _ h => h) fun _ _ _ h => ⟨h.ended hc,h.2⟩
  have hf : ∀ {call : Call} {p : Op (Except SpeedError Unit)},call.locked = false →
      updateContract.Triple t (fun m => Due t [] m ∧ Guarded t call m) p
        (fun r m => Ended t call r m ∧ Guarded t call m) →
      updateContract.Triple t (Due t []) p (Ended t call) := fun {call p} hl hp =>
    hp.conseq (fun _ _ h => ⟨h,fun hl' => absurd hl' (by simp [hl])⟩) fun _ _ _ h => h.1
  cases call with
  | applyConfig user => exact hmu rfl (he rfl (managerApplyConfig_triple fun _ => rfl))
  | removeConfig user | removeDynamic user =>
    exact hmu rfl (he rfl (managerRemoveConfig_triple fun _ _ => rfl))
  | applyDynamic row => exact hmu rfl (applyDynamicLocked_triple row)
  | replaceUserSchedules user schedules =>
    refine hf rfl (he rfl ?_)
    simp only [Call.body,managerReplaceUserSchedules]
    split_ifs with hn
    · exact failed_triple
    · cases hpa : schedules.mapM parseUserSchedule with
      | error cause => exact failed_triple
      | ok parsed =>
        refine storeEdit_triple fun base snap h => ?_
        simpa [Call.apply,ConfigSnapshot.replaceUserSchedules,hn,hpa] using h
  | removeUserSchedules user =>
    refine hf rfl (he rfl ?_)
    simp only [Call.body,managerRemoveUserSchedules]
    split_ifs with hn
    · exact failed_triple
    · refine storeEdit_triple fun base snap h => ?_
      simpa [Call.apply,ConfigSnapshot.removeUserSchedules,hn] using h

lemma run_triple (call : Call) : updateContract.Triple t (Due t []) call.run fun _ => Due t [] := by
  refine .bind (body_triple call) fun result => .perform stable_due fun m _ hm =>
    ⟨trivial,fun _ w _ _ => ?_⟩
  cases hr : result.isOk <;> cases hp : call.passes <;>
    simpa [Due,Ended,mine,effectsAfter,resultsAfter,hr,hp] using hm

end triples

def Serial (start : ConfigSnapshot) (m : Instant) : Prop :=
  replay ((effects m.history).reverse.map Prod.snd) start = .ok m.state.config

lemma Serial.extend {start s : ConfigSnapshot} {t : ℕ} {call : Call} {calls : List (ℕ × Call)}
    {s' : ConfigSnapshot} (h : replay (calls.reverse.map Prod.snd) start = .ok s)
    (hc : call.apply s = .ok s') :
    replay (((t,call) :: calls).reverse.map Prod.snd) start = .ok s' := by
  rw [List.reverse_cons,List.map_append,List.map_singleton,replay_append,h]
  exact hc

theorem Serial.step {start : ConfigSnapshot} {t : ℕ} {a : Act} {m : Instant} {r : a.Res} {w : World}
    (h : Serial start m) (hi : Fresh m) (hp : Needs t a m) (hg : notStale t a m = true)
    (he : exec t a m.state r w) : Serial start (m.after t a r w) := by
  cases a with
  | store call snap =>
    obtain ⟨⟨base,hl,hb⟩,-⟩ := hp
    obtain ⟨-,rfl⟩ := exec_one he rfl
    have hcu : base = m.state.config := hi t base hl (by simpa [notStale] using hg)
    exact Serial.extend h (hcu ▸ hb)
  | getConfig call user =>
    obtain ⟨rfl,rfl⟩ := exec_one he rfl
    unfold Serial at h ⊢
    cases hf : m.state.config.getConfig user with
    | none => exact Serial.extend h (hp _ hf)
    | some _ => exact h
  | returned call success =>
    obtain ⟨-,rfl⟩ := exec_one he rfl
    unfold Serial at h ⊢
    simp only [Moment.after_history,effects_cons,effectsAfter]
    split_ifs with hpa
    · refine Serial.extend h ?_
      rw [Bool.and_eq_true] at hpa
      cases call <;> first | exact Bool.noConfusion hpa.2 | skip
      next row =>
        have hr := hpa.2
        simp only [Call.passes,Bool.and_eq_true,Bool.not_eq_true'] at hr
        simp [Call.apply,hr.1,hr.2]
    · exact h
  | lock =>
    obtain ⟨-,-,rfl⟩ := exec_if he rfl
    exact h
  | unlock | load =>
    obtain ⟨-,rfl⟩ := exec_one he rfl
    exact h

lemma perm_of_mine {l l' : List (ℕ × Call)} (h : ∀ t,mine t l = mine t l') : l.Perm l' := by
  rw [List.perm_iff_count]
  intro x
  have hco : ∀ l : List (ℕ × Call),l.count x = (mine x.1 l).count x := fun l =>
    (List.count_filter (by simp)).symm
  rw [hco l,hco l',h]

/-- The calls that have returned success, in any order of their returns. -/
def succeeded (h : Past) : List Call := (results h).map Prod.snd

lemma update_safe (t : ℕ) (m : Instant) (p : Op Unit) (hp : updateOps t m p) (hi : Fresh m)
    (hm : Due t [] m) : updateContract.Safe t (fun _ => Due t []) p m := by
  obtain ⟨call,rfl⟩ := hp
  exact run_triple call m hi hm

lemma effects_perm {ops : Ops Act Act.Res World} (ho : ∀ t m p,ops t m p → updateOps t m p)
    {w : World} {c : Config Act Act.Res World} (run : Reach exec ops (Config.idle w) c)
    (hq : c.Quiet) :
    ((effects c.moment.history).reverse.map Prod.snd).Perm (succeeded c.moment.history) := by
  obtain ⟨-,hs⟩ := Contract.sound_idle (C := updateContract) (fun _ => stable_due)
    (fun t m p hp hi hm => update_safe t m p (ho t m p hp) hi hm) run nofun fun _ => rfl
  have hpe : (effects c.moment.history).Perm (results c.moment.history) :=
    perm_of_mine fun t => by
      have h := hs t
      rw [hq t] at h
      exact h
  exact ((List.reverse_perm _).trans hpe).map Prod.snd

/-- In every run in which each store comes while nobody else has stored since the load,
the snapshot at the end is that of all successful calls in some order. -/
theorem updates_serial {start : ConfigSnapshot} {c : Config Act Act.Res World}
    (run : ReachWhen (fun t a m => notStale t a m = true) exec updateOps
      (Config.idle ⟨start,none⟩) c) (hq : c.Quiet) :
    ∃ order : List Call, order.Perm (succeeded c.moment.history) ∧
      replay order start = .ok c.moment.state.config := by
  refine ⟨_,effects_perm (fun _ _ _ h => h) (ReachWhen.reach run) hq,?_⟩
  exact Contract.sound_also (C := updateContract) (fun _ => stable_due) update_safe
    (fun _ _ _ _ _ h => h) (fun _ _ p _ => Prog.uses_true p)
    (fun _ _ _ _ _ hi hp _ hg he h => Serial.step h hi hp hg he) run nofun (fun _ => rfl)
    (fun _ => trivial) rfl

def lockedOps : Ops Act Act.Res World := fun _ _ p => ∃ call : Call, call.locked = true ∧ p = call.run

def Act.StoresLocked : Act → Prop
  | .store call _ => call.locked = true
  | _ => True

lemma storeEdit_uses {call : Call} (hc : call.locked = true)
    (edit : ConfigSnapshot → Except SpeedError ConfigSnapshot) :
    (storeEdit call edit).Uses Act.StoresLocked := by
  refine Prog.Uses.bind (Prog.uses_perform.mpr trivial) fun snap => ?_
  cases edit snap with
  | error _ => trivial
  | ok newSnap => exact Prog.Uses.bind (Prog.uses_perform.mpr hc) fun _ => trivial

lemma managerApplyConfig_uses {call : Call} (hc : call.locked = true) (user : SpeedLimiterUser) :
    (managerApplyConfig call user).Uses Act.StoresLocked := by
  unfold managerApplyConfig
  split_ifs
  · trivial
  · exact storeEdit_uses hc _

lemma managerRemoveConfig_uses {call : Call} (hc : call.locked = true) (user : String) :
    (managerRemoveConfig call user).Uses Act.StoresLocked := by
  unfold managerRemoveConfig
  split_ifs
  · trivial
  · exact storeEdit_uses hc _

lemma underMutex_uses {p : Op (Except SpeedError Unit)} (hp : p.Uses Act.StoresLocked) :
    (underMutex p).Uses Act.StoresLocked :=
  Prog.Uses.bind (Prog.uses_perform.mpr trivial) fun _ => hp.bind fun _ =>
    Prog.Uses.bind (Prog.uses_perform.mpr trivial) fun _ => trivial

lemma lockedOps_uses (t : ℕ) (m : Instant) (p : Op Unit) (h : lockedOps t m p) :
    p.Uses Act.StoresLocked := by
  obtain ⟨call,hc,rfl⟩ := h
  refine Prog.Uses.bind ?_ fun _ => Prog.uses_perform.mpr trivial
  cases call with
  | applyConfig user => exact underMutex_uses (managerApplyConfig_uses rfl user)
  | removeConfig user | removeDynamic user =>
    exact underMutex_uses (managerRemoveConfig_uses rfl user)
  | applyDynamic row =>
    refine underMutex_uses ?_
    unfold applyDynamicLocked
    split_ifs
    · trivial
    · refine Prog.Uses.bind (Prog.uses_perform.mpr trivial) fun found => ?_
      cases found with
      | none => trivial
      | some _ => exact managerRemoveConfig_uses rfl row.user
    · exact managerApplyConfig_uses rfl _
  | replaceUserSchedules _ _ | removeUserSchedules _ => cases hc

def Exclusive (m : Instant) : Prop := ∀ t base, Holds t m → loaded t m.history = some base →
  storedSince t m.history = false

theorem Exclusive.step {t : ℕ} {a : Act} {m : Instant} {r : a.Res} {w : World} (h : Exclusive m)
    (hp : Needs t a m) (ha : a.StoresLocked) (he : exec t a m.state r w) :
    Exclusive (m.after t a r w) := by
  intro u base hu hl
  cases a with
  | lock =>
    obtain ⟨-,-,rfl⟩ := exec_if he rfl
    obtain rfl : t = u := Option.some.inj hu
    simp [loaded_cons,loadedAfter] at hl
  | unlock =>
    obtain ⟨-,rfl⟩ := exec_one he rfl
    cases hu
  | store call snap =>
    have ho := hp.2 ha
    obtain ⟨-,rfl⟩ := exec_one he rfl
    obtain rfl : t = u := Option.some.inj (ho.symm.trans hu)
    simp [loaded_cons,loadedAfter] at hl
  | load =>
    obtain ⟨rfl,rfl⟩ := exec_one he rfl
    by_cases ht : t = u
    · simp [storedSince,ht]
    · simp only [Moment.after_history,storedSince,ht,if_false]
      exact h u base hu (loaded_other (a := .load) ht ▸ hl)
  | getConfig _ _ | returned _ _ =>
    obtain ⟨-,rfl⟩ := exec_one he rfl
    refine h u base hu ?_
    simpa [loaded_cons,loadedAfter] using hl

/-- The methods that hold the mutex lose no update among themselves. -/
theorem locked_updates_serial {start : ConfigSnapshot} {c : Config Act Act.Res World}
    (run : Reach exec lockedOps (Config.idle ⟨start,none⟩) c) (hq : c.Quiet) :
    ∃ order : List Call,order.Perm (succeeded c.moment.history) ∧
      replay order start = .ok c.moment.state.config := by
  have ho : ∀ t m p,lockedOps t m p → updateOps t m p := fun _ _ _ ⟨call,_,hp⟩ => ⟨call,hp⟩
  refine ⟨_,effects_perm ho run hq,?_⟩
  have hal : Serial start c.moment ∧ Exclusive c.moment :=
    Contract.sound_also (C := updateContract) (X := fun m => Serial start m ∧ Exclusive m)
      (fun _ => stable_due) (fun t m p hp => update_safe t m p (ho t m p hp))
      (fun _ _ _ _ _ h => h) lockedOps_uses (fun t a m r w hi hp ha _ he h => by
        refine ⟨Serial.step h.1 hi hp ?_ he,h.2.step hp ha he⟩
        cases a with
        | store call snap =>
          obtain ⟨⟨base,hl,-⟩,how⟩ := hp
          simp [notStale,h.2 t base (how ha) hl]
        | _ => rfl) run nofun (fun _ => rfl) (fun _ => trivial) ⟨rfl,nofun⟩
  exact hal.1

section runs

def emptySnapshot : ConfigSnapshot :=
  ⟨none,fun _ => none,fun _ => none,fun _ => none,fun _ => none,[],fun _ => [],
    10 * minute,ConfigSnapshot.coherent_none,ConfigSnapshot.named_none⟩

def limitAlice : Call := .applyConfig ⟨"alice","",10,10,none⟩

def scheduleBob : Call := .replaceUserSchedules "bob" [⟨"08:00-18:00",5,5⟩]

/-- Bob's schedule is stored between the load and the store of alice's limit. -/
def overlapMoves : List (Move Act Act.Res) :=
  launch 1 limitAlice.run 2 ++ launch 2 scheduleBob.run 3 ++ proceed 1 3

lemma overlapMoves_startable : Startable updateOps overlapMoves :=
  ((startable_launch (fun _ => ⟨limitAlice,rfl⟩) 2).append
    (startable_launch (fun _ => ⟨scheduleBob,rfl⟩) 3)).append (startable_proceed _ 1 3)

/-- Both calls succeed, and bob has no schedule, which no order of the calls explains. -/
theorem update_lost : ∃ c, Reach exec updateOps (Config.idle ⟨emptySnapshot,none⟩) c ∧ c.Quiet ∧
    succeeded c.moment.history = [limitAlice,scheduleBob] ∧
    ∀ order : List Call, order.Perm (succeeded c.moment.history) →
      replay order emptySnapshot ≠ .ok c.moment.state.config := by
  have hp : (play outcomes overlapMoves (Config.idle ⟨emptySnapshot,none⟩)).map (fun c =>
      ((succeeded c.moment.history,c.moment.state.config.userSchedules "bob"),
        c.busy (overlapMoves.map Move.thread))) =
      some (([limitAlice,scheduleBob],[]),false) := by
    decide +kernel
  obtain ⟨c,run,hq,hc⟩ := exists_quiet_of_play hp (overlapMoves_startable.legal _)
    (Config.quiet_idle _)
  rw [Prod.mk.injEq] at hc
  refine ⟨c,run,hq,hc.1,fun order ho heq => ?_⟩
  have hk : ∀ order ∈ [limitAlice,scheduleBob].permutations',
      (replay order emptySnapshot).toOption.map (fun s => (s.userSchedules "bob").length) =
        some 1 := by
    decide +kernel
  have hon := hk order (List.mem_permutations'.mpr (hc.1 ▸ ho))
  rw [heq] at hon
  simp [Except.toOption,hc.2] at hon

def sequentialMoves : List (Move Act Act.Res) :=
  launch 1 limitAlice.run 5 ++ launch 2 scheduleBob.run 3

lemma sequentialMoves_startable : Startable updateOps sequentialMoves :=
  (startable_launch (fun _ => ⟨limitAlice,rfl⟩) 5).append
    (startable_launch (fun _ => ⟨scheduleBob,rfl⟩) 3)

/-- One call after the other. -/
theorem updates_serial_alice : ∃ c, ReachWhen (fun t a m => notStale t a m = true) exec updateOps
    (Config.idle ⟨emptySnapshot,none⟩) c ∧ c.Quiet ∧
    succeeded c.moment.history = [scheduleBob,limitAlice] ∧
    ∃ order : List Call, order.Perm (succeeded c.moment.history) ∧
      replay order emptySnapshot = .ok c.moment.state.config := by
  have hp : (play outcomes sequentialMoves (Config.idle ⟨emptySnapshot,none⟩)).map (fun c =>
      (succeeded c.moment.history,c.busy (sequentialMoves.map Move.thread))) =
      some ([scheduleBob,limitAlice],false) := by
    decide +kernel
  have hg : meetsAll outcomes notStale sequentialMoves
      (Config.idle ⟨emptySnapshot,none⟩) = true := by
    decide +kernel
  obtain ⟨c,run,hq,hc⟩ := exists_quiet_of_play_when hp (sequentialMoves_startable.legal _)
    hg (Config.quiet_idle _)
  exact ⟨c,run,hq,hc,updates_serial run hq⟩

def lockedMoves : List (Move Act Act.Res) :=
  launch 1 limitAlice.run 5 ++ launch 2 limitAlice.run 5

theorem locked_updates_serial_alice : ∃ c,Reach exec lockedOps
    (Config.idle ⟨emptySnapshot,none⟩) c ∧ c.Quiet ∧
    succeeded c.moment.history = [limitAlice,limitAlice] ∧
    ∃ order : List Call,order.Perm (succeeded c.moment.history) ∧
      replay order emptySnapshot = .ok c.moment.state.config := by
  have hp : (play outcomes lockedMoves (Config.idle ⟨emptySnapshot,none⟩)).map (fun c =>
      (succeeded c.moment.history,c.busy (lockedMoves.map Move.thread))) =
      some ([limitAlice,limitAlice],false) := by
    decide +kernel
  have hs : Startable lockedOps lockedMoves :=
    (startable_launch (fun _ => ⟨limitAlice,rfl,rfl⟩) 5).append
      (startable_launch (fun _ => ⟨limitAlice,rfl,rfl⟩) 5)
  obtain ⟨c,run,hq,hc⟩ := exists_quiet_of_play hp (hs.legal _) (Config.quiet_idle _)
  exact ⟨c,run,hq,hc,locked_updates_serial run hq⟩

end runs

end SingBoxAuth.SpeedUpdates
