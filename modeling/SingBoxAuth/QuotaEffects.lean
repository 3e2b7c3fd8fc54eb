import SingBoxAuth.QuotaTrafficOps

/-! What an action of the traffic does to the state and the records of one user. -/
namespace SingBoxAuth.TrafficQuota
open Interleaving

/-- The actions that may change the state, a record or a delta of the user. -/
def Act.Touches (u : String) : Act → Prop
  | .stateFor v | .setPeriodKeyIfEmpty v _ _ | .addBytes v _ _ | .consume v _ | .restore v _ _ _
  | .rollPeriod v _ _ | .storeUsage v _ _ | .storeExceeded v _ _ | .trip v _ | .incrBy v _ _
  | .deleteRecord v _ => v = u
  | _ => False

lemma state?_modifyState_ne {w : World} {u v : String} (hv : v ≠ u) (g : ℕ)
    (f : UserState → UserState) : (w.modifyState v g f).state? u = w.state? u := by
  simp [World.state?,World.modifyState,Ne.symm hv]

lemma state?_modifyState {w : World} {u : String} {g : ℕ} (hg : w.states u = some g)
    (f : UserState → UserState) : (w.modifyState u g f).state? u = (w.state? u).map f := by
  simp [World.state?,World.modifyState,hg]

lemma state?_of_states {w : World} {u : String} {g : ℕ} (hg : w.states u = some g) :
    w.state? u = some (w.stateHeap (u,g)) := by
  simp [World.state?,hg]

lemma state?_stateFor_ne {w : World} {u v : String} (hv : v ≠ u) :
    (w.stateFor v).2.state? u = w.state? u := by
  unfold World.stateFor
  split
  · rfl
  · simp only [World.state?,Function.update_of_ne (Ne.symm hv)]
    rcases w.states u with _ | g
    · rfl
    · simp [Ne.symm hv]

lemma state?_stateFor (w : World) (u : String) :
    (w.stateFor u).2.state? u = some ((w.state? u).getD .empty) := by
  unfold World.stateFor
  split
  · next g hg => simp [World.state?,hg]
  · next hg => simp [World.state?,hg]

lemma stateFor_store (w : World) (u : String) : (w.stateFor u).2.store = w.store := by
  unfold World.stateFor
  split <;> rfl

structure Untouched (u : String) (t : ℕ) (a : Act) (r : a.Res) (w : World) (m : Instant) :
    Prop where
  state : w.state? u = m.state.state? u
  store : ∀ key, w.store (u,key) = m.state.store (u,key)
  held : held u (⟨t,a,r⟩ :: m.history) = held u m.history

lemma untouched {u : String} {t : ℕ} {a : Act} {m : Instant} {r : a.Res} {w : World}
    (hp : TrafficPre t a m) (he : exec t a m.state r w) (hu : ¬ a.Touches u) :
    Untouched u t a r w m := by
  have ht := hp.traffic
  have hn := hp.needs
  cases a with
  | addBytes v g n =>
    replace he := exec_pair he rfl
    obtain ⟨h,-⟩ | ⟨key,-,h⟩ := addSection_cases m.state v g n
    · rw [h,Prod.mk.injEq] at he
      exact he.2 ▸ ⟨rfl,fun _ => rfl,rfl⟩
    · rw [h,Prod.mk.injEq] at he
      exact he.2 ▸ ⟨state?_modifyState_ne hu _ _,fun _ => rfl,rfl⟩
  | setPeriodKeyIfEmpty v g _ | rollPeriod v g _ | storeUsage v g _ | storeExceeded v g _
  | trip v g =>
    replace he := exec_one he rfl
    exact he.2 ▸ ⟨state?_modifyState_ne hu _ _,fun _ => rfl,rfl⟩
  | consume v g =>
    replace he := exec_one he rfl
    refine he.2 ▸ ⟨state?_modifyState_ne hu _ _,fun _ => rfl,?_⟩
    simp [heldAfter,show v ≠ u from hu]
  | restore v g _ _ =>
    replace he := exec_one he rfl
    refine he.2 ▸ ⟨state?_modifyState_ne hu _ _,fun _ => rfl,?_⟩
    simp [heldAfter,show v ≠ u from hu]
  | stateFor v =>
    replace he := exec_pair he rfl
    have hw : w = (m.state.stateFor v).2 := by rw [← he]
    exact hw ▸ ⟨state?_stateFor_ne hu,fun _ => by rw [stateFor_store],rfl⟩
  | incrBy v k d =>
    have hne : ∀ key,(u,key) ≠ (v,k) := fun _ h => hu (congrArg Prod.fst h).symm
    obtain ⟨rfl,rfl⟩ | ⟨rfl,rfl⟩ := exec_two he rfl
    · refine ⟨rfl,fun key => by simp [World.setRecord,hne key],?_⟩
      simp [heldAfter,show v ≠ u from hu]
    · exact ⟨rfl,fun _ => rfl,rfl⟩
  | deleteRecord v k =>
    have hne : ∀ key,(u,key) ≠ (v,k) := fun _ h => hu (congrArg Prod.fst h).symm
    obtain ⟨rfl,rfl⟩ | ⟨rfl,rfl⟩ := exec_two he rfl
    · exact ⟨rfl,fun key => by simp [World.setRecord,hne key],rfl⟩
    · exact ⟨rfl,fun _ => rfl,rfl⟩
  | loadConfig _ | keyConfig _ _ | now | loadState _ | loadConns _ | listConns _ _ | markConn _
  | tick _ | takeDirty =>
    replace he := exec_one he rfl
    exact he.2 ▸ ⟨rfl,fun _ => rfl,rfl⟩
  | markDirty _ =>
    simp only [exec_iff,outcomes,List.mem_singleton,Prod.mk.injEq,TrafficInv.markDirty_eq] at he
    exact he.2 ▸ ⟨rfl,fun _ => rfl,rfl⟩
  | userNames | iterate _ =>
    obtain ⟨-,rfl⟩ := exec_map he rfl
    exact ⟨rfl,fun _ => rfl,rfl⟩
  | loadMany _ _ =>
    obtain ⟨-,rfl⟩ | ⟨-,rfl⟩ := exec_two he rfl <;> exact ⟨rfl,fun _ => rfl,rfl⟩
  | lock x =>
    obtain ⟨-,he⟩ := exec_if he rfl
    exact he.2 ▸ ⟨rfl,fun _ => rfl,rfl⟩
  | unlock x =>
    replace he := exec_one he rfl
    cases x with
    | persistAccess => exact he.2 ▸ ⟨rfl,fun _ => rfl,(hn.2.1 u).symm⟩
    | applyMu => exact ht.elim
  | panic => exact r.elim
  | _ => exact ht.elim

end SingBoxAuth.TrafficQuota
