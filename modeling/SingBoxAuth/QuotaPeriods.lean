import SingBoxAuth.QuotaReload

/-! Which periods the bytes counted in a user's usage belong to, when period resets
run beside flushes. -/
namespace SingBoxAuth.TrafficQuota
open Interleaving

/-- The periods that the usage of a user counts bytes of: additions count under the
key of their section, a reload replaces everything by the period it was read for, a
reset empties the usage. -/
def sources (u : String) (start : List String) : Past → List String
  | [] => start
  | ⟨_,.addBytes v _ _,some (key,_)⟩ :: h =>
    if v = u then key :: sources u start h else sources u start h
  | ⟨t,.storeUsage v _ _,_⟩ :: h => if v = u then (origin t h).toList else sources u start h
  | ⟨_,.rollPeriod v _ _,some _⟩ :: h => if v = u then [] else sources u start h
  | _ :: h => sources u start h

/-- The period that the usage of a user belongs to at the start. -/
def World.sources (w : World) (u : String) : List String :=
  match w.state? u with
  | some s => if s.usage = 0 then [] else [s.periodKey]
  | none => []

/-- A reload stores its total only while the user is in the period it was read for. -/
def samePeriod (u : String) (t : ℕ) (a : Act) (m : Instant) : Bool :=
  match a with
  | .storeUsage v _ _ => v = u → (m.state.state? u).map UserState.periodKey = origin t m.history
  | _ => true

structure Attributed (u : String) (start : List String) (m : Instant) : Prop where
  current : ∀ key ∈ sources u start m.history, key ≠ "" ∧
    ∃ s, m.state.state? u = some s ∧ s.periodKey = key
  unset : ∀ s, m.state.state? u = some s → s.periodKey = "" → s.pendingDelta = 0
  flying : ∀ pd ∈ held u m.history, pd.periodKey ≠ ""
  written : ∀ t k d r, (⟨t,.incrBy u k d,r⟩ : Event Act Act.Res) ∈ m.history → k ≠ ""

lemma sources_untouched {u : String} {start : List String} {t : ℕ} {a : Act} {r : a.Res}
    (hu : ¬ a.Touches u) (h : Past) : sources u start (⟨t,a,r⟩ :: h) = sources u start h := by
  cases a with
  | addBytes v g n =>
    rcases r with _ | ⟨key,total⟩
    · rfl
    · simp [sources,show ¬ v = u from hu]
  | storeUsage v g b => simp [sources,show ¬ v = u from hu]
  | rollPeriod v g k =>
    rcases r with _ | previous
    · rfl
    · simp [sources,show ¬ v = u from hu]
  | _ => rfl

section step

variable {u : String} {start : List String} {m : Instant} {t : ℕ} {w : World}

lemma Attributed.written_step {a : Act} {r : a.Res} (h : Attributed u start m)
    (hp : TrafficPre t a m) (t' : ℕ) (k : String) (d : Int64) (r' : Bool)
    (he : (⟨t',.incrBy u k d,r'⟩ : Event Act Act.Res) ∈ (m.after t a r w).history) : k ≠ "" := by
  obtain he | he := List.mem_cons.mp he
  · cases he
    exact h.flying _ hp.needs.2
  · exact h.written t' k d r' he

lemma Attributed.kept {a : Act} {r : a.Res} (h : Attributed u start m) (hp : TrafficPre t a m)
    (hs : sources u start (⟨t,a,r⟩ :: m.history) = sources u start m.history)
    (hold : ∀ s,m.state.state? u = some s → ∃ s',w.state? u = some s' ∧
      (s.periodKey ≠ "" → s'.periodKey = s.periodKey))
    (hn : ∀ s',w.state? u = some s' → s'.periodKey = "" → s'.pendingDelta = 0)
    (hh : held u (⟨t,a,r⟩ :: m.history) ⊆ held u m.history) :
    Attributed u start (m.after t a r w) := by
  refine ⟨fun key hk => ?_,hn,fun pd hpd => h.flying pd (hh hpd),h.written_step hp⟩
  rw [Moment.after_history,hs] at hk
  obtain ⟨hne,s,hst,hke⟩ := h.current key hk
  obtain ⟨s',hs',hsa⟩ := hold s hst
  exact ⟨hne,s',hs',(hsa (hke ▸ hne)).trans hke⟩

lemma Attributed.modify {a : Act} {r : a.Res} {g : ℕ} {f : UserState → UserState}
    (h : Attributed u start m) (hp : TrafficPre t a m) (hw : w = m.state.modifyState u g f)
    (hg : m.state.states u = some g)
    (hs : sources u start (⟨t,a,r⟩ :: m.history) = sources u start m.history)
    (hf : ∀ s,(s.periodKey ≠ "" → (f s).periodKey = s.periodKey) ∧
      ((f s).periodKey = "" → s.periodKey = "" ∧ (f s).pendingDelta = s.pendingDelta))
    (hh : held u (⟨t,a,r⟩ :: m.history) ⊆ held u m.history) :
    Attributed u start (m.after t a r w) := by
  have hst := state?_of_states hg
  have hst' : w.state? u = some (f (m.state.stateHeap (u,g))) := by
    rw [hw,state?_modifyState hg,hst,Option.map_some]
  refine h.kept hp hs (fun s hso => ⟨_,hst',fun hne => ?_⟩) (fun s' hs' he => ?_) hh
  · rw [hst,Option.some.injEq] at hso
    exact hso ▸ (hf _).1 (hso ▸ hne)
  · rw [hst',Option.some.injEq] at hs'
    subst hs'
    obtain ⟨hk,hd⟩ := (hf _).2 he
    exact hd.trans (h.unset _ hst hk)

lemma Attributed.fresh {a : Act} {r : a.Res} {s : UserState} (h : Attributed u start m)
    (hp : TrafficPre t a m) (hst : w.state? u = some s) (hne : s.periodKey ≠ "")
    (hs : ∀ key ∈ sources u start (⟨t,a,r⟩ :: m.history),key = s.periodKey)
    (hh : held u (⟨t,a,r⟩ :: m.history) ⊆ held u m.history) :
    Attributed u start (m.after t a r w) := by
  refine ⟨fun key hk => ?_,fun s' hs' he => ?_,fun pd hpd => h.flying pd (hh hpd),h.written_step hp⟩
  · exact hs key hk ▸ ⟨hne,s,hst,rfl⟩
  · rw [Moment.after_state,hst,Option.some.injEq] at hs'
    exact absurd (hs' ▸ he) hne

lemma Attributed.same {a : Act} {r : a.Res} (h : Attributed u start m) (hp : TrafficPre t a m)
    (hs : sources u start (⟨t,a,r⟩ :: m.history) = sources u start m.history)
    (hst : w.state? u = m.state.state? u)
    (hh : held u (⟨t,a,r⟩ :: m.history) ⊆ held u m.history) :
    Attributed u start (m.after t a r w) :=
  h.kept hp hs (fun s hso => ⟨s,hst.trans hso,fun _ => rfl⟩)
    (fun s' hs' => h.unset s' (hst ▸ hs')) hh

lemma Attributed.addBytes {g : ℕ} {n : Int64} {r : Option (String × Int64)}
    (h : Attributed u start m) (hp : TrafficPre t (.addBytes u g n) m)
    (he : exec t (.addBytes u g n) m.state r w) :
    Attributed u start (m.after t (.addBytes u g n) r w) := by
  have hg := hp.needs.1
  have hst := state?_of_states hg
  replace he := exec_pair he rfl
  obtain ⟨ha,-⟩ | ⟨k,hk,ha⟩ := addSection_cases m.state u g n
  · rw [ha,Prod.mk.injEq] at he
    obtain ⟨rfl,rfl⟩ := he
    exact h.same hp rfl rfl (.refl _)
  rw [ha,Prod.mk.injEq] at he
  obtain ⟨rfl,rfl⟩ := he
  have hne : k ≠ "" := by
    obtain ⟨-,hne⟩ | ⟨-,c,-,rfl⟩ := hk
    · exact hne
    · exact keyAt_ne_empty c _
  refine h.fresh hp (s := { m.state.stateHeap (u,g) with periodKey := k }.add n) ?_ hne
    (fun key hke => ?_) (.refl _)
  · rw [state?_modifyState hg,hst,Option.map_some]
  · simp only [sources,if_true,List.mem_cons] at hke
    obtain rfl | hke := hke
    · rfl
    · -- Bytes counted before belong to the period of the section, which was set.
      obtain ⟨hkn,s,hs,rfl⟩ := h.current key hke
      rw [hst,Option.some.injEq] at hs
      subst hs
      obtain ⟨rfl,-⟩ | ⟨hem,-⟩ := hk
      · rfl
      · exact absurd hem hkn

lemma Attributed.consume {g : ℕ} {r : String × Int64} (h : Attributed u start m)
    (hp : TrafficPre t (.consume u g) m) (he : exec t (.consume u g) m.state r w) :
    Attributed u start (m.after t (.consume u g) r w) := by
  have hg := hp.needs.2
  have hst := state?_of_states hg
  obtain ⟨rfl,rfl⟩ := exec_one he rfl
  have hst' := state?_modifyState hg fun s => { s with pendingDelta := 0 }
  rw [hst,Option.map_some] at hst'
  refine ⟨fun key hke => ?_,fun s' hs' _ => ?_,fun pd hpd => ?_,h.written_step hp⟩
  · obtain ⟨hne,s,hs,hk⟩ := h.current key hke
    rw [hst,Option.some.injEq] at hs
    exact ⟨hne,_,hst',hs ▸ hk⟩
  · rw [Moment.after_state,hst',Option.some.injEq] at hs'
    exact hs' ▸ rfl
  · simp only [Moment.after_history,held_cons,heldAfter,true_and] at hpd
    split_ifs at hpd with hd
    · obtain hpd | hpd := List.mem_append.mp hpd
      · exact h.flying pd hpd
      · rw [List.mem_singleton] at hpd
        subst hpd
        exact fun hem => hd (h.unset _ hst hem)
    · exact h.flying pd hpd

lemma Attributed.rollPeriod {g : ℕ} {k : String} {r : Option String} (h : Attributed u start m)
    (hp : TrafficPre t (.rollPeriod u g k) m) (he : exec t (.rollPeriod u g k) m.state r w) :
    Attributed u start (m.after t (.rollPeriod u g k) r w) := by
  obtain ⟨hg,c,now,-,-,hk⟩ := hp.needs
  have hne : k ≠ "" := hk ▸ keyAt_ne_empty c now
  have hst := state?_of_states hg
  obtain ⟨rfl,rfl⟩ := exec_one he rfl
  have hs' := state?_modifyState hg fun s => (rollSection s k).2
  rw [hst,Option.map_some] at hs'
  unfold rollSection at hs' ⊢
  split_ifs at hs' ⊢ with hem hsa
  · refine h.fresh hp hs' hne (fun key hke => ?_) (.refl _)
    obtain ⟨hkn,s,hs,rfl⟩ := h.current key hke
    rw [hst,Option.some.injEq] at hs
    exact absurd (hs ▸ hem) hkn
  · exact h.same hp rfl (hs'.trans hst.symm) (.refl _)
  · refine h.fresh hp hs' hne (fun key hke => ?_) (.refl _)
    simp [sources] at hke

/-- Every step whose reload, if it is one, stays in its period keeps the attribution. -/
theorem Attributed.step {a : Act} {r : a.Res} (h : Attributed u start m) (hp : TrafficPre t a m)
    (hgu : samePeriod u t a m = true) (he : exec t a m.state r w) :
    Attributed u start (m.after t a r w) := by
  by_cases hu : a.Touches u
  · have he' := he
    cases a with
    | stateFor v =>
      subst hu
      have hw : w.state? v = some ((m.state.state? v).getD .empty) := by
        replace he' := exec_pair he' rfl
        have := state?_stateFor m.state v
        rwa [← he'] at this
      refine h.kept hp rfl (fun s hs => ⟨s,by rw [hw,hs]; rfl,fun _ => rfl⟩) (fun s' hs' hem => ?_)
        (.refl _)
      rw [hw,Option.some.injEq] at hs'
      cases hold : m.state.state? v with
      | none => exact hs' ▸ hold ▸ rfl
      | some s => exact h.unset s' (by rw [← hs',hold]; rfl) hem
    | addBytes v g n => subst hu; exact h.addBytes hp he
    | consume v g => subst hu; exact h.consume hp he
    | rollPeriod v g k => subst hu; exact h.rollPeriod hp he
    | storeUsage v g b =>
      subst hu
      obtain ⟨-,hg,-,k,d,hk,hi,-⟩ := hp.needs
      have hst := state?_of_states hg
      have hke := of_decide_eq_true hgu rfl
      rw [hst,hk,Option.map_some,Option.some.injEq] at hke
      obtain ⟨-,rfl⟩ := exec_one he' rfl
      refine h.fresh hp (s := { m.state.stateHeap (v,g) with usage := b }) ?_ ?_ (fun key hme => ?_)
        (.refl _)
      · rw [state?_modifyState hg,hst,Option.map_some]
      · exact hke ▸ h.written t k d true hi
      · simp only [sources,if_true,hk,Option.toList_some,List.mem_singleton] at hme
        exact hme.trans hke.symm
    | restore v g k d =>
      subst hu
      replace he' := exec_one he' rfl
      have hne : k ≠ "" := h.flying _ hp.needs.2.2
      refine h.modify hp he'.2 hp.needs.2.1 rfl (fun s => ?_) ?_
      · unfold restoreSection
        split_ifs with hk
        · exact ⟨fun _ => rfl,fun hem => absurd (hk.symm.trans hem) hne⟩
        · exact ⟨fun _ => rfl,fun hem => ⟨hem,rfl⟩⟩
      · simp only [held_cons,heldAfter,if_true]
        exact List.erase_subset
    | setPeriodKeyIfEmpty v g k =>
      subst hu
      obtain ⟨hg,c,now,-,-,hk⟩ := hp.needs
      replace he' := exec_one he' rfl
      refine h.modify hp he'.2 hg rfl (fun s => ?_) (.refl _)
      split_ifs with hem
      · exact ⟨fun hne => absurd hem hne,fun hk' => absurd (hk ▸ hk') (keyAt_ne_empty c now)⟩
      · exact ⟨fun _ => rfl,fun hk' => absurd hk' hem⟩
    | storeExceeded v g b =>
      subst hu
      replace he' := exec_one he' rfl
      exact h.modify hp he'.2 hp.needs.2.1 rfl (fun s => ⟨fun _ => rfl,fun hk => ⟨hk,rfl⟩⟩) (.refl _)
    | trip v g =>
      subst hu
      replace he' := exec_one he' rfl
      exact h.modify hp he'.2 hp.needs rfl (fun s => ⟨fun _ => rfl,fun hk => ⟨hk,rfl⟩⟩) (.refl _)
    | incrBy v k d =>
      subst hu
      simp only [exec_iff,outcomes,List.mem_cons,List.not_mem_nil,or_false,Prod.mk.injEq] at he'
      obtain ⟨rfl,rfl⟩ | ⟨rfl,rfl⟩ := he'
      · refine h.same hp rfl rfl ?_
        simp only [held_cons,heldAfter,if_true]
        exact List.erase_subset
      · exact h.same hp rfl rfl (.refl _)
    | deleteRecord v k =>
      simp only [exec_iff,outcomes,List.mem_cons,List.not_mem_nil,or_false,Prod.mk.injEq] at he'
      obtain ⟨rfl,rfl⟩ | ⟨rfl,rfl⟩ := he' <;> exact h.same hp rfl rfl (.refl _)
    | _ => exact hu.elim
  · obtain ⟨hs,-,hh⟩ := untouched hp he hu
    exact h.same hp (sources_untouched hu _) hs (by rw [hh]; exact .refl _)

end step

/-- A flush has read the total of 14 May when the user is reset to 15 May. -/
def leakMoves : List (Move Act Act.Res) :=
  launch 1 (addBytes "alice" 7) 4 ++ launch 2 (void flushPending) 8 ++
    launch 1 (perform (.tick 86400000000000)) 1 ++ launch 3 periodResetRound 5 ++
    proceed 2 8 ++ proceed 3 3

lemma leakMoves_startable : Startable trafficOps leakMoves :=
  (((((startable_launch (fun _ => .inl ⟨_,_,rfl⟩) 4).append
    (startable_launch (fun _ => .inr (.inl rfl)) 8)).append
    (startable_launch (fun _ => .inr (.inr (.inr ⟨_,rfl⟩))) 1)).append
    (startable_launch (fun _ => .inr (.inr (.inl rfl))) 5)).append
    (startable_proceed _ 2 8)).append (startable_proceed _ 3 3)

/-- The flush is over before the day ends; then 5 bytes are added. -/
def keepMoves : List (Move Act Act.Res) :=
  launch 1 (addBytes "alice" 7) 4 ++ launch 2 (void flushPending) 16 ++
    launch 1 (perform (.tick 86400000000000)) 1 ++ launch 3 periodResetRound 8 ++
    launch 1 (addBytes "alice" 5) 4

lemma keepMoves_startable : Startable trafficOps keepMoves :=
  ((((startable_launch (fun _ => .inl ⟨_,_,rfl⟩) 4).append
    (startable_launch (fun _ => .inr (.inl rfl)) 16)).append
    (startable_launch (fun _ => .inr (.inr (.inr ⟨_,rfl⟩))) 1)).append
    (startable_launch (fun _ => .inr (.inr (.inl rfl))) 8)).append
    (startable_launch (fun _ => .inl ⟨_,_,rfl⟩) 4)

end SingBoxAuth.TrafficQuota
