import SingBoxAuth.QuotaHistory

/-! What the locks of the service protect. A configuration disappears only under
applyMu, persistAccess and the write lock of lifecycle; whoever holds one of them, or
the read lock, keeps the configurations it has seen. -/
namespace SingBoxAuth.TrafficQuota
open Interleaving

def stuckAfter (t : ℕ) (e : Event Act Act.Res) (stuck : Bool) : Bool :=
  if e.thread ≠ t then stuck
  else
    match e with
    | ⟨_,.keyConfig _ _,none⟩ => true
    | _ => false

/-- The thread has looked up the configuration for a period key and found none. -/
def stuck (t : ℕ) (h : Past) : Bool := h.foldr (stuckAfter t) false

def missedAfter : Event Act Act.Res → List (ℕ × String) → List (ℕ × String)
  | ⟨t,.keyConfig .checkPeriodReset u,none⟩, misses => (t,u) :: misses
  | _, misses => misses

/-- The lookups of CheckPeriodReset that found no configuration. -/
def missed (h : Past) : List (ℕ × String) := h.foldr missedAfter []

def removedKeyAfter (user : String) : Event Act Act.Res → Option String → Option String
  | ⟨_,.returned (.removed u key),_⟩, current => if u = user then some key else current
  | ⟨_,.storeConfig u _,_⟩, current => if u = user then none else current
  | _, current => current

/-- The key under which the user's record was deleted when the user was removed, until
the user is configured again. -/
def removedKey (user : String) (h : Past) : Option String := h.foldr (removedKeyAfter user) none

lemma stuck_cons (t : ℕ) (e : Event Act Act.Res) (h : Past) :
    stuck t (e :: h) = stuckAfter t e (stuck t h) := rfl

lemma stuck_other {t : ℕ} {e : Event Act Act.Res} {h : Past} (he : e.thread ≠ t) :
    stuck t (e :: h) = stuck t h := by
  simp [stuck,stuckAfter,he]

lemma missed_cons (e : Event Act Act.Res) (h : Past) :
    missed (e :: h) = missedAfter e (missed h) := rfl

lemma removedKey_cons (u : String) (e : Event Act Act.Res) (h : Past) :
    removedKey u (e :: h) = removedKeyAfter u e (removedKey u h) := rfl

/-- The actions that need no lock and touch none, nor a configuration, nor write a record. -/
def Act.Free : Act → Prop
  | .storeConfig _ _ | .deleteConfig _ | .keyConfig _ _ | .save _ _ _ | .incrBy _ _ _ | .lock _
  | .unlock _ | .rLock | .rUnlock | .wLock | .wUnlock | .returned (.removed _ _) | .panic => False
  | _ => True

structure Unlocking (w w' : World) : Prop where
  mutex : w'.mutex = w.mutex
  writer : w'.writer = w.writer
  readers : w'.readers = w.readers
  configs : w'.userConfigs = w.userConfigs
  store : ∀ {x}, w.store x = none → w'.store x = none

lemma Unlocking.refl (w : World) : Unlocking w w := ⟨rfl,rfl,rfl,rfl,id⟩

lemma unlocking_of_free {t : ℕ} {a : Act} {w w' : World} {r : a.Res} (ha : a.Free)
    (he : exec t a w r w') : Unlocking w w' := by
  cases a with
  | addBytes u g n =>
    have hu : Unlocking w (addSection w u g n).2 := by
      unfold addSection
      dsimp only
      split_ifs
      · split
        · exact .refl w
        · split
          · exact .refl w
          · exact ⟨rfl,rfl,rfl,rfl,id⟩
      · exact ⟨rfl,rfl,rfl,rfl,id⟩
    replace he := exec_pair he rfl
    rwa [← he] at hu
  | stateFor u =>
    replace he := exec_pair he rfl
    unfold World.stateFor at he
    split at he <;>
    · rw [Prod.mk.injEq] at he
      exact he.2 ▸ ⟨rfl,rfl,rfl,rfl,id⟩
  | connsFor u =>
    replace he := exec_pair he rfl
    unfold World.connsFor at he
    split at he <;>
    · rw [Prod.mk.injEq] at he
      exact he.2 ▸ ⟨rfl,rfl,rfl,rfl,id⟩
  | markDirty u =>
    obtain ⟨-,rfl⟩ := exec_one he rfl
    unfold World.markDirty
    split_ifs <;> exact ⟨rfl,rfl,rfl,rfl,id⟩
  | userNames | iterate _ =>
    obtain ⟨-,rfl⟩ := exec_map he rfl
    exact .refl _
  | load _ _ | loadMany _ _ =>
    obtain ⟨-,rfl⟩ | ⟨-,rfl⟩ := exec_two he rfl <;> exact .refl _
  | deleteRecord u key =>
    obtain ⟨-,rfl⟩ | ⟨-,rfl⟩ := exec_two he rfl
    · refine ⟨rfl,rfl,rfl,rfl,fun {x} hx => ?_⟩
      by_cases hxk : x = (u,key)
      · simp [World.setRecord,hxk]
      · simpa [World.setRecord,Function.update_of_ne hxk] using hx
    · exact .refl _
  | storeConfig _ _ | deleteConfig _ | keyConfig _ _ | save _ _ _ | incrBy _ _ _ | lock _ | unlock _
  | rLock | rUnlock | wLock | wUnlock | panic => exact ha.elim
  | _ =>
    replace he := exec_one he rfl
    exact he.2 ▸ ⟨rfl,rfl,rfl,rfl,id⟩

structure ServiceInv (m : Instant) : Prop where
  exclusive : m.state.writer ≠ none → m.state.readers = ∅
  halted : ∀ t u, (t,u) ∈ missed m.history → stuck t m.history = true
  missing : ∀ t, stuck t m.history = true → ∃ u, (t,u) ∈ missed m.history
  vacant : ∀ u key, removedKey u m.history = some key →
    u ∉ m.state.userConfigs ∧ m.state.store (u,key) = none

def ServiceNeeds (t : ℕ) (a : Act) (m : Instant) : Prop :=
  match a with
  | .keyConfig caller u => caller ≠ .checkPeriodReset → u ∈ m.state.userConfigs
  | .storeConfig _ _ => m.state.mutex .applyMu = some t ∨ m.state.mutex .persistAccess = some t
  | .deleteConfig _ => m.state.writer = some t ∧ m.state.mutex .applyMu = some t ∧
      m.state.mutex .persistAccess = some t
  | .incrBy u _ _ | .save u _ _ => m.state.mutex .persistAccess = some t ∧ u ∈ m.state.userConfigs
  | .unlock x => m.state.mutex x = some t
  | .wUnlock => m.state.writer = some t
  | .returned (.removed u key) => u ∉ m.state.userConfigs ∧ m.state.store (u,key) = none
  | .panic => stuck t m.history = true
  | _ => True

/-- A thread that found no configuration can only panic, and no other thread does. -/
structure ServicePre (t : ℕ) (a : Act) (m : Instant) : Prop where
  going : a ≠ .panic → stuck t m.history = false
  needs : ServiceNeeds t a m

section step

variable {t : ℕ} {a : Act} {m : Instant} {r : a.Res} {w : World}

def Fruitless : (a : Act) → a.Res → Prop
  | .keyConfig _ _, none => True
  | _, _ => False

lemma stuck_going (hr : ¬ Fruitless a r) : stuck t (⟨t,a,r⟩ :: m.history) = false := by
  simp only [stuck_cons,stuckAfter,ne_eq,not_true_eq_false,if_false]
  split
  · next heq =>
    cases heq
    exact absurd trivial hr
  · rfl

lemma missed_going (hr : ¬ Fruitless a r) : missed (⟨t,a,r⟩ :: m.history) = missed m.history := by
  rw [missed_cons]
  unfold missedAfter
  split
  · next heq =>
    cases heq
    exact absurd trivial hr
  · rfl

lemma ServiceInv.lookups (h : ServiceInv m) (hp : ServicePre t a m) (he : exec t a m.state r w) :
    (∀ t' u,(t',u) ∈ missed (⟨t,a,r⟩ :: m.history) → stuck t' (⟨t,a,r⟩ :: m.history) = true) ∧
    ∀ t',stuck t' (⟨t,a,r⟩ :: m.history) = true → ∃ u,(t',u) ∈ missed (⟨t,a,r⟩ :: m.history) := by
  have hg : stuck t m.history = false := hp.going fun hpa => by
    subst hpa
    exact r.elim
  have hn : ∀ u,(t,u) ∉ missed m.history := fun u hu => by
    rw [h.halted t u hu] at hg
    cases hg
  by_cases hr : Fruitless a r
  · cases a with
    | keyConfig caller v =>
      cases r with
      | some config => exact hr.elim
      | none =>
        -- the other callers know that the user is configured
        replace he := exec_one he rfl
        have hca : caller = .checkPeriodReset := by
          by_contra hne
          have hme := AList.lookup_isSome.mpr (hp.needs hne)
          simp [← he.1] at hme
        subst hca
        refine ⟨fun t' u hu => ?_,fun t' ht' => ?_⟩
        · obtain heq | hu := List.mem_cons.mp (show (t',u) ∈ (t,v) :: missed m.history from hu)
          · obtain ⟨rfl,-⟩ := Prod.mk.inj heq
            simp [stuck_cons,stuckAfter]
          · have hne : t ≠ t' := fun ht => hn u (ht ▸ hu)
            rw [stuck_other hne]
            exact h.halted t' u hu
        · by_cases ht : t' = t
          · exact ⟨v,ht ▸ List.mem_cons_self ..⟩
          · rw [stuck_other (Ne.symm ht)] at ht'
            obtain ⟨u,hu⟩ := h.missing t' ht'
            exact ⟨u,List.mem_cons_of_mem _ hu⟩
    | _ => exact hr.elim
  · rw [missed_going hr]
    refine ⟨fun t' u hu => ?_,fun t' ht' => ?_⟩
    · have hne : t ≠ t' := fun ht => hn u (ht ▸ hu)
      rw [stuck_other hne]
      exact h.halted t' u hu
    · by_cases ht : t' = t
      · rw [ht,stuck_going hr] at ht'
        cases ht'
      · rw [stuck_other (Ne.symm ht)] at ht'
        exact h.missing t' ht'

lemma removedKey_free (ha : a.Free) (u : String) :
    removedKey u (⟨t,a,r⟩ :: m.history) = removedKey u m.history := by
  cases a with
  | returned value => cases value <;> first | exact ha.elim | rfl
  | _ => first | exact ha.elim | rfl

lemma ServiceInv.records (h : ServiceInv m) (hp : ServicePre t a m) (he : exec t a m.state r w)
    {u key : String} (hk : removedKey u (⟨t,a,r⟩ :: m.history) = some key) :
    u ∉ w.userConfigs ∧ w.store (u,key) = none := by
  by_cases hf : a.Free
  · rw [removedKey_free hf] at hk
    have hu := unlocking_of_free hf he
    exact ⟨by rw [hu.configs]; exact (h.vacant u key hk).1,hu.store (h.vacant u key hk).2⟩
  · cases a with
    | storeConfig v config =>
      have hne : v ≠ u := fun hv => by simp [removedKey_cons,removedKeyAfter,hv] at hk
      have hk : removedKey u m.history = some key := by
        simpa [removedKey_cons,removedKeyAfter,hne] using hk
      obtain ⟨-,rfl⟩ := exec_one he rfl
      refine ⟨fun hme => (h.vacant u key hk).1 ?_,(h.vacant u key hk).2⟩
      exact ((AList.mem_insert _).mp hme).resolve_left (Ne.symm hne)
    | deleteConfig v =>
      obtain ⟨-,rfl⟩ := exec_one he rfl
      exact ⟨fun hme => (h.vacant u key hk).1 (AList.mem_erase.mp hme).2,(h.vacant u key hk).2⟩
    | incrBy v k d | save v k d =>
      have hne : (u,key) ≠ (v,k) := fun heq => by
        obtain ⟨rfl,rfl⟩ := Prod.mk.inj heq
        exact (h.vacant _ _ hk).1 hp.needs.2
      obtain ⟨-,rfl⟩ | ⟨-,rfl⟩ := exec_two he rfl
      · refine ⟨(h.vacant u key hk).1,?_⟩
        simpa [World.setRecord,Function.update_of_ne hne] using (h.vacant u key hk).2
      · exact h.vacant u key hk
    | returned value =>
      obtain ⟨-,rfl⟩ := exec_one he rfl
      cases value with
      | removed v k =>
        by_cases hv : v = u
        · subst hv
          obtain rfl : k = key := by simpa [removedKey_cons,removedKeyAfter] using hk
          exact hp.needs
        · exact h.vacant u key (by simpa [removedKey_cons,removedKeyAfter,hv] using hk)
      | registered _ _ _ | snapshot _ => exact absurd trivial hf
    | keyConfig _ _ | unlock _ | rUnlock | wUnlock =>
      obtain ⟨-,rfl⟩ := exec_one he rfl
      exact h.vacant u key hk
    | lock _ | rLock | wLock =>
      obtain ⟨-,-,rfl⟩ := exec_if he rfl
      exact h.vacant u key hk
    | panic => exact r.elim
    | _ => exact absurd trivial hf

lemma ServiceInv.excludes (h : ServiceInv m) (he : exec t a m.state r w) :
    w.writer ≠ none → w.readers = ∅ := by
  by_cases hf : a.Free
  · have hu := unlocking_of_free hf he
    rw [hu.writer,hu.readers]
    exact h.exclusive
  · cases a with
    | rLock =>
      obtain ⟨hw,-,rfl⟩ := exec_if he rfl
      exact fun hne => absurd hw hne
    | wLock =>
      obtain ⟨hw,-,rfl⟩ := exec_if he rfl
      exact fun _ => hw.2
    | rUnlock =>
      obtain ⟨-,rfl⟩ := exec_one he rfl
      intro hne
      simp [h.exclusive hne]
    | wUnlock =>
      obtain ⟨-,rfl⟩ := exec_one he rfl
      exact fun hne => absurd rfl hne
    | storeConfig _ _ | deleteConfig _ | keyConfig _ _ | unlock _ | returned _ =>
      obtain ⟨-,rfl⟩ := exec_one he rfl
      exact h.exclusive
    | incrBy _ _ _ | save _ _ _ =>
      obtain ⟨-,rfl⟩ | ⟨-,rfl⟩ := exec_two he rfl <;> exact h.exclusive
    | lock _ =>
      obtain ⟨-,-,rfl⟩ := exec_if he rfl
      exact h.exclusive
    | panic => exact r.elim
    | _ => exact absurd trivial hf

theorem ServiceInv.step (h : ServiceInv m) (hp : ServicePre t a m) (he : exec t a m.state r w) :
    ServiceInv (m.after t a r w) :=
  ⟨h.excludes he,(h.lookups hp he).1,(h.lookups hp he).2,fun _ _ => h.records hp he⟩

end step

def serviceContract : Contract Act Act.Res World where
  exec := exec
  inv := ServiceInv
  pre := ServicePre
  keeps h hp he := h.step hp he

structure Undisturbed (t : ℕ) (w w' : World) : Prop where
  mutex : ∀ {x}, w.mutex x = some t → w'.mutex x = some t
  writer : w.writer = some t → w'.writer = some t
  readers : t ∈ w.readers → t ∈ w'.readers
  configs : ∀ {u}, t ∈ w.readers ∨ w.mutex .applyMu = some t ∨ w.mutex .persistAccess = some t →
    u ∈ w.userConfigs → u ∈ w'.userConfigs
  absent : ∀ {u}, w.mutex .applyMu = some t → w.mutex .persistAccess = some t →
    u ∉ w.userConfigs → u ∉ w'.userConfigs
  store : ∀ {x}, w.mutex .persistAccess = some t → w.store x = none → w'.store x = none

lemma Unlocking.undisturbed {t : ℕ} {w w' : World} (h : Unlocking w w') : Undisturbed t w w' :=
  ⟨fun hx => by rw [h.mutex]; exact hx,fun hx => by rw [h.writer]; exact hx,
    fun hx => by rw [h.readers]; exact hx,fun _ hx => by rw [h.configs]; exact hx,
    fun _ _ hx => by rw [h.configs]; exact hx,fun _ => h.store⟩

lemma undisturbed_of_step {t t' : ℕ} {a : Act} {m : Instant} {r : a.Res} {w : World}
    (h : ServiceInv m) (ht : t' ≠ t) (hp : ServicePre t' a m) (he : exec t' a m.state r w) :
    Undisturbed t m.state w := by
  have ho : ∀ {x},m.state.mutex x = some t' → m.state.mutex x ≠ some t := fun hx hx' => by
    rw [hx,Option.some.injEq] at hx'
    exact ht hx'
  by_cases hf : a.Free
  · exact (unlocking_of_free hf he).undisturbed
  · have hn := hp.needs
    cases a with
    | storeConfig v config =>
      obtain ⟨-,rfl⟩ := exec_one he rfl
      refine ⟨id,id,id,fun _ hu => (AList.mem_insert _).mpr (.inr hu),fun ha hp' => ?_,fun _ => id⟩
      exact (hn.elim (fun hx => ho hx ha) fun hx => ho hx hp').elim
    | deleteConfig v =>
      obtain ⟨hwr,hap,hpe⟩ := hn
      obtain ⟨-,rfl⟩ := exec_one he rfl
      refine ⟨id,id,id,fun hl _ => ?_,fun _ _ hu hme => hu (AList.mem_erase.mp hme).2,fun _ => id⟩
      obtain hr | ha | hp' := hl
      · rw [h.exclusive (by simp [hwr])] at hr
        cases hr
      · exact (ho hap ha).elim
      · exact (ho hpe hp').elim
    | incrBy v k d | save v k d =>
      obtain ⟨-,rfl⟩ | ⟨-,rfl⟩ := exec_two he rfl
      · exact ⟨id,id,id,fun _ => id,fun _ _ => id,fun hx => (ho hn.1 hx).elim⟩
      · exact ⟨id,id,id,fun _ => id,fun _ _ => id,fun _ => id⟩
    | keyConfig _ _ =>
      obtain ⟨-,rfl⟩ := exec_one he rfl
      exact ⟨id,id,id,fun _ => id,fun _ _ => id,fun _ => id⟩
    | returned value =>
      obtain ⟨-,rfl⟩ := exec_one he rfl
      exact ⟨id,id,id,fun _ => id,fun _ _ => id,fun _ => id⟩
    | lock x =>
      obtain ⟨hfr,-,rfl⟩ := exec_if he rfl
      refine ⟨fun {y} hy => ?_,id,id,fun _ => id,fun _ _ => id,fun _ => id⟩
      have hne : y ≠ x := fun hyx => by simp [hyx,hfr] at hy
      simpa [Function.update_of_ne hne] using hy
    | unlock x =>
      obtain ⟨-,rfl⟩ := exec_one he rfl
      refine ⟨fun {y} hy => ?_,id,id,fun _ => id,fun _ _ => id,fun _ => id⟩
      have hne : y ≠ x := fun hyx => ho hn (hyx ▸ hy)
      simpa [Function.update_of_ne hne] using hy
    | rLock =>
      obtain ⟨-,-,rfl⟩ := exec_if he rfl
      exact ⟨id,id,Finset.mem_insert_of_mem,fun _ => id,fun _ _ => id,fun _ => id⟩
    | rUnlock =>
      obtain ⟨-,rfl⟩ := exec_one he rfl
      exact ⟨id,id,fun hr => Finset.mem_erase.mpr ⟨ht.symm,hr⟩,fun _ => id,fun _ _ => id,
        fun _ => id⟩
    | wLock =>
      obtain ⟨hfr,-,rfl⟩ := exec_if he rfl
      refine ⟨id,fun hw => ?_,id,fun _ => id,fun _ _ => id,fun _ => id⟩
      rw [hfr.1] at hw
      cases hw
    | wUnlock =>
      have hwr : m.state.writer = some t' := hn
      obtain ⟨-,rfl⟩ := exec_one he rfl
      refine ⟨id,fun hw => ?_,id,fun _ => id,fun _ _ => id,fun _ => id⟩
      rw [hwr,Option.some.injEq] at hw
      exact (ht hw).elim
    | panic => exact r.elim
    | _ => exact absurd trivial hf

end SingBoxAuth.TrafficQuota
