import SingBoxAuth.QuotaAccounts
import SingBoxAuth.QuotaResolution
import SingBoxAuth.Transitions

/-! The quota manager with one caller at a time: what each operation does to the accounts and to
the index of dirty users, and that the programs, run alone, do this and nothing else. -/
namespace SingBoxAuth.TrafficQuota
open Interleaving Transitions

/-- Calls of the manager, and RestoreState of the service with the answer of Save. -/
inductive Call
  | registerConn (user : String) (conn : Conn)
  | addBytes (user : String) (n : Int64)
  | loadUsage (user : String) (bytes : Int64)
  | applyConfig (user : TrafficQuotaUser)
  | removeConfig (user : String)
  | checkPeriodReset (now : ℤ)
  | currentPeriodKey (user : String)
  | consumePendingDeltas
  | restorePendingDelta (pd : PendingDelta)
  | clearPendingDelta (user : String)
  | snapshotState (user : String)
  | restoreState (state : RuntimeState)
  | serviceRestoreState (state : RuntimeState) (saved : Bool)
  | wait (nanoseconds : ℕ)

structure Session where
  world : World
  taken : List RuntimeState

def quietly {α : Type} (p : Op α) : Op (List RuntimeState × Bool) := do
  let _ ← p
  .ret ([],true)

/-- The program of a call; it returns the snapshot taken and whether nothing was left unsaved. -/
def Call.run (text : TimeText) : Call → Op (List RuntimeState × Bool)
  | .registerConn user conn => quietly (TrafficQuota.registerConn user conn)
  | .addBytes user n => quietly (TrafficQuota.addBytes user n)
  | .loadUsage user bytes => quietly (TrafficQuota.loadUsage user bytes)
  | .applyConfig user => quietly (TrafficQuota.applyConfig text user)
  | .removeConfig user => quietly (TrafficQuota.removeConfig user)
  | .checkPeriodReset now => quietly (TrafficQuota.checkPeriodReset now)
  | .currentPeriodKey user => quietly (TrafficQuota.currentPeriodKey user)
  | .consumePendingDeltas => quietly TrafficQuota.consumePendingDeltas
  | .restorePendingDelta pd => quietly (TrafficQuota.restorePendingDelta pd)
  | .clearPendingDelta user => quietly (TrafficQuota.clearPendingDelta user)
  | .snapshotState user => do
    let snapshot ← TrafficQuota.snapshotState text user
    .ret (snapshot.toList,true)
  | .restoreState state => quietly (TrafficQuota.restoreState text state)
  | .serviceRestoreState state _ => do
    let result ← TrafficQuota.serviceRestoreState text state
    .ret ([],result.isOk)
  | .wait nanoseconds => quietly (perform (.tick nanoseconds))

def Call.saved : Call → Bool
  | .serviceRestoreState _ saved => saved
  | _ => true

def step (text : TimeText) (s : Session) (call : Call) (s' : Session) : Prop :=
  ∃ r, (r,s'.world) ∈ (call.run text).runs outcomes 0 s.world ∧ r.2 = call.saved ∧
    s'.taken = r.1 ++ s.taken

/-- The accounts, with the index of the users that the next flush visits. -/
structure Books extends Accounts where
  dirtySet : Finset String
  dirtyQueue : List String

def World.books (w : World) : Books :=
  { w.accounts with
    dirtySet := w.dirtySet
    dirtyQueue := w.dirtyQueue }

namespace Account

variable (a : Account) (c : QuotaConfig) (clock : ℤ)

def counted (n : Int64) : Account :=
  { a with
    state := some
      { (a.userState.keyed (keyAt c clock)).add n with
        exceeded := a.userState.exceeded || decide (c.quotaBytes < a.userState.usage + n) } }

def withUsage (bytes : Int64) : Account :=
  { a with
    state := some
      { a.userState.keyed (keyAt c clock) with
        usage := bytes
        exceeded := c.quotaBytes < bytes } }

def rolled (now : ℤ) : Account :=
  match a.config with
  | none => a
  | some c => { a with state := a.state.map fun s => (rollSection s (keyAt c now)).2 }

def drained : Account := { a with state := a.state.map fun s => { s with pendingDelta := 0 } }

def pending (u : String) : Option PendingDelta :=
  a.state.bind fun s =>
    if s.pendingDelta = 0 then none else some ⟨u,s.periodKey,s.pendingDelta⟩

def givenBack (pd : PendingDelta) : Account :=
  { a with state := some (restoreSection a.userState pd.periodKey pd.delta).2 }

end Account

namespace Books

variable (b : Books)

def set (u : String) (a : Account) : Books := { b with toAccounts := b.setAccount u a }

def enqueue (u : String) : Books :=
  if u ∈ b.dirtySet then b
  else { b with dirtySet := insert u b.dirtySet, dirtyQueue := b.dirtyQueue ++ [u] }

def visit (users : List String) (f : Account → Account) : Books :=
  { b with account := fun u => if u ∈ users then f (b.account u) else b.account u }

def ofConfigured (u : String) (f : QuotaConfig → Account → Account) : Books :=
  match (b.account u).config with
  | none => b
  | some c => b.set u (f c (b.account u))

def addBytes (u : String) (n : Int64) : Books :=
  if n ≤ 0 ∨ (b.account u).config = none then b
  else (b.ofConfigured u fun c a => a.counted c b.clock n).enqueue u

def restorePendingDelta (pd : PendingDelta) : Books :=
  if pd.delta = 0 ∨ (b.account pd.user).config = none then b
  else if (b.account pd.user).userState.periodKey = pd.periodKey then
    (b.set pd.user ((b.account pd.user).givenBack pd)).enqueue pd.user
  else b.set pd.user ((b.account pd.user).givenBack pd)

def after (text : TimeText) : Call → Books
  | .registerConn u _ | .currentPeriodKey u => b.ofConfigured u fun c a => a.keyed c b.clock
  | .addBytes u n => b.addBytes u n
  | .loadUsage u bytes => b.ofConfigured u fun c a => a.withUsage c b.clock bytes
  | .applyConfig user =>
    match userConfig text user with
    | .error _ => b
    | .ok c => b.set user.name ((b.account user.name).configured c b.clock)
  | .removeConfig u => if u = "" then b else b.set u (b.account u).removed
  | .checkPeriodReset now => { b with account := fun u => (b.account u).rolled now }
  | .consumePendingDeltas =>
    { b.visit b.dirtyQueue Account.drained with
      dirtySet := ∅
      dirtyQueue := [] }
  | .restorePendingDelta pd => b.restorePendingDelta pd
  | .clearPendingDelta u => b.set u (b.account u).drained
  | .snapshotState _ => b
  | .restoreState state =>
    match restoredConfig text state with
    | .error _ => b
    | .ok c => b.set state.user.name ((b.account state.user.name).restored c state)
  | .serviceRestoreState state saved =>
    match restoredConfig text state with
    | .error _ => b
    | .ok c =>
      let a := (b.account state.user.name).restored c state
      let key := a.currentKey c b.clock
      b.set state.user.name (if saved then
        ((a.keyed c b.clock).setRecord key (some state.usageBytes)).withoutPending
        else a.keyed c b.clock)
  | .wait nanoseconds => { b with clock := b.clock + nanoseconds }

end Books

section refinement

variable {t : ℕ} {w w' : World} {u : String} {c : QuotaConfig}

lemma books_eq {b : Books} (ha : w'.accounts = b.toAccounts) (hs : w'.dirtySet = b.dirtySet)
    (hq : w'.dirtyQueue = b.dirtyQueue) : w'.books = b := by
  rw [World.books,ha,hs,hq]

@[simp] lemma books_clock : w.books.clock = w.clock := rfl

@[simp] lemma books_withClosed (closed : Conn → Bool) : (w.withClosed closed).books = w.books := rfl

lemma books_withState (f : UserState → UserState) : (w.withState u f).books = w.books.set u
    { w.books.account u with state := some (f (w.books.account u).userState) } := by
  refine books_eq (accounts_withState w u f) ?_ ?_
  · simp only [World.withState,World.modifyState,World.stateFor]
    split <;> rfl
  · simp only [World.withState,World.modifyState,World.stateFor]
    split <;> rfl

lemma books_configured (f : UserState → UserState) :
    ({ w with userConfigs := w.userConfigs.insert u c }.withState u f).books = w.books.set u
      { w.books.account u with
        config := some c
        state := some (f (w.books.account u).userState) } := by
  have h : { w with userConfigs := w.userConfigs.insert u c }.books =
      w.books.set u { w.books.account u with config := some c } :=
    books_eq (accounts_storeConfig w u c) rfl rfl
  rw [books_withState,h]
  simp [Books.set,Accounts.setAccount,Account.userState]

lemma books_modifyState {g : ℕ} (hg : w.states u = some g) (f : UserState → UserState) :
    (w.modifyState u g f).books =
      w.books.set u { w.books.account u with state := (w.books.account u).state.map f } := by
  have h := books_withState (w := w) (u := u) f
  have hs : (w.books.account u).state = some (w.stateHeap (u,g)) := state?_of_states hg
  simp only [World.withState,World.stateFor,hg] at h
  rw [h,Account.userState,hs]
  rfl

lemma account_state_of_none (hg : w.states u = none) : (w.books.account u).state = none := by
  change w.state? u = none
  rw [World.state?,hg,Option.map_none]

@[simp] lemma account_set (b : Books) (u : String) (a : Account) : (b.set u a).account u = a :=
  Function.update_self _ _ _

lemma account_set_ne {v : String} (hv : v ≠ u) (b : Books) (a : Account) :
    (b.set u a).account v = b.account v := Function.update_of_ne hv _ _

@[simp] lemma set_account (b : Books) (u : String) : b.set u (b.account u) = b := by
  simp [Books.set,Accounts.setAccount]

lemma visit_nil (b : Books) (f : Account → Account) : b.visit [] f = b := by
  simp only [Books.visit,List.not_mem_nil,if_false]

lemma visit_cons {b : Books} {users : List String} {f : Account → Account} (hu : u ∉ users) :
    b.visit (u :: users) f = (b.set u (f (b.account u))).visit users f := by
  have ha : ∀ v,(if v ∈ u :: users then f (b.account v) else b.account v) =
      if v ∈ users then f ((b.set u (f (b.account u))).account v)
      else (b.set u (f (b.account u))).account v := by
    intro v
    by_cases hv : v = u
    · subst hv
      simp [hu,Books.set]
    · simp [hv,Books.set,Accounts.setAccount]
  simp only [Books.visit,ha]
  rfl

lemma connsFor_books (w : World) (u : String) : (w.connsFor u).2.books = w.books := by
  unfold World.connsFor
  split <;> rfl

lemma books_markDirty (w : World) (u : String) : (w.markDirty u).books = w.books.enqueue u := by
  unfold World.markDirty Books.enqueue
  change _ = if u ∈ w.dirtySet then _ else _
  split_ifs <;> rfl

lemma set_ofConfigured {f : QuotaConfig → Account → Account} (hc : w.userConfigs.lookup u = some c) :
    w.books.ofConfigured u f = w.books.set u (f c (w.books.account u)) := by
  have h : (w.books.account u).config = some c := hc
  rw [Books.ofConfigured,h]

lemma ofConfigured_none {f : QuotaConfig → Account → Account} (hc : w.userConfigs.lookup u = none) :
    w.books.ofConfigured u f = w.books := by
  have h : (w.books.account u).config = none := hc
  rw [Books.ofConfigured,h]

lemma quietly_ends {α : Type} {p : Op α} {b : Books}
    (h : p.Ends outcomes t (fun _ w' => w'.books = b) w) :
    (quietly p).Ends outcomes t (fun r w' => r = ([],true) ∧ w'.books = b) w :=
  h.bind fun _ _ hb => ⟨rfl,hb⟩

lemma registerConn_ends {conn : Conn} (hw : Unlocked w) : (registerConn u conn).Ends outcomes t
    (fun _ w' => w'.books = w.books.ofConfigured u fun c a => a.keyed c w.clock) w := by
  let w₁ : World := { w with readers := insert t w.readers }
  have hf : ∀ (z : World) (b : Books),z.books = { b with readers := w₁.readers } →
      b.readers = w.readers → { z with readers := z.readers.erase t }.books = b := by
    intro z b hz hb
    have hr : z.readers.erase t = b.readers := by
      rw [show z.readers = w₁.readers from congrArg (·.readers) hz,hb]
      simp [w₁,hw.readers]
    change { z.books with readers := z.readers.erase t } = b
    rw [hz,hr]
  refine Prog.ends_one (z := w₁) (if_pos hw.writer) (Prog.ends_one rfl ?_)
  cases hc : w.userConfigs.lookup u with
  | none =>
    refine Prog.ends_one rfl ?_
    rw [ofConfigured_none hc]
    exact hf w₁ _ rfl rfl
  | some c =>
    rw [set_ofConfigured hc]
    have hc' : (w₁.stateFor u).2.userConfigs.lookup u = some c :=
      (congrArg _ (stateFor_configs w₁ u)).trans hc
    refine Prog.ends_one (r := (w₁.stateFor u).1) (z := (w₁.stateFor u).2) rfl (setKey_ends hc' ?_)
    rw [stateFor_clock]
    let w₂ := w₁.keyed u c
    refine Prog.ends_one (r := (w₂.connsFor u).1) (z := (w₂.connsFor u).2) rfl
      (Prog.ends_one rfl (Prog.ends_one rfl ?_))
    have hbo : (w₂.connsFor u).2.books =
        { w.books.set u ((w.books.account u).keyed c w.clock) with readers := w₁.readers } := by
      rw [connsFor_books]
      exact books_withState _
    split
    · exact Prog.ends_one rfl (Prog.ends_one rfl (hf _ _ hbo rfl))
    · exact Prog.ends_one rfl (Prog.ends_one rfl (Prog.ends_one rfl (hf _ _ hbo rfl)))

lemma addSection_configured {g : ℕ} (hc : w.userConfigs.lookup u = some c) (n : Int64) :
    ∃ key,addSection w u g n = (some (key,(w.stateHeap (u,g)).usage + n),
      w.modifyState u g fun s => (s.keyed (keyAt c w.clock)).add n) := by
  unfold addSection
  dsimp only
  split_ifs with hk
  · simp only [hc,periodKey_eq]
    refine ⟨_,congrArg (Prod.mk _) (World.modifyState_congr ?_)⟩
    rw [UserState.keyed,if_pos hk]
  · refine ⟨_,congrArg (Prod.mk _) (World.modifyState_congr ?_)⟩
    rw [UserState.keyed,if_neg hk]

lemma markDirty_modifyState (w : World) (u : String) (g : ℕ) (f : UserState → UserState) :
    (w.markDirty u).modifyState u g f = (w.modifyState u g f).markDirty u := by
  unfold World.markDirty World.modifyState
  dsimp only
  split_ifs <;> rfl

lemma addBytes_ends (n : Int64) :
    (addBytes u n).Ends outcomes t (fun _ w' => w'.books = w.books.addBytes u n) w := by
  have hco : (w.books.account u).config = w.userConfigs.lookup u := rfl
  unfold addBytes Books.addBytes
  by_cases hn : n ≤ 0
  · rw [if_pos hn,if_pos (.inl hn)]
    rfl
  rw [if_neg hn]
  refine Prog.ends_one rfl ?_
  cases hc : w.userConfigs.lookup u with
  | none =>
    rw [if_pos (.inr (hco.trans hc))]
    rfl
  | some c =>
    rw [if_neg (by simp [hn,hco,hc]),set_ofConfigured hc]
    let w₁ := (w.stateFor u).2
    let g := (w.stateFor u).1
    obtain ⟨key,ha⟩ := addSection_configured (w := w₁) (g := g)
      ((congrArg _ (stateFor_configs w u)).trans hc) n
    have hh : w₁.stateHeap (u,g) = (w.books.account u).userState := state?_stateFor_heap w u
    rw [hh,show w₁.clock = w.clock from stateFor_clock w u] at ha
    refine Prog.ends_one (r := g) (z := w₁) rfl (Prog.ends_one (congrArg (fun o => [o]) ha)
      (Prog.ends_one rfl ?_))
    have hb : ∀ f : UserState → UserState,((w₁.modifyState u g f).markDirty u).books =
        (w.books.set u { w.books.account u with
          state := some (f (w.books.account u).userState) }).enqueue u := by
      intro f
      rw [books_markDirty]
      exact congrArg (Books.enqueue · u) (books_withState f)
    split_ifs with hq
    · refine tripExceeded_ends fun closed => ?_
      rw [books_withClosed,markDirty_modifyState,World.modifyState_modifyState,hb]
      simp [Account.counted,hq]
    · refine (hb _).trans ?_
      simp [Account.counted,hq,UserState.add,UserState.keyed]

lemma restorePendingDelta_ends (pd : PendingDelta) : (restorePendingDelta pd).Ends outcomes t
    (fun _ w' => w'.books = w.books.restorePendingDelta pd) w := by
  have hco : (w.books.account pd.user).config = w.userConfigs.lookup pd.user := rfl
  unfold restorePendingDelta Books.restorePendingDelta
  by_cases hd : pd.delta = 0
  · rw [if_pos hd,if_pos (.inl hd)]
    rfl
  rw [if_neg hd]
  refine Prog.ends_one rfl ?_
  cases hc : w.userConfigs.lookup pd.user with
  | none =>
    rw [if_pos (.inr (hco.trans hc))]
    rfl
  | some c =>
    rw [if_neg (by simp [hd,hco,hc])]
    let w₁ := (w.stateFor pd.user).2
    let g := (w.stateFor pd.user).1
    have hh : w₁.stateHeap (pd.user,g) = (w.books.account pd.user).userState :=
      state?_stateFor_heap w pd.user
    have hb : (w₁.modifyState pd.user g fun s => (restoreSection s pd.periodKey pd.delta).2).books =
        w.books.set pd.user ((w.books.account pd.user).givenBack pd) := books_withState _
    refine Prog.ends_one (r := g) (z := w₁) rfl (Prog.ends_one rfl ?_)
    rw [hh]
    split_ifs with hk
    · simp only [restoreSection,hk,if_true]
      refine Prog.ends_perform rfl ?_
      rw [books_markDirty]
      exact congrArg (Books.enqueue · pd.user) hb
    · simp only [restoreSection,hk,if_false]
      exact hb

lemma checkUsers_ends {now : ℤ} {users : List String} (resets : List PeriodReset)
    (hn : users.Nodup) (hco : ∀ v ∈ users,∃ c,w.userConfigs.lookup v = some c) :
    (checkUsers now users resets).Ends outcomes t
      (fun _ w' => w'.books = w.books.visit users (·.rolled now)) w := by
  induction users generalizing w resets with
  | nil => exact (visit_nil w.books _).symm
  | cons v users ih =>
    obtain ⟨hv,hn⟩ := List.nodup_cons.mp hn
    obtain ⟨⟨c,hc⟩,hco⟩ := List.forall_mem_cons.mp hco
    rw [visit_cons hv]
    refine Prog.ends_one rfl ?_
    have hr : (w.books.account v).rolled now = { w.books.account v with
        state := (w.books.account v).state.map fun s => (rollSection s (keyAt c now)).2 } := by
      have hc' : (w.books.account v).config = some c := hc
      unfold Account.rolled
      split
      · next h => exact nomatch h.symm.trans hc'
      · next c' h => rw [Option.some.inj (h.symm.trans hc')]
    cases hg : w.states v with
    | none =>
      have hs := account_state_of_none hg
      have hsa : (w.books.account v).rolled now = w.books.account v := by
        rw [hr,hs,Option.map_none,← hs]
      rw [hsa,set_account]
      exact ih resets hn hco
    | some g =>
      refine Prog.Ends.bind (R := fun key w' => key = keyAt c now ∧ w' = w)
        (mustPeriodKey_ends hc ⟨rfl,rfl⟩) fun key w' hk => ?_
      obtain ⟨rfl,rfl⟩ := hk
      refine Prog.ends_one rfl ?_
      rw [hr,← books_modifyState hg]
      split
      · exact ih _ hn hco
      · exact ih _ hn hco

lemma checkPeriodReset_ends (now : ℤ) : (checkPeriodReset now).Ends outcomes t
    (fun _ w' => w'.books = { w.books with account := fun u => (w.books.account u).rolled now }) w := by
  refine Prog.ends_act ?_ fun users w' hme => ?_
  · exact List.ne_nil_of_mem (List.mem_map_of_mem (List.mem_permutations'.mpr (List.Perm.refl _)))
  obtain ⟨users',hp,he⟩ := List.mem_map.mp hme
  obtain ⟨rfl,rfl⟩ := Prod.mk.inj he
  have hp := List.mem_permutations'.mp hp
  have hvi : w.books.visit users' (·.rolled now) =
      { w.books with account := fun u => (w.books.account u).rolled now } := by
    have ha : ∀ v,(if v ∈ users' then (w.books.account v).rolled now
        else w.books.account v) = (w.books.account v).rolled now := by
      intro v
      split_ifs with hv
      · rfl
      · have hn : (w.books.account v).config = none :=
          AList.lookup_eq_none.mpr fun h => hv (hp.mem_iff.mpr h)
        rw [Account.rolled,hn]
    simp only [Books.visit,ha]
  rw [← hvi]
  refine checkUsers_ends [] (hp.nodup_iff.mpr (AList.keys_nodup _)) fun v hv => ?_
  exact Option.isSome_iff_exists.mp (AList.lookup_isSome.mpr (hp.mem_iff.mp hv))

lemma consumeUsers_ends {users : List String} (pds : List PendingDelta) (hn : users.Nodup) :
    (consumeUsers users pds).Ends outcomes t
      (fun r w' => r = pds ++ users.filterMap (fun u => (w.books.account u).pending u) ∧
        w'.books = w.books.visit users Account.drained) w := by
  induction users generalizing w pds with
  | nil => exact ⟨by simp,(visit_nil w.books _).symm⟩
  | cons v users ih =>
    obtain ⟨hv,hn⟩ := List.nodup_cons.mp hn
    have hr : ∀ a,users.filterMap (fun u => ((w.books.set v a).account u).pending u) =
        users.filterMap fun u => (w.books.account u).pending u := by
      intro a
      refine List.filterMap_congr fun u hu => ?_
      have hne : u ≠ v := fun h => hv (h ▸ hu)
      simp [Books.set,Accounts.setAccount,hne]
    rw [visit_cons hv,List.filterMap_cons]
    refine Prog.ends_one rfl ?_
    cases hg : w.states v with
    | none =>
      have hs := account_state_of_none hg
      have hsa : (w.books.account v).drained = w.books.account v := by
        rw [Account.drained,hs,Option.map_none,← hs]
      have hp : (w.books.account v).pending v = none := by
        rw [Account.pending,hs,Option.bind_none]
      rw [hsa,set_account,hp]
      exact ih pds hn
    | some g =>
      have hs : (w.books.account v).state = some (w.stateHeap (v,g)) := state?_of_states hg
      refine Prog.ends_one rfl ?_
      have hb : (w.modifyState v g fun s => { s with pendingDelta := 0 }).books =
          w.books.set v (w.books.account v).drained := books_modifyState hg _
      dsimp only
      split_ifs with hz
      · have hp : (w.books.account v).pending v = none := by
          rw [Account.pending,hs,Option.bind_some,if_pos hz]
        rw [hp,← hb]
        have h := ih (w := w.modifyState v g fun s => { s with pendingDelta := 0 }) pds hn
        rw [hb,hr] at h
        exact hb ▸ h
      · have hp : (w.books.account v).pending v =
            some ⟨v,(w.stateHeap (v,g)).periodKey,(w.stateHeap (v,g)).pendingDelta⟩ := by
          rw [Account.pending,hs,Option.bind_some,if_neg hz]
        have h := ih (w := w.modifyState v g fun s => { s with pendingDelta := 0 })
          (pds ++ [⟨v,(w.stateHeap (v,g)).periodKey,(w.stateHeap (v,g)).pendingDelta⟩]) hn
        rw [hb,hr] at h
        simpa [hp] using h

lemma applyConfig_books (text : TimeText) (user : TrafficQuotaUser) : (applyConfig text user).Ends
    outcomes t (fun _ w' => w'.books = w.books.after text (.applyConfig user)) w := by
  simp only [Books.after]
  refine applyConfig_ends (fun err he => ?_) fun c hc closed => ?_
  · rw [he]
  · rw [hc]
    exact books_configured (w := w) (u := user.name) (c := c) fun s =>
      { s.keyed (keyAt c w.clock) with exceeded := c.quotaBytes < s.usage }

lemma removeConfig_books (text : TimeText) (hw : Unlocked w) : (removeConfig u).Ends outcomes t
    (fun _ w' => w'.books = w.books.after text (.removeConfig u)) w := by
  simp only [Books.after]
  refine removeConfig_ends hw.writer hw.readers (fun hu => ?_) fun hu closed lists => ?_
  · rw [if_pos hu]
  · rw [if_neg hu]
    exact books_eq (accounts_removed w u closed lists) rfl rfl

lemma loadUsage_books (bytes : Int64) : (loadUsage u bytes).Ends outcomes t
    (fun _ w' => w'.books = w.books.ofConfigured u fun c a => a.withUsage c w.clock bytes) w := by
  cases hc : w.userConfigs.lookup u with
  | none =>
    rw [ofConfigured_none hc]
    refine Prog.ends_one rfl ?_
    rw [hc]
    rfl
  | some c =>
    rw [set_ofConfigured hc]
    exact loadUsage_ends hc fun closed => (books_withClosed closed).trans (books_withState _)

lemma cleared_books (w : World) (u : String) :
    (w.cleared u).books = w.books.set u (w.books.account u).drained := by
  unfold World.cleared
  cases hg : w.states u with
  | none =>
    have hs := account_state_of_none hg
    rw [Account.drained,hs,Option.map_none,← hs]
    exact (set_account w.books u).symm
  | some g => exact books_modifyState hg _

lemma restored_books (c : QuotaConfig) (state : RuntimeState) (conns : String → Option ℕ) :
    (w.restored c state conns).books =
      w.books.set state.user.name ((w.books.account state.user.name).restored c state) :=
  books_configured (w := w) (u := state.user.name) (c := c) fun _ =>
    ⟨state.usageBytes,state.pendingDelta,state.exceeded,state.periodKey⟩

lemma released_books {z : World} {b : Books} (hf : b.mutex .persistAccess = none)
    (hz : z.books = { b with mutex := Function.update b.mutex .persistAccess (some t) }) :
    { z with mutex := Function.update z.mutex .persistAccess none }.books = b := by
  have hmu : z.mutex = Function.update b.mutex .persistAccess (some t) := congrArg (·.mutex) hz
  change { z.books with mutex := Function.update z.mutex .persistAccess none } = _
  rw [hmu,hz,Function.update_idem,← hf,Function.update_eq_self]

lemma saveRestored_ends {key : String} {bytes : Int64} {a : Account} {s : UserState} {z : World}
    {f : Bool → Op (Except QuotaError Unit)} (hw : Unlocked w) (hs : a.state = some s)
    (hz : z.books = { w.books.set u a with
      mutex := Function.update w.mutex .persistAccess (some t) })
    (hf : f false = do
      perform (.unlock .persistAccess)
      .ret (Except.error (QuotaError.saveRecord u key)))
    (ht : f true = do
      clearPendingDelta u
      perform (.unlock .persistAccess)
      .ret (.ok ())) :
    (perform (.save u key bytes) >>= f).Ends outcomes t (fun r w' => w'.books = w.books.set u
      (if r.isOk then (a.setRecord key (some bytes)).withoutPending else a)) z := by
  refine Prog.ends_act (List.cons_ne_nil _ _) fun saved z' hme => ?_
  rcases List.mem_pair.mp hme with he | he <;> obtain ⟨rfl,rfl⟩ := Prod.mk.inj he
  · rw [ht]
    refine Prog.Ends.bind (R := fun _ z' => z'.books = { w.books.set u
      (a.setRecord key (some bytes)).withoutPending with
        mutex := Function.update w.mutex .persistAccess (some t) }) (clearPendingDelta_ends ?_)
      fun _ z' hz' => Prog.ends_one rfl (released_books (hw.mutex _) hz')
    have hr : (z.setRecord u key (some bytes)).books =
        z.books.set u ((z.books.account u).setRecord key (some bytes)) :=
      books_eq (accounts_setRecord z u key (some bytes)) rfl rfl
    rw [cleared_books,hr,hz]
    simp [Books.set,Accounts.setAccount,Account.drained,Account.withoutPending,
      Account.setRecord,Account.userState,hs]
  · rw [hf]
    exact Prog.ends_one rfl (released_books (hw.mutex _) hz)

lemma serviceRestoreState_ends (text : TimeText) (state : RuntimeState) (hw : Unlocked w) :
    (serviceRestoreState text state).Ends outcomes t (fun r w' =>
      w'.books = w.books.after text (.serviceRestoreState state r.isOk)) w := by
  let w₁ := w.withMutex .persistAccess (some t)
  refine Prog.ends_one (lock_outcomes (hw.mutex .persistAccess)) (Prog.Ends.bind (R := fun r w' =>
    match restoredConfig text state with
    | .error err => r = .error err ∧ w' = w₁
    | .ok c => r = .ok () ∧ ∃ conns,w' = w₁.restored c state conns)
    (restoreState_ends (fun err her => ?_) fun c hc conns => ?_) fun r w' hr => ?_)
  · rw [her]
    exact ⟨rfl,rfl⟩
  · rw [hc]
    exact ⟨rfl,conns,rfl⟩
  simp only [Books.after]
  cases hco : restoredConfig text state with
  | error err =>
    rw [hco] at hr
    obtain ⟨rfl,rfl⟩ := hr
    exact Prog.ends_one rfl (released_books (hw.mutex _) rfl)
  | ok c =>
    rw [hco] at hr
    obtain ⟨rfl,conns,rfl⟩ := hr
    let a := (w.books.account state.user.name).restored c state
    let w₂ := w₁.restored c state conns
    have hb : w₂.books = { w.books.set state.user.name a with mutex := w₁.mutex } :=
      restored_books c state conns
    have hc : w₂.userConfigs.lookup state.user.name = some c := by
      change (w₂.books.account state.user.name).config = some c
      rw [hb]
      simp [Books.set,Accounts.setAccount,a,Account.restored]
    have hcl : w₂.clock = w.clock := congrArg (·.clock) hb
    dsimp only
    rw [books_clock]
    split_ifs with he
    · refine Prog.Ends.bind (R := fun key (z : World) => key = a.currentKey c w.clock ∧
        z.books = { w.books.set state.user.name (a.keyed c w.clock) with mutex := w₁.mutex })
        (currentPeriodKey_ends hc ⟨?_,?_⟩) ?_
      · have h : w₂.accounts.account state.user.name = a := by
          change w₂.books.account state.user.name = a
          rw [hb]
          simp [Books.set,Accounts.setAccount]
        rw [World.currentKey_accounts,hcl,h]
      · rw [World.keyed,books_withState,hb,hcl]
        simp [Books.set,Accounts.setAccount,Account.keyed]
      · rintro _ z ⟨rfl,hz⟩
        exact saveRestored_ends hw rfl hz rfl rfl
    · have hcu : state.periodKey = a.currentKey c w.clock := (if_neg he).symm
      have hk : a.keyed c w.clock = a := by
        rw [Account.keyed,Account.keyed_of_key he]
        rfl
      change Prog.Ends outcomes t _ (perform (.save _ state.periodKey _) >>= _) w₂
      rw [hcu]
      exact saveRestored_ends hw rfl (hk.symm ▸ hb) rfl rfl

lemma currentPeriodKey_unconfigured {r : List RuntimeState × Bool} {P : RuntimeState → Prop}
    (hc : w.userConfigs.lookup u = none)
    (hr : (r,w') ∈ (quietly (currentPeriodKey u)).runs outcomes t w) :
    w'.books = w.books ∧ ∀ snapshot ∈ r.1,P snapshot := by
  obtain ⟨key,w₁,hk,hre⟩ := Prog.mem_runs_bind.mp hr
  obtain ⟨rfl,rfl⟩ := Prod.mk.inj (List.mem_singleton.mp hre)
  refine ⟨?_,nofun⟩
  have hc' : (w.stateFor u).2.userConfigs.lookup u = none :=
    (congrArg _ (stateFor_configs w u)).trans hc
  simp only [currentPeriodKey,Prog.perform_bind,Prog.runs,outcomes,List.flatMap_singleton] at hk
  split_ifs at hk with he
  · cases hg : w.states u with
    | some g =>
      simp only [World.stateFor,hg,Prog.runs,List.mem_singleton] at hk
      rw [(Prod.mk.inj hk).2]
    | none => simp [World.stateFor,hg,UserState.empty] at he
  · simp [mustPeriodKey,getCurrentPeriodKey,Prog.perform,Prog.runs,outcomes,hc',Prog.act_bind] at hk

/-- A call does to the books what it should, and a snapshot is one of the account. -/
theorem run_books {text : TimeText} {call : Call} {r : List RuntimeState × Bool} (hw : Unlocked w)
    (hqe : w.dirtyQueue.Nodup) (hru : (r,w') ∈ (call.run text).runs outcomes t w)
    (hsa : r.2 = call.saved) : w'.books = w.books.after text call ∧
      ∀ snapshot ∈ r.1,∃ u c conns,(w.books.account u).config = some c ∧
        snapshot = (w.books.account u).snapshot c text u conns := by
  have hqu : ∀ {α : Type} {p : Op α} {b : Books},(r,w') ∈ (quietly p).runs outcomes t w →
      p.Ends outcomes t (fun _ w' => w'.books = b) w → w'.books = b ∧ ∀ snapshot ∈ r.1,
        ∃ u c conns,(w.books.account u).config = some c ∧
          snapshot = (w.books.account u).snapshot c text u conns := by
    intro α p b hr hp
    obtain ⟨rfl,hb⟩ := (quietly_ends hp).of_mem_runs hr
    exact ⟨hb,nofun⟩
  cases call with
  | registerConn u conn => exact hqu hru (registerConn_ends hw)
  | addBytes u n => exact hqu hru (addBytes_ends n)
  | loadUsage u bytes => exact hqu hru (loadUsage_books bytes)
  | applyConfig user => exact hqu hru (applyConfig_books text user)
  | removeConfig u => exact hqu hru (removeConfig_books text hw)
  | checkPeriodReset now => exact hqu hru (checkPeriodReset_ends now)
  | currentPeriodKey u =>
    cases hc : w.userConfigs.lookup u with
    | some c =>
      refine hqu hru ?_
      rw [Books.after,set_ofConfigured hc]
      exact currentPeriodKey_ends hc (books_withState _)
    | none =>
      rw [Books.after,ofConfigured_none hc]
      exact currentPeriodKey_unconfigured hc hru
  | consumePendingDeltas =>
    refine hqu hru (Prog.ends_one rfl ((consumeUsers_ends (w := { w with
      dirtySet := ∅,dirtyQueue := [] }) [] hqe).mono fun _ _ h => h.2))
  | restorePendingDelta pd => exact hqu hru (restorePendingDelta_ends pd)
  | clearPendingDelta u => exact hqu hru (clearPendingDelta_ends (cleared_books w u))
  | snapshotState u =>
    have he : ((Call.snapshotState u).run text).Ends outcomes t (fun r w' => w' = w ∧
        ∀ snapshot ∈ r.1,∃ c conns,(w.books.account u).config = some c ∧
          snapshot = (w.books.account u).snapshot c text u conns) w := by
      refine Prog.Ends.bind (R := fun r w' => w' = w ∧ ∀ snapshot ∈ r.toList,∃ c conns,
        (w.books.account u).config = some c ∧ snapshot = (w.books.account u).snapshot c text u conns)
        (snapshotState_ends text (fun _ => ⟨rfl,nofun⟩) fun c conns hc => ⟨rfl,?_⟩) fun _ _ h => h
      intro snapshot hs
      exact ⟨c,conns,hc,List.mem_singleton.mp hs⟩
    obtain ⟨rfl,hsn⟩ := he.of_mem_runs hru
    exact ⟨rfl,fun snapshot hs => ⟨u,hsn snapshot hs⟩⟩
  | restoreState state =>
    refine hqu hru (restoreState_ends (fun err her => ?_) fun c hc conns => ?_)
    · simp only [Books.after,her]
    · simp only [Books.after,hc]
      exact restored_books c state conns
  | serviceRestoreState state saved =>
    obtain ⟨result,w₁,hre,hrt⟩ := Prog.mem_runs_bind.mp hru
    obtain ⟨rfl,rfl⟩ := Prod.mk.inj (List.mem_singleton.mp hrt)
    have h := (serviceRestoreState_ends text state hw).of_mem_runs hre
    rw [show result.isOk = saved from hsa] at h
    exact ⟨h,nofun⟩
  | wait nanoseconds => exact hqu hru (Prog.ends_perform rfl rfl)

end refinement

end SingBoxAuth.TrafficQuota
