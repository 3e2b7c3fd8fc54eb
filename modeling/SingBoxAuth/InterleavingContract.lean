import SingBoxAuth.Interleaving

/-! Rely-guarantee reasoning for interleaved programs. A contract fixes an
invariant and, for each action, the condition under which a thread may issue it.
Assertions between two actions of a thread must be stable: no action that another
thread may issue under the contract falsifies them. -/
namespace SingBoxAuth.Interleaving

structure Contract (Act : Type) (Res : Act → Type) (St : Type) where
  exec : Exec Act Res St
  inv : Moment Act Res St → Prop
  pre : ℕ → (a : Act) → Moment Act Res St → Prop
  keeps : ∀ {t : ℕ} {a : Act} {m : Moment Act Res St} {r : Res a} {s : St},
    inv m → pre t a m → exec t a m.state r s → inv (m.after t a r s)

variable {Act : Type} {Res : Act → Type} {St α β : Type}

namespace Contract

variable (C : Contract Act Res St)

/-- What the other threads may do between two actions of thread t. -/
def Rely (t : ℕ) (m m' : Moment Act Res St) : Prop :=
  ∃ (u : ℕ) (a : Act) (r : Res a) (s : St),
    u ≠ t ∧ C.inv m ∧ C.pre u a m ∧ C.exec u a m.state r s ∧ m' = m.after u a r s

def Stable (t : ℕ) (P : Moment Act Res St → Prop) : Prop := ∀ m m', C.Rely t m m' → P m → P m'

/-- Every action of the program meets its condition, whatever the others do, and
the postcondition holds when it returns. -/
def Safe (t : ℕ) (Q : α → Moment Act Res St → Prop) :
    Prog Act Res α → Moment Act Res St → Prop
  | .ret x, m => Q x m
  | .act a next, m => ∃ P : Moment Act Res St → Prop, C.Stable t P ∧ P m ∧
      ∀ m, C.inv m → P m → C.pre t a m ∧
        ∀ r s, C.exec t a m.state r s → C.inv (m.after t a r s) →
          Safe t Q (next r) (m.after t a r s)

def Triple (t : ℕ) (P : Moment Act Res St → Prop) (p : Prog Act Res α)
    (Q : α → Moment Act Res St → Prop) : Prop := ∀ m, C.inv m → P m → C.Safe t Q p m

variable {C} {t : ℕ} {P P' : Moment Act Res St → Prop}

lemma stable_of_step (h : ∀ m u a r s,u ≠ t → C.inv m → C.pre u a m →
    C.exec u a m.state r s → P m → P (m.after u a r s)) : C.Stable t P := by
  rintro m m' ⟨u,a,r,s,hu,hi,hp,he,rfl⟩ hm
  exact h m u a r s hu hi hp he hm

lemma Stable.and (h : C.Stable t P) (h' : C.Stable t P') : C.Stable t fun m => P m ∧ P' m :=
  fun m m' hr hm => ⟨h m m' hr hm.1,h' m m' hr hm.2⟩

lemma Stable.const (p : Prop) : C.Stable t fun _ => p := fun _ _ _ hp => hp

variable {Q : α → Moment Act Res St → Prop} {m : Moment Act Res St}

lemma Safe.bind {R : β → Moment Act Res St → Prop} {p : Prog Act Res β} {f : β → Prog Act Res α}
    (h : C.Safe t R p m) (hi : C.inv m) (hf : ∀ x m,C.inv m → R x m → C.Safe t Q (f x) m) :
    C.Safe t Q (p >>= f) m := by
  induction p generalizing m with
  | ret x => exact hf x m hi h
  | act a next ih =>
    obtain ⟨P,hs,hp,hn⟩ := h
    refine ⟨P,hs,hp,fun m hi hm => ⟨(hn m hi hm).1,fun r s he hi' => ?_⟩⟩
    exact ih r ((hn m hi hm).2 r s he hi') hi'

lemma Safe.mono {Q' : α → Moment Act Res St → Prop} {p : Prog Act Res α} (h : C.Safe t Q p m)
    (hi : C.inv m) (hp : ∀ x m,C.inv m → Q x m → Q' x m) : C.Safe t Q' p m := by
  have hb := h.bind (f := Prog.ret) hi hp
  rwa [Prog.bind_ret] at hb

lemma Safe.rely {p : Prog Act Res α} {m' : Moment Act Res St} (hq : ∀ x,C.Stable t (Q x))
    (hr : C.Rely t m m') (h : C.Safe t Q p m) : C.Safe t Q p m' := by
  cases p with
  | ret x => exact hq x m m' hr h
  | act a next =>
    obtain ⟨P,hs,hp,hn⟩ := h
    exact ⟨P,hs,hs m m' hr hp,hn⟩

lemma Safe.pre {a : Act} {next : Res a → Prog Act Res α} (h : C.Safe t Q (.act a next) m)
    (hi : C.inv m) : C.pre t a m := by
  obtain ⟨P,-,hp,hn⟩ := h
  exact (hn m hi hp).1

lemma Safe.run {a : Act} {next : Res a → Prog Act Res α} {r : Res a} {s : St}
    (h : C.Safe t Q (.act a next) m) (hi : C.inv m) (he : C.exec t a m.state r s) :
    C.Safe t Q (next r) (m.after t a r s) := by
  obtain ⟨P,-,hp,hn⟩ := h
  exact (hn m hi hp).2 r s he (C.keeps hi (hn m hi hp).1 he)

section rules

variable {Q Q' : α → Moment Act Res St → Prop}

lemma Triple.ret {x : α} (h : ∀ m,C.inv m → P m → Q x m) : C.Triple t P (.ret x) Q := h

lemma Triple.act {a : Act} {next : Res a → Prog Act Res α} {R : Res a → Moment Act Res St → Prop}
    (stable : C.Stable t P)
    (step : ∀ m,C.inv m → P m → C.pre t a m ∧
      ∀ r s,C.exec t a m.state r s → C.inv (m.after t a r s) → R r (m.after t a r s))
    (rest : ∀ r,C.Triple t (R r) (next r) Q) : C.Triple t P (.act a next) Q :=
  fun _ _ hm => ⟨P,stable,hm,fun m hi hm => ⟨(step m hi hm).1,fun r s he hi' =>
    rest r _ hi' ((step m hi hm).2 r s he hi')⟩⟩

lemma Triple.perform {a : Act} {Q : Res a → Moment Act Res St → Prop} (stable : C.Stable t P)
    (step : ∀ m,C.inv m → P m → C.pre t a m ∧
      ∀ r s,C.exec t a m.state r s → C.inv (m.after t a r s) → Q r (m.after t a r s)) :
    C.Triple t P (Prog.perform a) Q :=
  Triple.act stable step fun _ => Triple.ret fun _ _ h => h

lemma Triple.bind {R : β → Moment Act Res St → Prop} {p : Prog Act Res β} {f : β → Prog Act Res α}
    (hp : C.Triple t P p R) (hf : ∀ x,C.Triple t (R x) (f x) Q) :
    C.Triple t P (p >>= f) Q :=
  fun m hi hm => (hp m hi hm).bind hi fun x => hf x

variable {p : Prog Act Res α}

lemma Triple.conseq (h : C.Triple t P p Q) (hpr : ∀ m,C.inv m → P' m → P m)
    (hp : ∀ x m,C.inv m → Q x m → Q' x m) :
    C.Triple t P' p Q' :=
  fun m hi hm => (h m hi (hpr m hi hm)).mono hi hp

lemma Triple.weaken (h : C.Triple t P p Q) (hp : ∀ m,C.inv m → P' m → P m) : C.Triple t P' p Q :=
  h.conseq hp fun _ _ _ hq => hq

/-- An assertion that no issued action touches is carried through the program. -/
theorem Triple.of_uses {allowed : Act → Prop} (stable : C.Stable t P)
    (step : ∀ a,allowed a → ∀ m,C.inv m → P m → C.pre t a m ∧
      ∀ r s,C.exec t a m.state r s → C.inv (m.after t a r s) → P (m.after t a r s))
    (hp : p.Uses allowed) : C.Triple t P p fun _ => P := by
  induction p with
  | ret x => exact Triple.ret fun _ _ h => h
  | act a next ih => exact Triple.act stable (step a hp.1) fun r => ih r (hp.2 r)

/-- Frame rule: an assertion that the issued actions keep can be added to both sides. -/
theorem Triple.frame {allowed : Act → Prop} {F : Moment Act Res St → Prop} (h : C.Triple t P p Q)
    (hp : p.Uses allowed) (stable : C.Stable t F)
    (own : ∀ {a m r s},allowed a → C.exec t a m.state r s → F m → F (m.after t a r s)) :
    C.Triple t (fun m => P m ∧ F m) p fun x m => Q x m ∧ F m := by
  have safe : ∀ m,C.Safe t Q p m → F m → C.Safe t (fun x m => Q x m ∧ F m) p m := by
    clear h
    induction p with
    | ret x => exact fun m hq hf => ⟨hq,hf⟩
    | act a next ih =>
      rintro m ⟨R,hs,hr,hn⟩ hf
      refine ⟨fun m => R m ∧ F m,hs.and stable,⟨hr,hf⟩,fun m hi hm => ?_⟩
      refine ⟨(hn m hi hm.1).1,fun r s he hi' => ?_⟩
      exact ih r (hp.2 r) _ ((hn m hi hm.1).2 r s he hi') (own hp.1 he hm.2)
  exact fun m hi hm => safe m (h m hi hm.1) hm.2

end rules

/-- Soundness: if every program that may be started is safe from the idle
assertion of its thread, then in every interleaving the invariant holds and what
remains of every thread is safe. -/
theorem sound {ops : Ops Act Res St} {idle : ℕ → Moment Act Res St → Prop}
    (stable : ∀ t,C.Stable t (idle t))
    (started : ∀ t m p,ops t m p → C.inv m → idle t m → C.Safe t (fun _ => idle t) p m)
    {c d : Config Act Res St} (run : Reach C.exec ops c d) (hin : C.inv c.moment)
    (hp : ∀ t,C.Safe t (fun _ => idle t) (c.pool t) c.moment) :
    C.inv d.moment ∧ ∀ t,C.Safe t (fun _ => idle t) (d.pool t) d.moment := by
  induction run with
  | refl => exact ⟨hin,hp⟩
  | @tail c d _ hst ih =>
    obtain ⟨hi,hs⟩ := ih
    cases hst with
    | @start t p free allowed =>
      refine ⟨hi,fun u => ?_⟩
      by_cases hu : u = t
      · subst hu
        have hid := hs u
        rw [free] at hid
        simpa [Config.start] using started u _ p allowed hi hid
      · simpa [Config.start,Function.update_of_ne hu] using hs u
    | @run t a next r s ready _ does =>
      have ht := hs t
      rw [ready] at ht
      refine ⟨C.keeps hi (ht.pre hi) does,fun u => ?_⟩
      by_cases hu : u = t
      · subst hu
        simpa [Config.run] using ht.run hi does
      · have hr : C.Rely u c.moment (c.moment.after t a r s) :=
          ⟨t,a,r,s,Ne.symm hu,hi,ht.pre hi,does,rfl⟩
        simpa [Config.run,Function.update_of_ne hu] using (hs u).rely (fun _ => stable u) hr

/-- Soundness from a state in which nothing has been started. -/
theorem sound_idle {ops : Ops Act Res St} {idle : ℕ → Moment Act Res St → Prop}
    (stable : ∀ t,C.Stable t (idle t))
    (started : ∀ t m p,ops t m p → C.inv m → idle t m → C.Safe t (fun _ => idle t) p m) {s : St}
    {d : Config Act Res St} (run : Reach C.exec ops (Config.idle s) d) (hin : C.inv ⟨s,[]⟩)
    (hi : ∀ t,idle t ⟨s,[]⟩) :
    C.inv d.moment ∧ ∀ t,C.Safe t (fun _ => idle t) (d.pool t) d.moment :=
  sound stable started run hin hi

/-- Once the programs are safe, a further invariant needs one check per action: it
may use the invariant, the condition of the action, the class of actions that the
started programs issue, and the guard of the run. -/
theorem sound_also {ops : Ops Act Res St} {idle : ℕ → Moment Act Res St → Prop}
    (stable : ∀ t,C.Stable t (idle t))
    (started : ∀ t m p,ops t m p → C.inv m → idle t m → C.Safe t (fun _ => idle t) p m)
    {exec : Exec Act Res St} (he : ∀ t a s r s',exec t a s r s' → C.exec t a s r s')
    {allowed : ℕ → Act → Prop} (uses : ∀ t m p,ops t m p → p.Uses (allowed t))
    {guard : Guard Act Res St} {X : Moment Act Res St → Prop}
    (step : ∀ t a m r s,C.inv m → C.pre t a m → allowed t a → guard t a m →
      exec t a m.state r s → X m → X (m.after t a r s)) {c d : Config Act Res St}
    (run : ReachWhen guard exec ops c d) (hin : C.inv c.moment)
    (hp : ∀ t,C.Safe t (fun _ => idle t) (c.pool t) c.moment)
    (hus : ∀ t,(c.pool t).Uses (allowed t)) (hX : X c.moment) : X d.moment := by
  have ha : X d.moment ∧ ∀ t,(d.pool t).Uses (allowed t) := by
    induction run with
    | refl => exact ⟨hX,hus⟩
    | @tail d e run hst ih =>
      obtain ⟨hi,hs⟩ := sound stable started (Reach.mono he (fun _ _ _ h => h) (ReachWhen.reach run))
        hin hp
      cases hst with
      | @start t p free ok =>
        refine ⟨ih.1,fun u => ?_⟩
        by_cases hu : u = t
        · subst hu
          simpa [Config.start] using uses u _ p ok
        · simpa [Config.start,Function.update_of_ne hu] using ih.2 u
      | @run t a next r s ready meets does =>
        have ht := hs t
        have hu := ih.2 t
        rw [ready] at ht hu
        refine ⟨step t a _ r s hi (ht.pre hi) hu.1 meets does ih.1,fun u => ?_⟩
        by_cases hut : u = t
        · subst hut
          simpa [Config.run] using hu.2 r
        · simpa [Config.run,Function.update_of_ne hut] using ih.2 u
  exact ha.1

end Contract
end SingBoxAuth.Interleaving
