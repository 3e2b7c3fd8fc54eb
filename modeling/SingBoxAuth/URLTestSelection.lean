import Mathlib.Data.List.Basic

/-! The selection of a URLTest group: the running minimum of the measured delays in 16 bits, with a
tolerance that keeps what was selected before. -/
namespace SingBoxAuth.URLTest

inductive Network
  | tcp
  | udp
  deriving DecidableEq

structure Group (O : Type) where
  outbounds : List O
  tolerance : UInt16
  selectedOutboundTCP : Option O
  selectedOutboundUDP : Option O

variable {O : Type}

def Group.selected (g : Group O) : Network → Option O
  | .tcp => g.selectedOutboundTCP
  | .udp => g.selectedOutboundUDP

section select

variable (supports : O → Network → Bool) (history : O → Option UInt16) (network : Network)

/-- One round of the loop, with the smallest delay so far, 0 if there is none, and its outbound. -/
def consider (tolerance : UInt16) (best : UInt16 × Option O) (detour : O) : UInt16 × Option O :=
  if supports detour network then
    match history detour with
    | none => best
    | some delay =>
      if best.1 = 0 ∨ best.1 > delay + tolerance then (delay,some detour) else best
  else best

def Group.initial (g : Group O) : UInt16 × Option O :=
  match g.selected network with
  | none => (0,none)
  | some outbound =>
    match history outbound with
    | none => (0,none)
    | some delay => (delay,some outbound)

/-- The outbound, and whether it was measured. -/
def Group.select (g : Group O) : Option O × Bool :=
  match (g.outbounds.foldl (consider supports history network g.tolerance)
    (g.initial history network)).2 with
  | some outbound => (some outbound,true)
  | none => (g.outbounds.find? (supports · network),false)

def Measured (l : List O) (o : O) (delay : UInt16) : Prop :=
  o ∈ l ∧ supports o network = true ∧ history o = some delay

/-- With a measurement, the outbound that is returned has one within the tolerance of all others. -/
def Group.NearOptimal (g : Group O) : Prop :=
  (∃ o d, Measured supports history network g.outbounds o d) →
    ∃ o d, g.select supports history network = (some o,true) ∧ history o = some d ∧
      ∀ o' d', Measured supports history network g.outbounds o' d' →
        d.toNat ≤ d'.toNat + g.tolerance.toNat

/-- What is selected and measured stays, unless another one is better by more than the tolerance. -/
def Group.Stable (g : Group O) : Prop :=
  ∀ o d, g.selected network = some o → history o = some d →
    (g.select supports history network).1 = some o ∨
      ∃ o' d', Measured supports history network g.outbounds o' d' ∧
        d'.toNat + g.tolerance.toNat < d.toNat

/-- Beside an outbound that supports the network no other one has the delay 0, and where its delay
with the tolerance leaves the 16 bits, no other one has more than what is left of the sum. -/
def Moderate (tolerance : UInt16) : Prop :=
  ∀ o o' d d', o ≠ o' → supports o' network = true → history o = some d → history o' = some d' →
    d ≠ 0 ∧ (d'.toNat + tolerance.toNat < 65536 ∨
      d.toNat ≤ d'.toNat + tolerance.toNat - 65536)

end select

section loop

/-- The round for an outbound that supports the network and is measured. -/
def keep (tolerance : UInt16) (best : UInt16 × Option O) (c : O × UInt16) : UInt16 × Option O :=
  if best.1 = 0 ∨ best.1 > c.2 + tolerance then (c.2,some c.1) else best

def candidate (supports : O → Network → Bool) (history : O → Option UInt16) (network : Network)
    (o : O) : Option (O × UInt16) :=
  if supports o network then (history o).map (o,·) else none

variable {supports : O → Network → Bool} {history : O → Option UInt16} {network : Network}
  {tolerance d d' : UInt16} {o o' : O} {l : List O}

lemma candidate_eq_some : candidate supports history network o = some (o',d) ↔
      o = o' ∧ supports o network = true ∧ history o = some d := by
  simp only [candidate]
  split_ifs with hs
  · simp [hs,and_comm]
  · simp [hs]

lemma mem_candidates : (o,d) ∈ l.filterMap (candidate supports history network) ↔
      Measured supports history network l o d := by
  simp only [List.mem_filterMap,candidate_eq_some,Measured]
  constructor
  · intro ⟨x,hx,he,h⟩
    exact he ▸ ⟨hx,h⟩
  · intro ⟨ho,h⟩
    exact ⟨o,ho,rfl,h⟩

lemma consider_eq_keep (best : UInt16 × Option O) :
    consider supports history network tolerance best o =
      ((candidate supports history network o).map (keep tolerance best)).getD best := by
  simp only [consider,candidate]
  split_ifs with hs
  · cases history o <;> rfl
  · rfl

lemma foldl_consider (best : UInt16 × Option O) :
    l.foldl (consider supports history network tolerance) best =
      (l.filterMap (candidate supports history network)).foldl (keep tolerance) best := by
  induction l generalizing best with
  | nil => rfl
  | cons x l ih =>
    rw [List.foldl_cons,ih,consider_eq_keep,List.filterMap_cons]
    cases candidate supports history network x <;> rfl

lemma gt_add_iff (h : d'.toNat + tolerance.toNat < 65536 ∨
    d.toNat ≤ d'.toNat + tolerance.toNat - 65536) :
    d > d' + tolerance ↔ d'.toNat + tolerance.toNat < d.toNat := by
  have hd := d.toNat_lt
  have hd' := d'.toNat_lt
  have ht := tolerance.toNat_lt
  rw [gt_iff_lt,UInt16.lt_iff_toNat_lt,UInt16.toNat_add]
  omega

lemma keep_eq (h : Moderate supports history network tolerance) (ho : history o = some d)
    (hc : candidate supports history network o' = some (o',d')) :
    keep tolerance (d,some o) (o',d') =
      if d'.toNat + tolerance.toNat < d.toNat then (d',some o') else (d,some o) := by
  obtain ⟨-,hs,hh⟩ := candidate_eq_some.mp hc
  by_cases he : o = o'
  · subst he
    rw [ho] at hh
    cases hh
    simp [keep]
  · obtain ⟨h0,hw⟩ := h o o' d d' he hs ho hh
    simp only [keep,h0,false_or,gt_add_iff hw]

lemma foldl_keep (h : Moderate supports history network tolerance) (cs : List (O × UInt16))
    (hcs : ∀ c ∈ cs,candidate supports history network c.1 = some c) (ho : history o = some d) :
    ∃ o₁ d₁,cs.foldl (keep tolerance) (d,some o) = (d₁,some o₁) ∧ history o₁ = some d₁ ∧
      d₁.toNat ≤ d.toNat ∧ (∀ c ∈ cs,d₁.toNat ≤ c.2.toNat + tolerance.toNat) ∧
      (o₁ = o ∨ ∃ c ∈ cs,c.2.toNat + tolerance.toNat < d.toNat) := by
  induction cs generalizing o d with
  | nil => exact ⟨o,d,rfl,ho,Nat.le_refl _,by simp,.inl rfl⟩
  | cons c cs ih =>
    obtain ⟨o',d'⟩ := c
    obtain ⟨hc,hcs⟩ := List.forall_mem_cons.mp hcs
    rw [List.foldl_cons,keep_eq h ho hc]
    split_ifs with hlt
    · obtain ⟨o₁,d₁,he,h1,hle,hall,-⟩ := ih hcs (candidate_eq_some.mp hc).2.2
      have hd : d₁.toNat ≤ d'.toNat + tolerance.toNat := by omega
      refine ⟨o₁,d₁,he,h1,by omega,List.forall_mem_cons.mpr ⟨hd,hall⟩,.inr ?_⟩
      exact ⟨(o',d'),List.mem_cons_self,hlt⟩
    · obtain ⟨o₁,d₁,he,h1,hle,hall,hst⟩ := ih hcs ho
      have hd : d₁.toNat ≤ d'.toNat + tolerance.toNat := by omega
      refine ⟨o₁,d₁,he,h1,hle,List.forall_mem_cons.mpr ⟨hd,hall⟩,hst.imp_right ?_⟩
      intro ⟨c,hm,hlt'⟩
      exact ⟨c,List.mem_cons_of_mem _ hm,hlt'⟩

lemma candidates_spec (supports : O → Network → Bool) (history : O → Option UInt16)
    (network : Network) (l : List O) :
    ∀ c ∈ l.filterMap (candidate supports history network),
      candidate supports history network c.1 = some c := by
  intro (o,d) hc
  exact candidate_eq_some.mpr ⟨rfl,(mem_candidates.mp hc).2⟩

end loop

section results

variable {supports : O → Network → Bool} {history : O → Option UInt16} {network : Network}
  {g : Group O}

lemma Group.initial_cases (history : O → Option UInt16) (network : Network) (g : Group O) :
    (g.initial history network = (0,none) ∧
      ∀ o d,g.selected network = some o → history o ≠ some d) ∨
    ∃ o d,g.selected network = some o ∧ history o = some d ∧
      g.initial history network = (d,some o) := by
  rw [Group.initial]
  cases hs : g.selected network with
  | none => exact .inl ⟨rfl,by simp⟩
  | some o =>
    cases hh : history o with
    | none =>
      refine .inl ⟨by simp [hh],?_⟩
      intro o' d he hd
      rw [← Option.some.inj he,hh] at hd
      simp at hd
    | some d => exact .inr ⟨o,d,rfl,hh,by simp [hh]⟩

lemma Group.select_of_foldl {o : O} {d : UInt16}
    (h : (g.outbounds.filterMap (candidate supports history network)).foldl (keep g.tolerance)
      (g.initial history network) = (d,some o)) :
    g.select supports history network = (some o,true) := by
  rw [Group.select,foldl_consider,h]

lemma Group.nearOptimal (h : Moderate supports history network g.tolerance) :
    g.NearOptimal supports history network := by
  intro ⟨o,d,hm⟩
  have hc := mem_candidates.mpr hm
  have hcs := candidates_spec supports history network g.outbounds
  obtain ⟨hi,-⟩ | ⟨o₀,d₀,-,h0,hi⟩ := g.initial_cases history network
  · cases hl : g.outbounds.filterMap (candidate supports history network) with
    | nil => simp [hl] at hc
    | cons c cs =>
      rw [hl] at hcs
      obtain ⟨hh,hcs⟩ := List.forall_mem_cons.mp hcs
      obtain ⟨o₁,d₁,he,h1,hle,hall,-⟩ := foldl_keep h cs hcs (candidate_eq_some.mp hh).2.2
      refine ⟨o₁,d₁,select_of_foldl (d := d₁) ?_,h1,?_⟩
      · rw [hl,List.foldl_cons,hi]
        exact he
      · intro o' d' hm'
        have hc' := mem_candidates.mpr hm'
        rw [hl] at hc'
        obtain rfl | hc' := List.mem_cons.mp hc'
        · exact Nat.le_trans hle (Nat.le_add_right _ _)
        · exact hall _ hc'
  · obtain ⟨o₁,d₁,he,h1,-,hall,-⟩ := foldl_keep h _ hcs h0
    exact ⟨o₁,d₁,select_of_foldl (hi ▸ he),h1,fun o' d' hm' => hall _ (mem_candidates.mpr hm')⟩

lemma Group.stable (h : Moderate supports history network g.tolerance) :
    g.Stable supports history network := by
  intro o d hs hh
  obtain ⟨-,hno⟩ | ⟨o₀,d₀,hs',h0,hi⟩ := g.initial_cases history network
  · exact absurd hh (hno o d hs)
  · rw [hs] at hs'
    cases hs'
    rw [hh] at h0
    cases h0
    obtain ⟨o₁,d₁,he,-,-,-,hst⟩ := foldl_keep h _ (candidates_spec supports history network g.outbounds)
      hh
    rw [select_of_foldl (hi ▸ he)]
    refine hst.imp (congrArg some) ?_
    intro ⟨c,hc,hlt⟩
    exact ⟨c.1,c.2,mem_candidates.mp hc,hlt⟩

def pair (tolerance : UInt16) (o o' : O) : Group O := ⟨[o'],tolerance,some o,some o⟩

lemma pair_select {tolerance d d' : UInt16} {o o' : O} (hs : supports o' network = true)
    (hh : history o = some d) (hh' : history o' = some d') (h : d = 0 ∨ d > d' + tolerance) :
    ((pair tolerance o o').select supports history network).1 = some o' := by
  have hi : (pair tolerance o o').initial history network = (d,some o) := by
    cases network <;> simp [Group.initial,Group.selected,pair,hh]
  rw [Group.select,hi]
  simp only [pair,List.foldl_cons,List.foldl_nil,consider,hs,hh',h,if_true]

lemma pair_not_stable {tolerance d d' : UInt16} {o o' : O} (hne : o ≠ o')
    (hs : supports o' network = true) (hh : history o = some d) (hh' : history o' = some d')
    (h : d = 0 ∨ d > d' + tolerance) (hle : d.toNat ≤ d'.toNat + tolerance.toNat) :
    ¬ (pair tolerance o o').Stable supports history network := by
  intro hst
  have hsel : (pair tolerance o o').selected network = some o := by cases network <;> rfl
  obtain he | ⟨x,dx,⟨hx,-,hdx⟩,hlt⟩ := hst o d hsel hh
  · rw [pair_select hs hh hh' h] at he
    exact hne (Option.some.inj he).symm
  · rw [List.mem_singleton.mp hx,hh'] at hdx
    cases hdx
    exact absurd hlt (Nat.not_lt.mpr hle)

/-- For every table of delays and every tolerance: the selection is near-optimal and stable, for
all lists and all selected outbounds, exactly if the delays are moderate. -/
theorem select_nearOptimal_stable_iff (supports : O → Network → Bool)
    (history : O → Option UInt16) (network : Network) (tolerance : UInt16) :
    (∀ g : Group O, g.tolerance = tolerance →
      g.NearOptimal supports history network ∧ g.Stable supports history network) ↔
    Moderate supports history network tolerance := by
  constructor
  · intro hall o o' d d' hne hs hh hh'
    have hst := (hall (pair tolerance o o') rfl).2
    have hd := d.toNat_lt
    constructor
    · intro h0
      exact pair_not_stable hne hs hh hh' (.inl h0) (by simp [h0]) hst
    · by_contra hw
      have hd' := d'.toNat_lt
      have ht := tolerance.toNat_lt
      have hgt : d > d' + tolerance := by
        rw [gt_iff_lt,UInt16.lt_iff_toNat_lt,UInt16.toNat_add]
        omega
      exact pair_not_stable hne hs hh hh' (.inr hgt) (by omega) hst
  · rintro h g rfl
    exact ⟨Group.nearOptimal h,Group.stable h⟩

end results

section overflow

def slowDelay (o : Bool) : Option UInt16 := some (if o then 65000 else 500)

def slowGroup : Group Bool := ⟨[false,true],1000,some false,none⟩

/-- 65000 with the tolerance is 464 in 16 bits, and the slow outbound replaces the fast one. -/
theorem slowGroup_select :
    ¬ slowGroup.NearOptimal (fun _ _ => true) slowDelay .tcp ∧
      ¬ slowGroup.Stable (fun _ _ => true) slowDelay .tcp := by
  have hs : slowGroup.select (fun _ _ => true) slowDelay .tcp = (some true,true) := by decide
  constructor
  · intro h
    obtain ⟨o,d,he,hd,hall⟩ := h ⟨false,500,by simp [slowGroup],rfl,rfl⟩
    have hb := hall false 500 ⟨by simp [slowGroup],rfl,rfl⟩
    rw [hs] at he
    cases he
    cases hd
    exact absurd hb (by decide)
  · intro h
    obtain he | ⟨o,d,⟨-,-,hd⟩,hlt⟩ := h false 500 rfl rfl
    · rw [hs] at he
      cases he
    · cases hd
      revert hlt
      cases o <;> decide

end overflow
end SingBoxAuth.URLTest
