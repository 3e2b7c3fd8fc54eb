import Mathlib.Data.List.DropRight
import SingBoxAuth.ResolvedLinks

/-! Split DNS: which link the resolved transport sends a query to. -/
namespace SingBoxAuth.Resolved
open StubResolver

variable {I A : Type}

def trimDots (name : Name) : Name := name.rdropWhile (· == '.')

/-- The name is the domain or below it, trailing dots aside; the root is above every name. -/
def LinkDomain.Matches (accept : Bool) (name : Name) (d : LinkDomain) : Prop :=
  if trimDots d.domain = [] then d.routingOnly = false ∨ accept = true
  else trimDots name = trimDots d.domain ∨ '.' :: trimDots d.domain <:+ trimDots name

section Selection

variable (s : Service I A) (accept : Bool) (name : Name)

def Matching (i : ℤ) (d : LinkDomain) : Prop :=
  ∃ link, s.links i = some link ∧ d ∈ link.domain ∧ d.Matches accept name

/-- The link has a matching domain and no matching domain of any link is longer. -/
def Longest (i : ℤ) : Prop :=
  ∃ d, Matching s accept name i d ∧ ∀ j d', Matching s accept name j d' →
    (trimDots d'.domain).length ≤ (trimDots d.domain).length

structure Right (selected : Option ℤ) : Prop where
  matched : (∃ j d, Matching s accept name j d) → ∃ i ∈ selected, Longest s accept name i
  unmatched : (¬ ∃ j d, Matching s accept name j d) →
    (∀ i ∈ selected, accept = true ∧ i ∈ s.defaultRouteSequence) ∧
    (selected = none → accept = false ∨ s.defaultRouteSequence = [])

def hasServers (i : ℤ) : Bool :=
  (s.links i).any fun link => decide (link.address ≠ [] ∨ link.addressEx ≠ [])

/-- The last default route with servers, or the first default route if none has any. -/
def preferred : Option ℤ :=
  (s.defaultRouteSequence.reverse.find? (hasServers s)).or s.defaultRouteSequence.head?

/-- The link has a domain that the name ends with as a text. -/
def Selecting (i : ℤ) : Prop :=
  (s.links i).any (TransportLink.selected accept name) = true

/-- The links whose domains end the name as texts are those with the longest matching domain. If
there is none, or no domain matches, the default routes happen to be the right links. -/
structure Agrees : Prop where
  longest : ∀ i, Selecting s accept name i → (∃ j d, Matching s accept name j d) →
    Longest s accept name i
  unmatched : ∀ i, Selecting s accept name i → (¬ ∃ j d, Matching s accept name j d) →
    accept = true ∧ i ∈ s.defaultRouteSequence
  missed : (∃ j d, Matching s accept name j d) → (∀ i, ¬ Selecting s accept name i) →
    accept = true ∧ ∃ i ∈ preferred s, Longest s accept name i

end Selection

variable {s : Service I A} {accept : Bool} {name : Name}

lemma Selecting.isSome {i : ℤ} (h : Selecting s accept name i) : (s.links i).isSome = true := by
  cases hl : s.links i with
  | none => simp [Selecting,hl] at h
  | some link => rfl

lemma byDefaultRoute_eq {l : List ℤ} (selected : Option ℤ)
    (hl : ∀ i ∈ l,(s.links i).isSome = true) :
    byDefaultRoute s l selected = some ((l.find? (hasServers s)).or (l.getLast?.or selected)) := by
  induction l generalizing selected with
  | nil => rfl
  | cons i rest ih =>
    obtain ⟨link,hi⟩ := Option.isSome_iff_exists.mp (hl i List.mem_cons_self)
    rw [byDefaultRoute,hi,List.find?_cons]
    by_cases ha : link.address ≠ [] ∨ link.addressEx ≠ []
    · have hs : hasServers s i = true := by simpa [hasServers,hi] using ha
      simp only [if_pos ha,hs,Option.some_or]
    · have hs : hasServers s i = false := by simpa [hasServers,hi] using ha
      simp only [if_neg ha,hs,List.getLast?_cons]
      rw [ih (some i) fun j hj => hl j (List.mem_cons_of_mem _ hj)]
      cases rest.getLast? <;> rfl

lemma preferred_mem {i : ℤ} (h : i ∈ preferred s) : i ∈ s.defaultRouteSequence := by
  rw [preferred] at h
  cases hf : s.defaultRouteSequence.reverse.find? (hasServers s) with
  | some j =>
    rw [hf] at h
    cases h
    exact List.mem_reverse.mp (List.mem_of_find?_eq_some hf)
  | none =>
    rw [hf] at h
    exact List.mem_of_mem_head? h

lemma preferred_eq_none (h : preferred s = none) : s.defaultRouteSequence = [] :=
  List.head?_eq_none_iff.mp (Option.or_eq_none_iff.mp h).2

/-- The selection in full: the last selecting link of the order, or the preferred default route. -/
lemma selectLink_eq (hd : ∀ i ∈ s.defaultRouteSequence,(s.links i).isSome = true) (order : List ℤ) :
    selectLink s accept name order = some (((order.filter fun i =>
      (s.links i).any (TransportLink.selected accept name)).getLast?).or
        (if accept then preferred s else none)) := by
  rw [selectLink,byDomain_eq]
  cases (order.filter fun i => (s.links i).any (TransportLink.selected accept name)).getLast? with
  | some i => rfl
  | none =>
    cases accept with
    | false => rfl
    | true =>
      have hr := byDefaultRoute_eq none fun i hi => hd i (List.mem_reverse.mp hi)
      rw [List.getLast?_reverse,Option.or_none] at hr
      exact hr

/-- With the links in a map and default routes that have links, every order of the map's iteration
leads to a right link exactly when the texts and the labels agree. -/
theorem split_dns_iff {keys : List ℤ} (hk : ∀ i, i ∈ keys ↔ (s.links i).isSome = true)
    (hd : ∀ i ∈ s.defaultRouteSequence, (s.links i).isSome = true) :
    (∀ order, order.Perm keys → ∃ selected, selectLink s accept name order = some selected ∧
      Right s accept name selected) ↔ Agrees s accept name := by
  constructor
  · intro h
    -- a selecting link may come last
    have hl : ∀ i, Selecting s accept name i → Right s accept name (some i) := by
      intro i hi
      have hm : i ∈ keys := (hk i).mpr hi.isSome
      have hf : [i].filter (fun i => (s.links i).any (TransportLink.selected accept name)) = [i] := by
        simpa [Selecting] using hi
      obtain ⟨r,hr,hg⟩ := h (keys.erase i ++ [i])
        ((List.perm_append_singleton i _).trans (List.perm_cons_erase hm).symm)
      rw [selectLink_eq hd,List.filter_append,hf,List.getLast?_concat,Option.some_or] at hr
      cases hr
      exact hg
    refine ⟨fun i hi hm => ?_,fun i hi hm => ((hl i hi).unmatched hm).1 i rfl,fun hm hn => ?_⟩
    · obtain ⟨j,hj,hg⟩ := (hl i hi).matched hm
      cases hj
      exact hg
    · obtain ⟨r,hr,hg⟩ := h keys (List.Perm.refl _)
      have he : (keys.filter fun i => (s.links i).any (TransportLink.selected accept name)) = [] :=
        List.filter_eq_nil_iff.mpr fun i _ => hn i
      rw [selectLink_eq hd,he] at hr
      cases hr
      obtain ⟨i,hi,hlo⟩ := hg.matched hm
      cases accept with
      | false => cases hi
      | true => exact ⟨rfl,i,hi,hlo⟩
  · intro h order ho
    refine ⟨_,selectLink_eq hd order,?_⟩
    cases hl : (order.filter fun i =>
        (s.links i).any (TransportLink.selected accept name)).getLast? with
    | some i =>
      have hi : Selecting s accept name i := (List.mem_filter.mp (List.mem_of_getLast? hl)).2
      refine ⟨fun hm => ⟨i,rfl,h.longest i hi hm⟩,fun hm => ⟨fun j hj => ?_,fun hn => ?_⟩⟩
      · cases hj
        exact h.unmatched i hi hm
      · cases hn
    | none =>
      have hn : ∀ i, ¬ Selecting s accept name i := by
        intro i hi
        have he := List.getLast?_eq_none_iff.mp hl
        have hm : i ∈ order := ho.mem_iff.mpr ((hk i).mpr hi.isSome)
        exact List.filter_eq_nil_iff.mp he i hm hi
      rw [Option.none_or]
      refine ⟨fun hm => ?_,fun _ => ⟨fun i hi => ?_,fun he => ?_⟩⟩
      · obtain ⟨rfl,hp⟩ := h.missed hm hn
        exact hp
      · cases accept with
        | false => cases hi
        | true => exact ⟨rfl,preferred_mem hi⟩
      · cases accept with
        | false => exact .inl rfl
        | true => exact .inr (preferred_eq_none he)

/-- A link for example., one below it for corp.example., and one whose domain has no final dot. -/
def nested : Service ℕ ℕ :=
  { newService with links := fun i =>
      if i = 1 then some { serial := 0, domain := [⟨"example.".toList,false⟩] }
      else if i = 2 then some { serial := 1, domain := [⟨"corp.example.".toList,false⟩] }
      else if i = 3 then some { serial := 2, domain := [⟨"lab".toList,true⟩] }
      else none }

theorem split_dns_nested :
    (∀ order : List ℤ, order.Perm [1,2,3] → ∃ selected,
      selectLink nested false "lab".toList order = some selected ∧
      Right nested false "lab".toList selected) ↔ Agrees nested false "lab".toList := by
  refine split_dns_iff (fun i => ?_) fun i hi => absurd hi List.not_mem_nil
  simp only [nested]
  split_ifs with h1 h2 h3 <;> simp_all

/-- The shorter domain may win, a domain may end a name inside of a label, and one without a final
dot ends no qualified name. -/
theorem split_dns_misrouted :
    (selectLink nested false "www.corp.example.".toList [2,1,3] = some (some 1) ∧
      ¬ Longest nested false "www.corp.example.".toList 1) ∧
    (selectLink nested false "badexample.".toList [1,2,3] = some (some 1) ∧
      ¬ ∃ d, Matching nested false "badexample.".toList 1 d) ∧
    selectLink nested true "host.lab.".toList [1,2,3] = some none ∧
      Longest nested true "host.lab.".toList 3 := by
  refine ⟨⟨rfl,?_⟩,⟨rfl,?_⟩,rfl,?_⟩
  · rintro ⟨d,⟨link,hl,hd,-⟩,hm⟩
    cases hl
    cases List.mem_singleton.mp hd
    have hc := hm 2 ⟨"corp.example.".toList,false⟩ ⟨_,rfl,List.mem_singleton_self _,by
      rw [LinkDomain.Matches]; decide⟩
    revert hc
    decide
  · rintro ⟨d,link,hl,hd,hm⟩
    cases hl
    cases List.mem_singleton.mp hd
    rw [LinkDomain.Matches] at hm
    revert hm
    decide
  · refine ⟨⟨"lab".toList,true⟩,⟨_,rfl,List.mem_singleton_self _,by
      rw [LinkDomain.Matches]; decide⟩,?_⟩
    rintro j d ⟨link,hl,hd,hm⟩
    simp only [nested] at hl
    split_ifs at hl with h1 h2 h3
    · cases hl
      cases List.mem_singleton.mp hd
      rw [LinkDomain.Matches] at hm
      revert hm
      decide
    · cases hl
      cases List.mem_singleton.mp hd
      rw [LinkDomain.Matches] at hm
      revert hm
      decide
    · cases hl
      cases List.mem_singleton.mp hd
      exact le_rfl

end SingBoxAuth.Resolved
