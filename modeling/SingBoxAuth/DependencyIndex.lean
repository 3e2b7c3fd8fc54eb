import SingBoxAuth.ElementManagers
import SingBoxAuth.Transitions

/-! The dependency index of the managers against the dependencies of the elements that are
registered, over sequences of Create and Remove. -/
namespace SingBoxAuth.Managers
open Transitions

section lists

variable {tag t d : String} {dependencies : List String} {index : String → List String}

lemma mem_appendDependents : t ∈ Registry.appendDependents tag dependencies index d ↔
      t ∈ index d ∨ t = tag ∧ d ∈ dependencies := by
  induction dependencies generalizing index with
  | nil => simp [Registry.appendDependents]
  | cons x l ih =>
    have hstep : Registry.appendDependents tag (x :: l) index =
      Registry.appendDependents tag l (Function.update index x (index x ++ [tag])) := rfl
    rw [hstep,ih,Function.update_apply]
    by_cases hd : d = x
    · subst hd
      simp only [if_true,List.mem_append,List.mem_cons,List.not_mem_nil,or_false,true_or,and_true]
      tauto
    · simp [hd]

/-- With a tag that is in the lists of all its dependencies, each of which it has once, nothing else
is released. -/
lemma mem_releaseDependents (hn : dependencies.Nodup) (hin : ∀ x ∈ dependencies,tag ∈ index x) :
    t ∈ Registry.releaseDependents tag dependencies index d ↔
      t ∈ index d ∧ ¬ (t = tag ∧ d ∈ dependencies) := by
  induction dependencies generalizing index with
  | nil => simp [Registry.releaseDependents]
  | cons x l ih =>
    obtain ⟨hx,hl⟩ := List.nodup_cons.mp hn
    obtain ⟨hinx,hinl⟩ := List.forall_mem_cons.mp hin
    have hstep : Registry.releaseDependents tag (x :: l) index =
      Registry.releaseDependents tag l (Function.update index x
        (if (index x).length = 1 then [] else (index x).filter (· ≠ tag))) := rfl
    have hrest (y : String) (hy : y ∈ l) : tag ∈ Function.update index x
        (if (index x).length = 1 then [] else (index x).filter (· ≠ tag)) y := by
      have hne : y ≠ x := by
        rintro rfl
        exact hx hy
      rw [Function.update_of_ne hne]
      exact hinl y hy
    -- The list of one tag is the tag's own, so that deleting it is filtering it.
    have hone : (if (index x).length = 1 then [] else (index x).filter (· ≠ tag)) =
        (index x).filter (· ≠ tag) := by
      split_ifs with h1
      · obtain ⟨y,hy⟩ := List.length_eq_one_iff.mp h1
        rw [hy,List.mem_singleton] at hinx
        simp [hy,hinx]
      · rfl
    rw [hstep,ih hl hrest,hone,Function.update_apply]
    by_cases hd : d = x
    · subst hd
      simp [hx]
    · simp [hd]

end lists

/-- The index lists the tags of the registered elements under their dependencies, and each element
has a dependency once. -/
structure Registry.Indexed (r : Registry) : Prop where
  consistent : r.Consistent
  listed : ∀ d t, t ∈ r.dependByTag d ↔ ∃ e ∈ r.elements, e.tag = t ∧ d ∈ e.dependencies
  once : ∀ e ∈ r.elements, e.dependencies.Nodup

/-- A new element has no dependency twice and keeps those of the one that it replaces; an element with
dependencies is removed when no registered one lists its tag and it is not stuck. -/
def Registry.orderly (stuck : Element → Bool) (r : Registry) : Call → Prop
  | .create tag made => ∀ x, made = .ok x → x.dependencies.Nodup ∧
      ∀ old, r.byTag tag = some old → old.dependencies ⊆ x.dependencies
  | .remove tag => ∀ e, r.byTag tag = some e → e.dependencies = [] ∨
      (∀ e' ∈ r.elements, tag ∉ e'.dependencies) ∧ stuck e = false

namespace Registry.Indexed

variable {stuck : Element → Bool} {r : Registry} {e : Element} {tag : String}

lemma dependByTag_ne_nil_iff (h : r.Indexed) (tag : String) :
    r.dependByTag tag ≠ [] ↔ ∃ e ∈ r.elements,tag ∈ e.dependencies := by
  constructor
  · intro hne
    obtain ⟨t,ht⟩ := List.exists_mem_of_ne_nil _ hne
    obtain ⟨e,he,_,hd⟩ := (h.listed tag t).mp ht
    exact ⟨e,he,hd⟩
  · intro ⟨e,he,hd⟩
    exact List.ne_nil_of_mem ((h.listed tag e.tag).mpr ⟨e,he,rfl,hd⟩)

lemma enter (h : r.Indexed) {l : List Element} (x : Made)
    (hr : (Registry.enter { r.counted with elements := l } (r.newElement tag x)).Consistent)
    (hsub : ∀ e ∈ l,e ∈ r.elements) (hn : x.dependencies.Nodup)
    (hold : ∀ e ∈ r.elements,e ∉ l → e.tag = tag ∧ e.dependencies ⊆ x.dependencies) :
    (Registry.enter { r.counted with elements := l } (r.newElement tag x)).Indexed := by
  refine ⟨hr,fun d t => ?_,fun e he => ?_⟩
  · simp only [Registry.enter,Registry.counted,mem_appendDependents,h.listed,List.mem_append,
      List.mem_singleton]
    constructor
    · rintro (⟨e,he,ht,hd⟩ | ⟨rfl,hd⟩)
      · by_cases hl : e ∈ l
        · exact ⟨e,.inl hl,ht,hd⟩
        · obtain ⟨htag,hsubset⟩ := hold e he hl
          exact ⟨_,.inr rfl,htag.symm.trans ht,hsubset hd⟩
      · exact ⟨_,.inr rfl,rfl,hd⟩
    · rintro ⟨e,he | rfl,ht,hd⟩
      · exact .inl ⟨e,hsub e he,ht,hd⟩
      · exact .inr ⟨ht.symm,hd⟩
  · obtain he | he := List.mem_append.mp he
    · exact h.once e (hsub e he)
    · rw [List.mem_singleton.mp he]
      exact hn

lemma eq_of_tag (h : r.Indexed) {x : Element} (hf : r.byTag tag = some e) (hx : x ∈ r.elements)
    (ht : x.tag = tag) : x = e := by
  rw [h.consistent.mapped,ht,hf] at hx
  exact (Option.some.inj hx).symm

lemma change {r' : Registry} {call : Call} {edits : List Edit} (h : r.Indexed)
    (hc : r.Change stuck call r' edits) (ho : r.orderly stuck call) : r'.Indexed := by
  have hr := h.consistent.change hc
  cases hc with
  | same => exact h
  | counted => exact ⟨hr,h.listed,h.once⟩
  | @entered tag x hnone =>
    exact h.enter x hr (fun e he => he) (ho x rfl).1 (fun e he hn => absurd he hn)
  | @replaced tag x old hold hin =>
    refine h.enter x hr (fun e he => List.mem_of_mem_erase he) (ho x rfl).1 ?_
    intro e he hn
    have heq : e = old := by
      by_contra hne
      exact hn ((h.consistent.nodup.mem_erase_iff).mpr ⟨hne,he⟩)
    rw [heq]
    exact ⟨h.consistent.tagged tag old hold,(ho x rfl).2 old hold⟩
  | lost hfound hnot => exact absurd (h.consistent.mem hfound) hnot
  | @withdrawn tag e hfound hin hheld =>
    have hnil : e.dependencies = [] := by
      refine (ho e hfound).resolve_right ?_
      intro ⟨hno,hs⟩
      obtain hd | hd := hheld
      · obtain ⟨e',he',hd'⟩ := (h.dependByTag_ne_nil_iff tag).mp hd
        exact hno e' he' hd'
      · rw [hs] at hd
        cases hd
    refine ⟨hr,fun d t => ?_,fun x hx => h.once x (List.mem_of_mem_erase hx)⟩
    refine (h.listed d t).trans ?_
    constructor
    · intro ⟨x,hx,ht,hd⟩
      refine ⟨x,(h.consistent.nodup.mem_erase_iff).mpr ⟨?_,hx⟩,ht,hd⟩
      rintro rfl
      simp [hnil] at hd
    · intro ⟨x,hx,ht,hd⟩
      exact ⟨x,List.mem_of_mem_erase hx,ht,hd⟩
  | @removed tag e hfound hin hfree =>
    have htag := h.consistent.tagged tag e hfound
    have hl (d : String) (hd : d ∈ e.dependencies) : tag ∈ r.dependByTag d :=
      (h.listed d tag).mpr ⟨e,hin,htag,hd⟩
    refine ⟨hr,fun d t => ?_,fun x hx => h.once x (List.mem_of_mem_erase hx)⟩
    refine (mem_releaseDependents (h.once e hin) hl).trans ?_
    rw [h.listed]
    constructor
    · intro ⟨⟨x,hx,ht,hd⟩,hno⟩
      refine ⟨x,(h.consistent.nodup.mem_erase_iff).mpr ⟨?_,hx⟩,ht,hd⟩
      rintro rfl
      exact hno ⟨ht.symm.trans htag,hd⟩
    · intro ⟨x,hx,ht,hd⟩
      obtain ⟨hne,hx⟩ := (h.consistent.nodup.mem_erase_iff).mp hx
      refine ⟨⟨x,hx,ht,hd⟩,?_⟩
      intro ⟨he,_⟩
      exact hne (h.eq_of_tag hfound hx (ht.trans he))

end Registry.Indexed

def RefusedForDependents {M : Type} (answer : Answer M) : Prop :=
  ∃ tag dependBy, answer.result = .refused (.dependedBy tag dependBy)

lemma removeOutbound_refused_iff {m : Manager} {tag : String} {e : Element} (started : Bool)
    (lifecycle : Lifecycle) (hf : m.byTag tag = some e) (hin : e ∈ m.elements) :
    RefusedForDependents (outboundCall m ⟨started,lifecycle,.remove tag⟩) ↔
      m.dependByTag tag ≠ [] := by
  simp only [RefusedForDependents,outboundCall,removeOutbound,hf,if_pos hin]
  have hd : (m.withdraw e tag).dependByTag tag = m.dependByTag tag := rfl
  simp only [hd]
  split_ifs with hne
  · simp [hne]
  · split
    · simp [hne]
    · simp [hne]

lemma removeTransport_refused_iff {m : TransportManager} {tag : String} {e : Element}
    (started : Bool) (lifecycle : Lifecycle) (hf : m.byTag tag = some e) (hin : e ∈ m.elements)
    (hb : blocked m.toManager e = false) :
    RefusedForDependents (transportCall m ⟨started,lifecycle,.remove tag⟩) ↔
      m.dependByTag tag ≠ [] := by
  have hb' : blocked { m.toManager with started } e = false := hb
  have hd : (m.withdraw e tag).dependByTag tag = m.dependByTag tag := rfl
  simp only [RefusedForDependents,transportCall,removeTransport,hf,if_pos hin,hb',hd,
    Bool.false_eq_true,if_false]
  split_ifs with hne
  · simp [hne]
  · simp [hne]

lemma indexed_newManager (defaultTag : String) : (newManager defaultTag).Indexed :=
  ⟨consistent_newManager defaultTag,fun _ _ => by simp [newManager],nofun⟩

section runs

def stopped (call : Call) : Event := ⟨false,⟨fun _ _ => none,fun _ => none⟩,call⟩

def creation (tag : String) (dependencies : List String) : Event :=
  stopped (.create tag (.ok ⟨"direct",dependencies⟩))

def outboundRun (events : List Event) : Manager :=
  events.foldl (fun m event => (outboundCall m event).manager) (newManager "")

/-- No registered element lists the tag, and its Remove is refused for a dependent. -/
def staleFor (m : Manager) (tag dependent : String) : Bool :=
  (m.elements.all fun e => tag ∉ e.dependencies) &&
    (outboundCall m (stopped (.remove tag))).result = .refused (.dependedBy tag [dependent])

end runs
end SingBoxAuth.Managers
