import SingBoxAuth.ElementManagers
import SingBoxAuth.SliceViews
import SingBoxAuth.Transitions

/-! The slices that Outbounds and Transports return, over the array that the manager goes on to
edit. -/
namespace SingBoxAuth.Managers
open SliceViews Transitions

/-- A manager with its slice, and the slices that it has returned with what they showed. -/
structure Listing (M : Type) where
  manager : M
  heap : Heap Element
  slice : Slice
  returned : List (Slice × List (Option Element))

inductive ListingEvent
  /-- A call, with the room that a new array has to spare. -/
  | call (event : Event) (spare : ℕ)
  | list

def Edit.apply (spare : ℕ) (hs : Heap Element × Slice) : Edit → Heap Element × Slice
  | .delete i => hs.1.delete hs.2 i
  | .append e => hs.1.append hs.2 spare e

def Listing.new {M : Type} (manager : M) : Listing M := ⟨manager,.empty,.nil,[]⟩

def Listing.perform {M : Type} (call : M → Event → Answer M) (s : Listing M) :
    ListingEvent → Listing M
  | .call event spare =>
    let answer := call s.manager event
    let hs := answer.edits.foldl (Edit.apply spare) (s.heap,s.slice)
    { s with manager := answer.manager, heap := hs.1, slice := hs.2 }
  | .list => { s with returned := (s.slice,s.heap.view s.slice) :: s.returned }

def Call.tag : Call → String
  | .create tag _ => tag
  | .remove tag => tag

/-- The element that a Remove or a replacing Create would take out is in no slice returned before that
is of the manager's array. -/
def Listing.orderly {M : Type} (registry : M → Registry) (s : Listing M) : ListingEvent → Prop
  | .call event _ => ∀ e, (registry s.manager).byTag event.call.tag = some e →
      ∀ p ∈ s.returned, p.1.array = s.slice.array → some e ∉ p.2
  | .list => True

/-- The slice shows the elements, and the slices that were returned show what they did. -/
structure Shows (h : Heap Element) (s : Slice) (returned : List (Slice × List (Option Element)))
    (l : List Element) : Prop where
  holds : h.Holds s
  view : h.view s = l.map some
  made : ∀ p ∈ returned, p.1.array < h.next
  within : ∀ p ∈ returned, p.1.array = s.array → p.1.length ≤ s.length
  kept : ∀ p ∈ returned, h.view p.1 = p.2

namespace Shows

variable {h : Heap Element} {s : Slice} {returned : List (Slice × List (Option Element))}
  {l : List Element} {e : Element}

lemma append (hs : Shows h s returned l) (spare : ℕ) (e : Element) :
    Shows (h.append s spare e).1 (h.append s spare e).2 returned (l ++ [e]) := by
  refine ⟨Heap.append_holds hs.holds spare e,?_,fun p hp => ?_,fun p hp => ?_,fun p hp => ?_⟩
  · rw [Heap.view_append,hs.view,List.map_append,List.map_singleton]
  · have hm := hs.made p hp
    rw [Heap.append]
    split_ifs
    · exact hm
    · exact Nat.lt_succ_of_lt hm
  · have hm := hs.made p hp
    have hw := hs.within p hp
    rw [Heap.append]
    split_ifs
    · intro he
      exact Nat.le_succ_of_le (hw he)
    · intro he
      exact absurd he hm.ne
  · rw [Heap.append_frame (hs.made p hp) (hs.within p hp)]
    exact hs.kept p hp

lemma length_eq (hs : Shows h s returned l) : s.length = l.length := by
  have hl := congrArg List.length hs.view
  simpa [Heap.view] using hl

/-- A slice of the same array that does not show an element ends before it. -/
lemma length_le_idxOf (hs : Shows h s returned l) {p : Slice × List (Option Element)}
    (hp : p ∈ returned) (ha : p.1.array = s.array) (hn : some e ∉ p.2) :
    p.1.length ≤ l.idxOf e := by
  by_contra hlt
  have hi : l.idxOf e < p.1.length := Nat.not_le.mp hlt
  have hs' : l.idxOf e < s.length := Nat.lt_of_lt_of_le hi (hs.within p hp ha)
  have hc : h.cells s.array (l.idxOf e) = some e := by
    have hv : (h.view s)[l.idxOf e]? = (l.map some)[l.idxOf e]? := by rw [hs.view]
    have hl : l.idxOf e < l.length := hs.length_eq ▸ hs'
    simpa [Heap.view,hs',List.getElem?_eq_getElem,hl] using hv
  refine hn ?_
  rw [← hs.kept p hp,Heap.view,List.mem_map]
  exact ⟨l.idxOf e,List.mem_range.mpr hi,by rw [ha,hc]⟩

lemma delete (hs : Shows h s returned l) (he : e ∈ l)
    (hn : ∀ p ∈ returned,p.1.array = s.array → some e ∉ p.2) :
    Shows (h.delete s (l.idxOf e)).1 (h.delete s (l.idxOf e)).2 returned (l.erase e) := by
  have hi : l.idxOf e < s.length := hs.length_eq ▸ List.idxOf_lt_length_of_mem he
  have hle (p : Slice × List (Option Element)) (hp : p ∈ returned) (ha : p.1.array = s.array) :
      p.1.length ≤ l.idxOf e := hs.length_le_idxOf hp ha (hn p hp ha)
  refine ⟨Heap.delete_holds hs.holds,?_,hs.made,fun p hp ha => ?_,fun p hp => ?_⟩
  · rw [Heap.view_delete hi,hs.view,List.eraseIdx_map,List.erase_eq_eraseIdx_of_idxOf rfl]
  · exact Nat.le_trans (hle p hp ha) (Nat.le_sub_one_of_lt hi)
  · rw [Heap.delete_frame (hle p hp)]
    exact hs.kept p hp

lemma change {stuck : Element → Bool} {r r' : Registry} {call : Call} {edits : List Edit}
    (hs : Shows h s returned r.elements) (hr : r.Consistent) (hc : r.Change stuck call r' edits)
    (ho : ∀ e,r.byTag call.tag = some e → ∀ p ∈ returned,p.1.array = s.array → some e ∉ p.2)
    (spare : ℕ) :
    Shows (edits.foldl (Edit.apply spare) (h,s)).1 (edits.foldl (Edit.apply spare) (h,s)).2
      returned r'.elements := by
  cases hc with
  | same => exact hs
  | counted => exact hs
  | entered hnone => exact hs.append spare _
  | replaced hold hin => exact (hs.delete hin (ho _ hold)).append spare _
  | lost hfound hnot => exact absurd (hr.mem hfound) hnot
  | withdrawn hfound hin _ => exact hs.delete hin (ho _ hfound)
  | removed hfound hin _ => exact hs.delete hin (ho _ hfound)

end Shows

section runs

variable {M : Type} {call : M → Event → Answer M} {stuck : M → Element → Bool}

lemma Listing.shows_of_reaches (registry : M → Registry)
    (hcall : ∀ m event,(registry m).Change (stuck m) event.call
      (registry (call m event).manager) (call m event).edits)
    {m : M} (hm : (registry m).Consistent) (hnil : (registry m).elements = []) {s : Listing M}
    (h : Reaches (fun s e s' => Listing.perform call s e = s') (Listing.orderly registry)
      (Listing.new m) s) :
    ((registry s.manager).Consistent ∧
      Shows s.heap s.slice s.returned (registry s.manager).elements) ∧
      ∀ p ∈ s.returned,p.2.Nodup := by
  refine h.invariant (fun s => ((registry s.manager).Consistent ∧
    Shows s.heap s.slice s.returned (registry s.manager).elements) ∧ ∀ p ∈ s.returned,p.2.Nodup)
    ⟨⟨hm,?_⟩,List.forall_mem_nil _⟩ ?_
  · exact ⟨⟨Nat.one_pos,Nat.le_refl 0⟩,by simp [Listing.new,Heap.view,Slice.nil,hnil],
      List.forall_mem_nil _,List.forall_mem_nil _,List.forall_mem_nil _⟩
  · rintro s e s' ⟨⟨hc,hs⟩,hn⟩ he ho
    subst he
    cases e with
    | call event spare =>
      have hch := hcall s.manager event
      exact ⟨⟨hc.change hch,hs.change hc hch ho spare⟩,hn⟩
    | list =>
      refine ⟨⟨hc,hs.holds,hs.view,?_,?_,?_⟩,?_⟩
      · exact List.forall_mem_cons.mpr ⟨hs.holds.1,hs.made⟩
      · exact List.forall_mem_cons.mpr ⟨fun _ => Nat.le_refl _,hs.within⟩
      · exact List.forall_mem_cons.mpr ⟨rfl,hs.kept⟩
      · refine List.forall_mem_cons.mpr ⟨?_,hn⟩
        rw [hs.view]
        exact hc.nodup.map (Option.some_injective _)

end runs

/-- In every run of a manager in which no call takes out an element of a slice that was returned before
over the same array, the slices that were returned show what they did, each element once. -/
theorem returned_unchanged (defaultTag : String) :
    (∀ s, Reaches (fun s e s' => Listing.perform outboundCall s e = s')
        (Listing.orderly Manager.toRegistry) (Listing.new (newManager defaultTag)) s →
      ∀ p ∈ s.returned, s.heap.view p.1 = p.2 ∧ p.2.Nodup) ∧
    (∀ s, Reaches (fun s e s' => Listing.perform transportCall s e = s')
        (Listing.orderly fun m : TransportManager => m.toRegistry)
        (Listing.new (newTransportManager defaultTag)) s →
      ∀ p ∈ s.returned, s.heap.view p.1 = p.2 ∧ p.2.Nodup) := by
  constructor
  · intro s h p hp
    obtain ⟨⟨-,hs⟩,hn⟩ := Listing.shows_of_reaches Manager.toRegistry outboundCall_change
      (consistent_newManager defaultTag) rfl h
    exact ⟨hs.kept p hp,hn p hp⟩
  · intro s h p hp
    obtain ⟨⟨-,hs⟩,hn⟩ := Listing.shows_of_reaches (fun m : TransportManager => m.toRegistry)
      transportCall_change (consistent_newManager defaultTag) rfl h
    exact ⟨hs.kept p hp,hn p hp⟩

section views

/-- A call on a manager that is not started; a new array has room for four more. -/
def editing (call : Call) : ListingEvent :=
  .call ⟨false,⟨fun _ _ => none,fun _ => none⟩,call⟩ 4

def adding (tag : String) : ListingEvent := editing (.create tag (.ok ⟨"direct",[]⟩))

def listingRun (events : List ListingEvent) : Listing Manager :=
  events.foldl (Listing.perform outboundCall) (Listing.new (newManager ""))

/-- The tags that the first slice returned showed then and shows now. -/
def shownTags (s : Listing Manager) : Option (List String × List String) :=
  s.returned.getLast?.map fun p =>
    ((p.2.filterMap id).map (·.tag),((s.heap.view p.1).filterMap id).map (·.tag))

theorem returned_unchanged_append :
    ∀ p ∈ (listingRun [adding "a",.list,adding "b"]).returned,
      (listingRun [adding "a",.list,adding "b"]).heap.view p.1 = p.2 ∧ p.2.Nodup := by
  refine (returned_unchanged "").1 _ (.step (e := adding "b")
    (.step (e := .list) (.step (e := adding "a") .start rfl ?_) rfl trivial) rfl ?_)
  · exact nofun
  · intro e he
    have hnone : (listingRun [adding "a",.list]).manager.byTag "b" = none := by decide
    exact absurd (hnone.symm.trans he) nofun

/-- A Remove shifts the elements under the reader, who then misses one and meets another twice; what is
created after a Remove of the last one takes its place. -/
theorem returned_disturbed :
    shownTags (listingRun [adding "a",adding "b",adding "c",.list,editing (.remove "a")]) =
        some (["a","b","c"],["b","c","c"]) ∧
      shownTags (listingRun [adding "a",adding "b",.list,editing (.remove "b"),adding "c"]) =
        some (["a","b"],["a","c"]) := by
  decide

end views
end SingBoxAuth.Managers
