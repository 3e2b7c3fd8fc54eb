import Mathlib.Data.List.Basic
import Mathlib.Logic.Function.Basic
import SingBoxAuth.ManagedElements

/-! The outbound manager and the DNS transport manager: what Create and Remove do to the list, the
tag map, the dependency index, the default and the fakeip transport. -/
namespace SingBoxAuth.Managers

/-- The elements, by position and by tag, and the tags that depend on a tag. The number of elements
made so far tells the objects apart. -/
structure Registry where
  elements : List Element
  byTag : String → Option Element
  dependByTag : String → List String
  made : ℕ

structure Manager extends Registry where
  defaultTag : String
  started : Bool
  default : Option Element

structure TransportManager extends Manager where
  fakeIPTransport : Option Element

def newManager (defaultTag : String) : Manager :=
  ⟨⟨[],fun _ => none,fun _ => [],0⟩,defaultTag,false,none⟩

def newTransportManager (defaultTag : String) : TransportManager :=
  ⟨newManager defaultTag,none⟩

inductive Refusal
  | invalid
  | registry (err : String)
  | start (stage : StartStage) (e : Element) (err : String)
  | closeOld (old : Element) (err : String)
  | close (err : String)
  | defaultFakeIP
  | multipleFakeIP
  | dependedBy (tag : String) (dependBy : List String)
  deriving DecidableEq

def StartStage.toString : StartStage → String
  | .initializing => "initialize"
  | .start => "start"
  | .postStart => "post-start"
  | .started => "finish-start"

def listStartStages : List StartStage := [.initializing,.start,.postStart,.started]

def Refusal.message (w : Wording) : Refusal → String
  | .invalid => "invalid argument"
  | .registry err => err
  | .start stage e err => stage.toString ++ " " ++ w.name e ++ ": " ++ err
  | .closeOld old err => "close " ++ w.name old ++ ": " ++ err
  | .close err => err
  | .defaultFakeIP => "default server cannot be fakeip"
  | .multipleFakeIP => "multiple fakeip server are not supported"
  | .dependedBy tag dependBy =>
    w.kind ++ "[" ++ tag ++ "] is depended by " ++ ", ".intercalate dependBy

inductive Result
  | done
  | refused (refusal : Refusal)
  | panicked
  deriving DecidableEq

inductive Edit
  | delete (i : ℕ)
  | append (e : Element)
  deriving DecidableEq

structure Answer (M : Type) where
  manager : M
  result : Result
  edits : List Edit

structure Made where
  type : String
  dependencies : List String

def fakeIP : String := "fakeip"

namespace Registry

def appendDependents (tag : String) (dependencies : List String) (index : String → List String) :
    String → List String :=
  dependencies.foldl
    (fun index dependency => Function.update index dependency (index dependency ++ [tag])) index

/-- A list of one tag is deleted whichever tag it is. -/
def releaseDependents (tag : String) (dependencies : List String) (index : String → List String) :
    String → List String :=
  dependencies.foldl
    (fun index dependency =>
      Function.update index dependency
        (if (index dependency).length = 1 then [] else (index dependency).filter (· ≠ tag))) index

def newElement (r : Registry) (tag : String) (x : Made) : Element :=
  ⟨.made r.made,x.type,tag,x.dependencies⟩

def counted (r : Registry) : Registry := { r with made := r.made + 1 }

def enter (r : Registry) (e : Element) : Registry :=
  { r with
    elements := r.elements ++ [e]
    byTag := Function.update r.byTag e.tag (some e)
    dependByTag := appendDependents e.tag e.dependencies r.dependByTag }

def drop (r : Registry) (e : Element) : Registry := { r with elements := r.elements.erase e }

def withdraw (r : Registry) (e : Element) (tag : String) : Registry :=
  { r.drop e with byTag := Function.update r.byTag tag none }

def release (r : Registry) (e : Element) (tag : String) : Registry :=
  { r with dependByTag := releaseDependents tag e.dependencies r.dependByTag }

end Registry

namespace Manager

variable (lifecycle : Lifecycle)

/-- A manager that is started brings a new element through all stages first. -/
def startError (m : Manager) (e : Element) : Option Refusal :=
  if m.started then
    listStartStages.findSome? fun stage => (lifecycle.start e stage).map (.start stage e)
  else none

def closeError (m : Manager) (e : Element) : Option String :=
  if m.started then lifecycle.close e else none

/-- Create up to the choice of the default: the new element is in the registry, or the call has
ended. -/
def enlist (m : Manager) (tag : String) (made : Except String Made) :
    Manager × Except Result (Element × List Edit) :=
  if tag = "" then (m,.error (.refused .invalid))
  else
    match made with
    | .error err => (m,.error (.refused (.registry err)))
    | .ok x =>
      let e := m.newElement tag x
      let m := { m with toRegistry := m.counted }
      match m.startError lifecycle e with
      | some refusal => (m,.error (.refused refusal))
      | none =>
        match m.byTag tag with
        | none => ({ m with toRegistry := m.enter e },.ok (e,[.append e]))
        | some old =>
          match m.closeError lifecycle old with
          | some err => (m,.error (.refused (.closeOld old err)))
          | none =>
            if old ∈ m.elements then
              ({ m with toRegistry := (m.drop old).enter e },
                .ok (e,[.delete (m.elements.idxOf old),.append e]))
            else (m,.error .panicked)

def takesDefault (m : Manager) (tag : String) : Bool :=
  tag = m.defaultTag || (m.defaultTag = "" && m.default = none)

/-- The first element that is left takes the place of a default that goes. -/
def defaultWithout (m : Manager) (e : Element) : Option Element :=
  if m.default = some e then (m.elements.erase e).head? else m.default

end Manager

variable (lifecycle : Lifecycle)

def createOutbound (m : Manager) (tag : String) (made : Except String Made) : Answer Manager :=
  match m.enlist lifecycle tag made with
  | (m,.error result) => ⟨m,result,[]⟩
  | (m,.ok (outbound,edits)) =>
    ⟨if m.takesDefault tag then { m with default := some outbound } else m,.done,edits⟩

def removeOutbound (m : Manager) (tag : String) : Answer Manager :=
  match m.byTag tag with
  | none => ⟨m,.refused .invalid,[]⟩
  | some outbound =>
    if outbound ∈ m.elements then
      let edits := [Edit.delete (m.elements.idxOf outbound)]
      let m := { m with
        toRegistry := m.withdraw outbound tag, default := m.defaultWithout outbound }
      if m.dependByTag tag ≠ [] then ⟨m,.refused (.dependedBy tag (m.dependByTag tag)),edits⟩
      else
        let m := { m with toRegistry := m.release outbound tag }
        match m.closeError lifecycle outbound with
        | some err => ⟨m,.refused (.close err),edits⟩
        | none => ⟨m,.done,edits⟩
    else ⟨{ m with byTag := Function.update m.byTag tag none },.panicked,[]⟩

/-- The choice of the default and of the fakeip server for a new transport. -/
def placeTransport (m : TransportManager) (tag : String) (transport : Element)
    (edits : List Edit) : Answer TransportManager :=
  if m.takesDefault tag ∧ transport.type = fakeIP then ⟨m,.refused .defaultFakeIP,edits⟩
  else
    let m := if m.takesDefault tag then { m with default := some transport } else m
    if transport.type = fakeIP then
      if m.fakeIPTransport ≠ none then ⟨m,.refused .multipleFakeIP,edits⟩
      else ⟨{ m with fakeIPTransport := some transport },.done,edits⟩
    else ⟨m,.done,edits⟩

def createTransport (m : TransportManager) (tag : String) (made : Except String Made) :
    Answer TransportManager :=
  match m.enlist lifecycle tag made with
  | (base,.error result) => ⟨{ m with toManager := base },result,[]⟩
  | (base,.ok (transport,edits)) =>
    placeTransport { m with toManager := base } tag transport edits

/-- The default goes while the next transport is one that the source refuses, which is any but a
fakeip server. -/
def blocked (m : Manager) (transport : Element) : Bool :=
  m.default = some transport &&
    ((m.elements.erase transport).head?.any fun next => next.type ≠ fakeIP)

def removeTransport (m : TransportManager) (tag : String) : Answer TransportManager :=
  match m.byTag tag with
  | none => ⟨m,.refused .invalid,[]⟩
  | some transport =>
    if transport ∈ m.elements then
      let edits := [Edit.delete (m.elements.idxOf transport)]
      let left := m.withdraw transport tag
      if blocked m.toManager transport then
        ⟨{ m with toRegistry := left },.refused .defaultFakeIP,edits⟩
      else
        let m := { m with toRegistry := left, default := m.defaultWithout transport }
        if m.dependByTag tag ≠ [] then ⟨m,.refused (.dependedBy tag (m.dependByTag tag)),edits⟩
        else
          -- What the Close of a removed transport reports is ignored.
          ⟨{ m with toRegistry := m.release transport tag },.done,edits⟩
    else ⟨{ m with byTag := Function.update m.byTag tag none },.panicked,[]⟩

inductive Call
  | create (tag : String) (made : Except String Made)
  | remove (tag : String)

/-- A call, with whether the manager is started then and what the elements report. -/
structure Event where
  started : Bool
  lifecycle : Lifecycle
  call : Call

def outboundCall (m : Manager) (event : Event) : Answer Manager :=
  match event.call with
  | .create tag made => createOutbound event.lifecycle { m with started := event.started } tag made
  | .remove tag => removeOutbound event.lifecycle { m with started := event.started } tag

def transportCall (m : TransportManager) (event : Event) : Answer TransportManager :=
  match event.call with
  | .create tag made => createTransport event.lifecycle { m with started := event.started } tag made
  | .remove tag => removeTransport { m with started := event.started } tag

/-- The ways in which a call changes the registry; a Remove that finds the element stuck is refused
without a look at the index. -/
inductive Registry.Change (stuck : Element → Bool) (r : Registry) :
    Call → Registry → List Edit → Prop
  | same {call : Call} : Change stuck r call r []
  | counted {call : Call} : Change stuck r call r.counted []
  | entered {tag : String} {x : Made} (hnone : r.byTag tag = none) :
      Change stuck r (.create tag (.ok x)) (r.counted.enter (r.newElement tag x))
        [.append (r.newElement tag x)]
  | replaced {tag : String} {x : Made} {old : Element} (hold : r.byTag tag = some old)
      (hin : old ∈ r.elements) :
      Change stuck r (.create tag (.ok x)) ((r.counted.drop old).enter (r.newElement tag x))
        [.delete (r.elements.idxOf old),.append (r.newElement tag x)]
  | lost {tag : String} {e : Element} (hfound : r.byTag tag = some e) (hnot : e ∉ r.elements) :
      Change stuck r (.remove tag) { r with byTag := Function.update r.byTag tag none } []
  | withdrawn {tag : String} {e : Element} (hfound : r.byTag tag = some e) (hin : e ∈ r.elements)
      (hheld : r.dependByTag tag ≠ [] ∨ stuck e = true) :
      Change stuck r (.remove tag) (r.withdraw e tag) [.delete (r.elements.idxOf e)]
  | removed {tag : String} {e : Element} (hfound : r.byTag tag = some e) (hin : e ∈ r.elements)
      (hfree : r.dependByTag tag = []) :
      Change stuck r (.remove tag) ((r.withdraw e tag).release e tag)
        [.delete (r.elements.idxOf e)]

section changes

lemma Manager.enlist_change (stuck : Element → Bool) (lifecycle : Lifecycle) (m : Manager)
    (tag : String) (made : Except String Made) :
    m.toRegistry.Change stuck (.create tag made) (m.enlist lifecycle tag made).1.toRegistry
      (match (m.enlist lifecycle tag made).2 with
        | .error _ => []
        | .ok (_,edits) => edits) := by
  unfold Manager.enlist
  split_ifs with ht
  · exact .same
  cases made with
  | error err => exact .same
  | ok x =>
    dsimp only
    cases Manager.startError lifecycle { m with toRegistry := m.counted } (m.newElement tag x) with
    | some refusal => exact .counted
    | none =>
      have hb : m.counted.byTag = m.byTag := rfl
      dsimp only
      rw [hb]
      cases hold : m.byTag tag with
      | none => exact .entered hold
      | some old =>
        dsimp only
        cases Manager.closeError lifecycle { m with toRegistry := m.counted } old with
        | some err => exact .counted
        | none =>
          dsimp only
          split_ifs with hin
          · exact .replaced hold hin
          · exact .counted

lemma outboundCall_change (m : Manager) (event : Event) :
    m.toRegistry.Change (fun _ => false) event.call (outboundCall m event).manager.toRegistry
      (outboundCall m event).edits := by
  obtain ⟨started,lifecycle,call⟩ := event
  cases call with
  | create tag made =>
    have h := Manager.enlist_change (fun _ => false) lifecycle { m with started } tag made
    simp only [outboundCall,createOutbound]
    generalize Manager.enlist lifecycle { m with started } tag made = answer at h ⊢
    obtain ⟨m',_ | ⟨e,edits⟩⟩ := answer
    · exact h
    · dsimp only
      split_ifs
      · exact h
      · exact h
  | remove tag =>
    simp only [outboundCall,removeOutbound]
    cases hf : m.byTag tag with
    | none => exact .same
    | some e =>
      dsimp only
      split_ifs with hin hd
      · exact .withdrawn hf hin (.inl hd)
      · have hc : m.toRegistry.Change (fun _ => false) (.remove tag)
            ((m.withdraw e tag).release e tag) [.delete (m.elements.idxOf e)] :=
          .removed hf hin (not_not.mp hd)
        split
        · exact hc
        · exact hc
      · exact .lost hf hin

lemma placeTransport_change (m : TransportManager) (tag : String) (e : Element)
    (edits : List Edit) :
    (placeTransport m tag e edits).manager.toRegistry = m.toRegistry ∧
      (placeTransport m tag e edits).edits = edits := by
  unfold placeTransport
  by_cases hd : m.takesDefault tag = true
  · by_cases ht : e.type = fakeIP
    · simp [hd,ht]
    · simp [hd,ht]
  · by_cases ht : e.type = fakeIP
    · by_cases hs : m.fakeIPTransport = none
      · simp [hd,ht,hs]
      · simp [hd,ht,hs]
    · simp [hd,ht]

lemma transportCall_change (m : TransportManager) (event : Event) :
    m.toRegistry.Change (blocked m.toManager) event.call
      (transportCall m event).manager.toRegistry (transportCall m event).edits := by
  obtain ⟨started,lifecycle,call⟩ := event
  cases call with
  | create tag made =>
    have h := Manager.enlist_change (blocked m.toManager) lifecycle { m.toManager with started } tag
      made
    simp only [transportCall,createTransport]
    generalize Manager.enlist lifecycle { m.toManager with started } tag made = answer at h ⊢
    obtain ⟨base,_ | ⟨e,edits⟩⟩ := answer
    · exact h
    · dsimp only
      rw [(placeTransport_change _ tag e edits).1,(placeTransport_change _ tag e edits).2]
      exact h
  | remove tag =>
    simp only [transportCall,removeTransport]
    cases hf : m.byTag tag with
    | none => exact .same
    | some e =>
      dsimp only
      split_ifs with hin hb hd
      · exact .withdrawn hf hin (.inr hb)
      · exact .withdrawn hf hin (.inl hd)
      · exact .removed hf hin (not_not.mp hd)
      · exact .lost hf hin

end changes

/-- The list and the tag map have the same elements, each of which was made once. -/
structure Registry.Consistent (r : Registry) : Prop where
  nodup : r.elements.Nodup
  fresh : ∀ e ∈ r.elements, ∃ n < r.made, e.identity = .made n
  mapped : ∀ e, e ∈ r.elements ↔ r.byTag e.tag = some e
  tagged : ∀ tag e, r.byTag tag = some e → e.tag = tag

namespace Registry.Consistent

variable {r : Registry} {e : Element} {tag : String}

lemma mem (h : r.Consistent) (hf : r.byTag tag = some e) : e ∈ r.elements := by
  rw [h.mapped,h.tagged tag e hf]
  exact hf

lemma newElement_notMem (h : r.Consistent) (tag : String) (x : Made) :
    r.newElement tag x ∉ r.elements := by
  intro hm
  obtain ⟨n,hn,hi⟩ := h.fresh _ hm
  cases hi
  exact absurd hn (Nat.lt_irrefl _)

lemma counted (h : r.Consistent) : r.counted.Consistent := by
  refine ⟨h.nodup,fun e he => ?_,h.mapped,h.tagged⟩
  obtain ⟨n,hn,hi⟩ := h.fresh e he
  exact ⟨n,Nat.lt_succ_of_lt hn,hi⟩

lemma withdraw (h : r.Consistent) (hf : r.byTag tag = some e) : (r.withdraw e tag).Consistent := by
  have ht := h.tagged tag e hf
  refine ⟨h.nodup.erase e,fun x hx => h.fresh x (List.mem_of_mem_erase hx),fun x => ?_,?_⟩
  · simp only [Registry.withdraw,Registry.drop,h.nodup.mem_erase_iff,Function.update_apply]
    split_ifs with hx
    · simp only [iff_false,not_and]
      intro hne hm
      rw [h.mapped,hx,hf] at hm
      exact hne (Option.some.inj hm).symm
    · rw [h.mapped,and_iff_right]
      intro he
      exact hx (he ▸ ht)
  · intro t x hx
    simp only [Registry.withdraw,Function.update_apply] at hx
    split_ifs at hx
    exact h.tagged t x hx

lemma enter (h : r.Consistent) (hnone : r.byTag tag = none) (x : Made) :
    (r.counted.enter (r.newElement tag x)).Consistent := by
  have hnew := h.newElement_notMem tag x
  refine ⟨?_,fun y hy => ?_,fun y => ?_,fun t y hy => ?_⟩
  · simp only [Registry.enter,Registry.counted,← List.concat_eq_append]
    exact h.nodup.concat hnew
  · obtain hy | hy := List.mem_append.mp hy
    · exact h.counted.fresh y hy
    · rw [List.mem_singleton.mp hy]
      exact ⟨r.made,Nat.lt_succ_self _,rfl⟩
  · simp only [Registry.enter,Registry.counted,List.mem_append,List.mem_singleton,
      Function.update_apply]
    have htag : (r.newElement tag x).tag = tag := rfl
    split_ifs with hy
    · have hn : y ∉ r.elements := by
        rw [h.mapped,hy,htag,hnone]
        exact Option.some_ne_none y |>.symm
      simp [hn,eq_comm]
    · rw [h.mapped,or_iff_left]
      intro he
      exact hy (he ▸ rfl)
  · simp only [Registry.enter,Function.update_apply] at hy
    split_ifs at hy with ht
    · cases hy
      exact ht.symm
    · exact h.tagged t y hy

end Registry.Consistent

/-- A replacement is a withdrawal with an entry after it. -/
lemma Registry.drop_enter (r : Registry) (old e : Element) :
    (r.drop old).enter e = (r.withdraw old e.tag).enter e := by
  simp [Registry.enter,Registry.withdraw,Registry.drop]

lemma Registry.Consistent.change {stuck : Element → Bool} {r r' : Registry} {call : Call}
    {edits : List Edit} (h : r.Consistent) (hc : r.Change stuck call r' edits) : r'.Consistent := by
  cases hc with
  | same => exact h
  | counted => exact h.counted
  | entered hnone => exact h.enter hnone _
  | @replaced tag x old hold hin =>
    rw [Registry.drop_enter]
    exact (h.withdraw hold).enter (by simp [Registry.withdraw]) x
  | lost hfound hnot => exact absurd (h.mem hfound) hnot
  | withdrawn hfound _ _ => exact h.withdraw hfound
  | removed hfound _ _ =>
    have hw := h.withdraw hfound
    exact ⟨hw.nodup,hw.fresh,hw.mapped,hw.tagged⟩

lemma consistent_newManager (defaultTag : String) : (newManager defaultTag).Consistent :=
  ⟨List.nodup_nil,nofun,fun _ => by simp [newManager],nofun⟩

lemma Manager.enlist_ne_panicked {m : Manager} (h : m.Consistent) (lifecycle : Lifecycle)
    (tag : String) (made : Except String Made) :
    (m.enlist lifecycle tag made).2 ≠ .error .panicked := by
  have hm : ∀ e,m.counted.byTag tag = some e → e ∈ m.counted.elements := fun _ => h.counted.mem
  cases made <;> grind [Manager.enlist]

lemma outboundCall_ne_panicked {m : Manager} (h : m.Consistent) (event : Event) :
    (outboundCall m event).result ≠ .panicked := by
  obtain ⟨started,lifecycle,⟨tag,made⟩ | tag⟩ := event
  · have hn := Manager.enlist_ne_panicked (m := { m with started }) h lifecycle tag made
    grind [outboundCall,createOutbound]
  · have hm : ∀ e,m.byTag tag = some e → e ∈ m.elements := fun _ => h.mem
    grind [outboundCall,removeOutbound]

lemma transportCall_ne_panicked {m : TransportManager} (h : m.Consistent) (event : Event) :
    (transportCall m event).result ≠ .panicked := by
  obtain ⟨started,lifecycle,⟨tag,made⟩ | tag⟩ := event
  · have hn := Manager.enlist_ne_panicked (m := { m.toManager with started }) h lifecycle tag made
    grind [transportCall,createTransport,placeTransport]
  · have hm : ∀ e,m.byTag tag = some e → e ∈ m.elements := fun _ => h.mem
    grind [transportCall,removeTransport]

/-- After every sequence of calls, refused and failed ones included, no call finds an element in the
tag map that is missing in the list, and panics. -/
theorem calls_never_panic (defaultTag : String) (events : List Event) (event : Event) :
    (outboundCall (events.foldl (fun m event => (outboundCall m event).manager)
      (newManager defaultTag)) event).result ≠ .panicked ∧
    (transportCall (events.foldl (fun m event => (transportCall m event).manager)
      (newTransportManager defaultTag)) event).result ≠ .panicked := by
  constructor
  · refine outboundCall_ne_panicked ?_ event
    exact List.foldlRecOn (motive := fun m : Manager => m.Consistent) events _
      (consistent_newManager defaultTag) fun m h e _ => h.change (outboundCall_change m e)
  · refine transportCall_ne_panicked ?_ event
    exact List.foldlRecOn (motive := fun m : TransportManager => m.Consistent) events _
      (consistent_newManager defaultTag) fun m h e _ => h.change (transportCall_change m e)

end SingBoxAuth.Managers
