import SingBoxAuth.Transitions

/-! A selector outbound: dials through what is selected, the group of connections that a switch
interrupts, and switches at the same time, step by step. -/
namespace SingBoxAuth.SelectorInterrupts
open Transitions

structure Conn (O : Type) where
  id : ℕ
  via : O
  deriving DecidableEq

structure GroupConnItem (O : Type) where
  conn : Conn O
  isExternal : Bool

inductive PC (O : Type)
  | idle
  | loaded (detour : O) (isExternal : Bool)
  | dialed (conn : Conn O) (isExternal : Bool)
  | swapped
  deriving DecidableEq

inductive Action (Tag O : Type)
  /-- DialContext or ListenPacket, with the load of the selected outbound. -/
  | dial (isExternal : Bool)
  /-- SelectOutbound, up to the swap. -/
  | selectOutbound (tag : Tag)
  | close (conn : Conn O)
  /-- The next step of the call; a dial succeeds, if so. -/
  | next (ok : Bool)

structure Selector (T O : Type) where
  pc : T → PC O
  selected : O
  interruptExternalConnections : Bool
  /-- The connections of the interrupt group. -/
  connections : List (GroupConnItem O)
  /-- The number of connections that were dialed. -/
  count : ℕ
  returned : Conn O → Bool
  closed : Conn O → Bool

variable {T Tag O : Type} [DecidableEq T] [DecidableEq O]

namespace Selector

def new (interruptExternalConnections : Bool) (o : O) : Selector T O :=
  ⟨fun _ => .idle,o,interruptExternalConnections,[],0,fun _ => false,fun _ => false⟩

def go (s : Selector T O) (t : T) (pc : PC O) : Selector T O :=
  { s with pc := Function.update s.pc t pc }

/-- The group's NewConn and NewPacketConn, and the return of the connection. -/
def newConn (s : Selector T O) (conn : Conn O) (isExternal : Bool) : Selector T O :=
  { s with
    connections := s.connections ++ [⟨conn,isExternal⟩]
    returned := Function.update s.returned conn true }

def interrupt (s : Selector T O) : Selector T O :=
  let hit (item : GroupConnItem O) : Bool := !item.isExternal || s.interruptExternalConnections
  { s with
    connections := s.connections.filter (!hit ·)
    closed := fun c => s.closed c || s.connections.any fun item => hit item && item.conn = c }

def close (s : Selector T O) (conn : Conn O) : Selector T O :=
  { s with
    connections := s.connections.filter (·.conn ≠ conn)
    closed := Function.update s.closed conn true }

def perform (outbounds : Tag → Option O) (s : Selector T O) (event : T × Action Tag O) :
    Option (Selector T O) :=
  let t := event.1
  match s.pc t, event.2 with
  | .idle, .dial isExternal => some (s.go t (.loaded s.selected isExternal))
  | .idle, .selectOutbound tag =>
    match outbounds tag with
    | none => some s
    | some detour =>
      if s.selected = detour then some s
      else some { s.go t .swapped with selected := detour }
  | .idle, .close conn => if s.returned conn then some (s.close conn) else none
  | .loaded detour isExternal, .next ok =>
    if ok then some { s.go t (.dialed ⟨s.count,detour⟩ isExternal) with count := s.count + 1 }
    else some (s.go t .idle)
  | .dialed conn isExternal, .next _ => some ((s.go t .idle).newConn conn isExternal)
  | .swapped, .next _ => some (s.go t .idle).interrupt
  | _, _ => none

def Quiet (s : Selector T O) : Prop := ∀ t, s.pc t = .idle

/-- A connection is registered while the outbound that was loaded for it is selected, or while a
switch has yet to interrupt. -/
def orderly (s : Selector T O) (event : T × Action Tag O) : Prop :=
  ∀ conn isExternal, s.pc event.1 = .dialed conn isExternal →
    conn.via = s.selected ∨ ∃ t, s.pc t = .swapped

end Selector

/-- What holds between any two steps of a run whose steps are orderly. -/
structure Inv (s : Selector T O) : Prop where
  interrupts : s.interruptExternalConnections = true
  registered : ∀ c, s.returned c = true → s.closed c = false →
    ∃ item ∈ s.connections, item.conn = c
  current : (∀ item ∈ s.connections, item.conn.via = s.selected) ∨ ∃ t, s.pc t = .swapped

section invariant

variable {outbounds : Tag → Option O} {s s' : Selector T O} {t : T} {p : PC O}

omit [DecidableEq O] in
lemma Inv.go (h : Inv s) (hp : s.pc t ≠ .swapped) : Inv (s.go t p) := by
  refine ⟨h.interrupts,h.registered,h.current.imp_right ?_⟩
  exact exists_place (f := (· = PC.swapped)) rfl (absurd · hp)

omit [DecidableEq T] in
lemma Inv.newConn {c : Conn O} {e : Bool} (h : Inv s)
    (ho : c.via = s.selected ∨ ∃ t,s.pc t = .swapped) : Inv (s.newConn c e) := by
  refine ⟨h.interrupts,fun d hd hcl => ?_,?_⟩
  · by_cases hdc : d = c
    · exact ⟨⟨c,e⟩,by simp [Selector.newConn],hdc.symm⟩
    · have hr : s.returned d = true := by
        simpa [Selector.newConn,Function.update_of_ne hdc] using hd
      obtain ⟨item,hm,he⟩ := h.registered d hr hcl
      exact ⟨item,List.mem_append_left _ hm,he⟩
  · obtain hc | hex := h.current
    · refine ho.imp_left fun hv item hm => ?_
      obtain hm | hm := List.mem_append.mp hm
      · exact hc item hm
      · rw [List.mem_singleton.mp hm]
        exact hv
    · exact .inr hex

omit [DecidableEq T] in
lemma Inv.close {c : Conn O} (h : Inv s) : Inv (s.close c) := by
  refine ⟨h.interrupts,fun d hd hcl => ?_,?_⟩
  · have hdc : d ≠ c := by
      intro he
      simp [Selector.close,he] at hcl
    have hcl' : s.closed d = false := by
      simpa [Selector.close,Function.update_of_ne hdc] using hcl
    obtain ⟨item,hm,he⟩ := h.registered d hd hcl'
    exact ⟨item,by simp [Selector.close,hm,he,hdc],he⟩
  · refine h.current.imp_left fun hc item hm => ?_
    exact hc item (List.mem_of_mem_filter hm)

lemma Inv.interrupt (h : Inv s) : Inv (s.go t .idle).interrupt := by
  have hi := h.interrupts
  refine ⟨hi,fun d hd hcl => ?_,.inl fun item hm => ?_⟩
  · simp only [Selector.interrupt,Selector.go,hi,Bool.or_true,Bool.true_and,
      Bool.or_eq_false_iff,List.any_eq_false,decide_eq_true_eq] at hcl
    obtain ⟨item,hm,he⟩ := h.registered d hd hcl.1
    exact absurd he (hcl.2 item hm)
  · simp [Selector.interrupt,Selector.go,hi] at hm

omit [DecidableEq O] in
lemma Inv.swap {o : O} (h : Inv s) : Inv { s.go t .swapped with selected := o } :=
  ⟨h.interrupts,h.registered,.inr ⟨t,Function.update_self ..⟩⟩

omit [DecidableEq O] in
lemma Inv.dialed {c : Conn O} {e : Bool} (h : Inv s) (hp : s.pc t ≠ .swapped) :
    Inv { s.go t (.dialed c e) with count := s.count + 1 } :=
  have hg : Inv (s.go t (.dialed c e)) := h.go hp
  ⟨hg.interrupts,hg.registered,hg.current⟩

lemma Inv.perform {event : T × Action Tag O} (h : Inv s)
    (hp : Selector.perform outbounds s event = some s') (ho : s.orderly event) : Inv s' := by
  obtain ⟨t,action⟩ := event
  unfold Selector.perform at hp
  dsimp only at hp
  split at hp
  next hpc =>
    cases hp
    exact h.go (by simp [hpc])
  next hpc =>
    split at hp
    · cases hp
      exact h
    · split_ifs at hp
      · cases hp
        exact h
      · cases hp
        exact h.swap
  next hpc =>
    split_ifs at hp
    cases hp
    exact h.close
  next hpc =>
    split_ifs at hp
    · cases hp
      exact h.dialed (by simp [hpc])
    · cases hp
      exact h.go (by simp [hpc])
  next hpc =>
    cases hp
    refine Inv.newConn (h.go (by simp [hpc])) ((ho _ _ hpc).imp_right ?_)
    exact exists_place (f := (· = PC.swapped)) rfl (by simp [hpc])
  next hpc =>
    cases hp
    exact h.interrupt
  next => cases hp

/-- In every run whose registrations are orderly, when no call is in progress every connection that
was returned and is not closed was dialed through the selected outbound. -/
theorem connections_selected (outbounds : Tag → Option O) (o : O)
    (h : Reaches (fun s e s' => Selector.perform outbounds s e = some s') Selector.orderly
      (Selector.new true o) s) (hq : s.Quiet) :
    ∀ c, s.returned c = true → s.closed c = false → c.via = s.selected := by
  have hi : Inv s := by
    refine h.invariant Inv ⟨rfl,nofun,.inl nofun⟩ ?_
    intro s e s' hs hp ho
    exact hs.perform hp ho
  intro c hr hc
  obtain ⟨item,hm,rfl⟩ := hi.registered c hr hc
  obtain hcur | ⟨t,ht⟩ := hi.current
  · exact hcur item hm
  · rw [hq t] at ht
    cases ht

end invariant

section runs

instance (s : Selector Bool Bool) : Decidable s.Quiet :=
  inferInstanceAs (Decidable (∀ t, s.pc t = .idle))

def prompt (s : Selector Bool Bool) (event : Bool × Action Bool Bool) : Bool :=
  match s.pc event.1 with
  | .dialed conn _ => conn.via == s.selected
  | _ => true

lemma orderly_of_prompt (s : Selector Bool Bool) (event : Bool × Action Bool Bool)
    (h : prompt s event = true) : s.orderly event := by
  intro conn isExternal hp
  rw [prompt,hp] at h
  exact .inl (beq_iff_eq.mp h)

lemma runs_of_follow (test : Selector Bool Bool → Bool × Action Bool Bool → Bool)
    (events : List (Bool × Action Bool Bool)) (p : Selector Bool Bool → Bool)
    (h : (follow (Selector.perform some) test events (.new true false)).any p = true) :
    ∃ s,Reaches (fun s e s' => Selector.perform some s e = some s')
      (fun s event => test s event = true) (.new true false) s ∧ p s = true := by
  obtain ⟨s,hs,hp⟩ := Option.any_eq_true .. |>.mp h
  exact ⟨s,reaches_of_follow .start hs,hp⟩

/-- A dial, a switch and another dial: the first connection is closed, the second one is open. -/
theorem connections_selected_switch :
    ∃ s : Selector Bool Bool, s.Quiet ∧ s.closed ⟨0,false⟩ = true ∧
      s.returned ⟨1,true⟩ = true ∧ s.closed ⟨1,true⟩ = false ∧
      ∀ c, s.returned c = true → s.closed c = false → c.via = s.selected := by
  obtain ⟨s,hs,hp⟩ := runs_of_follow prompt
    [(false,.dial true),(false,.next true),(false,.next true),(true,.selectOutbound true),
      (true,.next true),(false,.dial true),(false,.next true),(false,.next true)]
    (fun s => s.Quiet ∧ s.closed ⟨0,false⟩ = true ∧ s.returned ⟨1,true⟩ = true ∧
      s.closed ⟨1,true⟩ = false) (by decide)
  obtain ⟨hq,h0,h1,h2⟩ := of_decide_eq_true hp
  exact ⟨s,hq,h0,h1,h2,connections_selected some false (hs.mono orderly_of_prompt) hq⟩

/-- A switch between the load and the registration finds nothing to interrupt, and the connection
through the old outbound stays open. -/
theorem missed_by_switch :
    ∃ s : Selector Bool Bool, Reaches (fun s e s' => Selector.perform some s e = some s') anyStep
      (.new true false) s ∧ s.Quiet ∧ s.selected = true ∧
      s.returned ⟨0,false⟩ = true ∧ s.closed ⟨0,false⟩ = false := by
  obtain ⟨s,hs,hp⟩ := runs_of_follow (fun _ _ => true)
    [(false,.dial true),(true,.selectOutbound true),(true,.next true),(false,.next true),
      (false,.next true)]
    (fun s => s.Quiet ∧ s.selected = true ∧ s.returned ⟨0,false⟩ = true ∧
      s.closed ⟨0,false⟩ = false) (by decide)
  exact ⟨s,hs.mono fun _ _ _ => trivial,of_decide_eq_true hp⟩

end runs
end SingBoxAuth.SelectorInterrupts
