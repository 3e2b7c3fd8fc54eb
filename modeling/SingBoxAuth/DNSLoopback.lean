import SingBoxAuth.DNSCaching
import SingBoxAuth.Transitions

/-! Exchanges of one client that a server makes while it answers another one: the lock on a question
in flight, and the check for loops behind it. -/
namespace SingBoxAuth.DNSExchange.Nesting
open Transitions

inductive Ending
  | formatError
  | strategyRejected
  | cached
  | loopback
  | answered
deriving DecidableEq

inductive Phase
  | waiting (owner : ℕ)
  | checking
  | asking
  | returned (ending : Ending)
deriving DecidableEq

def Phase.isReturned : Phase → Bool
  | .returned _ => true
  | _ => false

structure Request where
  server : Tag
  message : Query
  options : DNSQueryOptions
  /-- The cache has a response when the exchange looks for one. -/
  cached : Bool

def Request.question (r : Request) : Question := r.message.questions.headD ⟨"",.a,1⟩

/-- An exchange and the exchanges it is made for, the innermost first. -/
structure Nested extends Request where
  enclosing : List ℕ

structure State where
  calls : List Nested
  phase : ℕ → Phase
  cacheLock : Question → Option ℕ

inductive Event
  | exchange (parent : Option ℕ) (request : Request)
  | wake (i : ℕ)
  | check (i : ℕ)
  | answer (i : ℕ)

namespace State

variable (s : State)

/-- The context keeps the server of the innermost exchange only. -/
def transportTagFromContext (call : Nested) : Option Tag :=
  call.enclosing.head?.bind fun parent => s.calls[parent]?.map fun outer => outer.server

def enter (call : Nested) (phase : Phase) : State :=
  { s with calls := s.calls ++ [call], phase := Function.update s.phase s.calls.length phase }

def arrive (c : Client) (call : Nested) : State :=
  if call.message.questions = [] then s.enter call (.returned .formatError)
  else if strategyRejects call.question.qtype call.options.strategy then
    s.enter call (.returned .strategyRejected)
  else if c.usesCache call.message call.options then
    match s.cacheLock call.question with
    | some owner => s.enter call (.waiting owner)
    | none => { s.enter call .checking with
        cacheLock := Function.update s.cacheLock call.question (some s.calls.length) }
  else s.enter call .checking

def move (i : ℕ) (phase : Phase) : State := { s with phase := Function.update s.phase i phase }

/-- An exchange returns, and unlocks its question if it holds the lock. -/
def finish (i : ℕ) (ending : Ending) : State :=
  { s.move i (.returned ending) with
    cacheLock := fun question =>
      if s.cacheLock question = some i then none else s.cacheLock question }

/-- All exchanges that the server of this one makes have returned. -/
def childrenReturned (i : ℕ) : Bool :=
  (List.range s.calls.length).all fun j =>
    (s.calls[j]?.bind fun call => call.enclosing.head?) != some i || (s.phase j).isReturned

def perform (c : Client) : Event → Option State
  | .exchange none request => some (s.arrive c ⟨request,[]⟩)
  | .exchange (some parent) request =>
    match s.calls[parent]? with
    | none => none
    | some outer =>
      if s.phase parent = .asking then some (s.arrive c ⟨request,parent :: outer.enclosing⟩)
      else none
  | .wake i =>
    match s.phase i with
    | .waiting owner =>
      -- a waiting exchange goes on without the lock
      if i < s.calls.length ∧ (s.phase owner).isReturned then some (s.move i .checking) else none
    | _ => none
  | .check i =>
    match s.calls[i]? with
    | none => none
    | some call =>
      if s.phase i ≠ .checking then none
      else if c.usesCache call.message call.options && call.cached then some (s.finish i .cached)
      else if s.transportTagFromContext call = some call.server then some (s.finish i .loopback)
      else some (s.move i .asking)
  | .answer i =>
    if i < s.calls.length ∧ s.phase i = .asking ∧ s.childrenReturned i then
      some (s.finish i .answered)
    else none

end State

def idle : State := ⟨[],fun _ => .checking,fun _ => none⟩

def Event.goesOn : Event → Prop
  | .exchange _ _ => False
  | _ => True

/-- An exchange asks the server and the question of an exchange it is made for. -/
def Request.repeats (request : Request) (outer : Nested) : Prop :=
  outer.server = request.server ∧ request.message.questions.head? = some outer.question

/-- A nested exchange of a locked question asks a question ranked below those of the exchanges it is
made for; one that repeats an exchange it is made for is made by the same server, is not ruled out by
its strategy and not answered from the cache. -/
def NestSafe (c : Client) (rank : Question → ℕ) (s : State) : Event → Prop
  | .exchange (some parent) request => ∀ outer, s.calls[parent]? = some outer →
      ∀ a ∈ parent :: outer.enclosing, ∀ other, s.calls[a]? = some other →
      (c.usesCache request.message request.options = true → s.cacheLock request.question ≠ none →
        rank request.question < rank other.question) ∧
      (request.repeats other →
        strategyRejects request.question.qtype request.options.strategy = false ∧
        (c.usesCache request.message request.options && request.cached) = false ∧
        outer.server = request.server)
  | _ => True

/-- The question's lock is held by an exchange that does not wait for a lock. -/
def Owns (s : State) (owner : ℕ) (question : Question) : Prop :=
  ∃ call, s.calls[owner]? = some call ∧ call.question = question ∧
    ∀ other, s.phase owner ≠ .waiting other

structure Inv (c : Client) (rank : Question → ℕ) (s : State) : Prop where
  chain : ∀ (i : ℕ) (call : Nested), s.calls[i]? = some call → call.enclosing = [] ∨
    ∃ (parent : ℕ) (outer : Nested), call.enclosing = parent :: outer.enclosing ∧
      s.calls[parent]? = some outer ∧
      parent < i
  waits : ∀ (i : ℕ) (call : Nested) owner, s.calls[i]? = some call → s.phase i = .waiting owner →
    Owns s owner call.question ∧ ∀ a ∈ call.enclosing, ∀ outer, s.calls[a]? = some outer →
      rank call.question < rank outer.question
  locks : ∀ question owner, s.cacheLock question = some owner → Owns s owner question
  loops : ∀ (i : ℕ) (call : Nested), s.calls[i]? = some call → ∀ a ∈ call.enclosing, ∀ outer,
    s.calls[a]? = some outer → call.repeats outer →
      (c.usesCache call.message call.options && call.cached) = false ∧
      s.transportTagFromContext call = some call.server ∧
      (s.phase i = .checking ∨ s.phase i = .returned .loopback)

section

variable {c : Client} {rank : Question → ℕ} {s t : State}

lemma lt_of_call {i : ℕ} {call : Nested} (h : s.calls[i]? = some call) : i < s.calls.length :=
  (List.getElem?_eq_some_iff.mp h).1

lemma enclosing_lt (h : Inv c rank s) {i : ℕ} {call : Nested} (hi : s.calls[i]? = some call) :
    ∀ a ∈ call.enclosing,a < i := by
  induction i using Nat.strong_induction_on generalizing call with
  | _ i ih =>
    intro a ha
    rcases h.chain i call hi with hn | ⟨parent,outer,hco,hp,hlt⟩
    · rw [hn] at ha
      cases ha
    · rw [hco] at ha
      rcases List.mem_cons.mp ha with rfl | ha
      · exact hlt
      · exact (ih parent hlt hp a ha).trans hlt

lemma calls_append {call new : Nested} {i : ℕ} (h : (s.calls ++ [new])[i]? = some call) :
    s.calls[i]? = some call ∨ i = s.calls.length ∧ call = new := by
  rcases Nat.lt_or_ge i s.calls.length with hlt | hge
  · rw [List.getElem?_append_left hlt] at h
    exact .inl h
  · rw [List.getElem?_append_right hge] at h
    obtain ⟨hlt,heq⟩ := List.getElem?_eq_some_iff.mp h
    simp only [List.length_singleton] at hlt
    have hi : i = s.calls.length := by omega
    subst hi
    simp only [Nat.sub_self,List.getElem_cons_zero] at heq
    exact .inr ⟨rfl,heq.symm⟩

lemma calls_append_old {call new : Nested} {i : ℕ} (h : s.calls[i]? = some call) :
    (s.calls ++ [new])[i]? = some call := by
  rw [List.getElem?_append_left (lt_of_call h)]
  exact h

lemma Inv.move (h : Inv c rank s) {i : ℕ} {phase : Phase} {cacheLock : Question → Option ℕ}
    (hp : ∀ owner,phase ≠ .waiting owner)
    (hl : ∀ question owner,cacheLock question = some owner → s.cacheLock question = some owner)
    (hlo : s.phase i = .checking ∨ s.phase i = .returned .loopback →
      (∃ call,s.calls[i]? = some call ∧
      (c.usesCache call.message call.options && call.cached) = false ∧
      s.transportTagFromContext call = some call.server) → phase = .returned .loopback) :
    Inv c rank ⟨s.calls,Function.update s.phase i phase,cacheLock⟩ := by
  have how : ∀ owner question,Owns s owner question →
      Owns ⟨s.calls,Function.update s.phase i phase,cacheLock⟩ owner question := by
    rintro owner question ⟨call,hcl,hqu,hno⟩
    refine ⟨call,hcl,hqu,fun other => ?_⟩
    by_cases ho : owner = i
    · subst ho
      simpa using hp other
    · simpa [Function.update_of_ne ho] using hno other
  refine ⟨h.chain,?_,fun question owner hlc => ?_,?_⟩
  · intro j call owner hj hw
    by_cases hji : j = i
    · subst hji
      exact absurd ((Function.update_self ..).symm.trans hw) (hp owner)
    · have hs := (Function.update_of_ne hji _ _).symm.trans hw
      obtain ⟨hon,hra⟩ := h.waits j call owner hj hs
      exact ⟨how _ _ hon,hra⟩
  · exact how _ _ (h.locks question owner (hl question owner hlc))
  · intro j call hj a ha outer hou hr
    obtain ⟨hca,ht,hn⟩ := h.loops j call hj a ha outer hou hr
    refine ⟨hca,ht,?_⟩
    by_cases hji : j = i
    · subst hji
      exact .inr ((Function.update_self ..).trans (hlo hn ⟨call,hj,hca,ht⟩))
    · simpa only [Function.update_of_ne hji] using hn

lemma arrive_eq (c : Client) (s : State) (call : Nested) : ∃ phase cacheLock,s.arrive c call =
        ⟨s.calls ++ [call],Function.update s.phase s.calls.length phase,cacheLock⟩ ∧
      (∀ owner,phase = .waiting owner → c.usesCache call.message call.options = true ∧
        s.cacheLock call.question = some owner) ∧
      (∀ question owner,cacheLock question = some owner → s.cacheLock question = some owner ∨
        owner = s.calls.length ∧ question = call.question ∧ phase = .checking) ∧
      (call.message.questions ≠ [] →
        strategyRejects call.question.qtype call.options.strategy = false →
        (c.usesCache call.message call.options = true → s.cacheLock call.question = none) →
        phase = .checking) := by
  rw [State.arrive]
  split_ifs with hqe hs hca
  · exact ⟨_,_,rfl,by simp,fun _ _ h => .inl h,fun h => absurd hqe h⟩
  · exact ⟨_,_,rfl,by simp,fun _ _ h => .inl h,fun _ h => by simp [h] at hs⟩
  · cases hl : s.cacheLock call.question with
    | some owner =>
      refine ⟨_,_,rfl,fun other h => ?_,fun _ _ h => .inl h,fun _ _ h => ?_⟩
      · cases h
        exact ⟨hca,rfl⟩
      · cases h hca
    | none =>
      refine ⟨_,_,rfl,by simp,fun question owner h => ?_,fun _ _ _ => rfl⟩
      by_cases hqu : question = call.question
      · subst hqu
        rw [Function.update_self] at h
        exact .inr ⟨(Option.some.inj h).symm,rfl,rfl⟩
      · rw [Function.update_of_ne hqu] at h
        exact .inl h
  · exact ⟨_,_,rfl,by simp,fun _ _ h => .inl h,fun _ _ _ => rfl⟩

def Admitted (c : Client) (rank : Question → ℕ) (s : State) (call : Nested) : Prop :=
  (call.enclosing = [] ∨ ∃ (parent : ℕ) (outer : Nested),
    call.enclosing = parent :: outer.enclosing ∧ s.calls[parent]? = some outer) ∧
  ∀ a ∈ call.enclosing, ∀ other, s.calls[a]? = some other →
    (c.usesCache call.message call.options = true → s.cacheLock call.question ≠ none →
      rank call.question < rank other.question) ∧
    (call.repeats other →
      strategyRejects call.question.qtype call.options.strategy = false ∧
      (c.usesCache call.message call.options && call.cached) = false ∧
      s.transportTagFromContext call = some call.server)

lemma tag_append {call new : Nested} {phase : ℕ → Phase}
    {cacheLock : Question → Option ℕ} {server : Tag}
    (ht : s.transportTagFromContext call = some server) :
    State.transportTagFromContext ⟨s.calls ++ [new],phase,cacheLock⟩ call = some server := by
  rw [State.transportTagFromContext] at ht ⊢
  obtain ⟨parent,hp,ht⟩ := Option.bind_eq_some_iff.mp ht
  obtain ⟨outer,ho,rfl⟩ := Option.map_eq_some_iff.mp ht
  rw [hp,Option.bind_some,calls_append_old ho]
  rfl

lemma Inv.arrive (h : Inv c rank s) {call : Nested} (had : Admitted c rank s call) :
    Inv c rank (s.arrive c call) := by
  obtain ⟨phase,cacheLock,heq,hwa,hlo,hch⟩ := arrive_eq c s call
  rw [heq]
  set t : State := ⟨s.calls ++ [call],Function.update s.phase s.calls.length phase,cacheLock⟩
  have hold : ∀ {i : ℕ} {other : Nested},s.calls[i]? = some other → t.phase i = s.phase i :=
    fun hi => Function.update_of_ne (lt_of_call hi).ne _ _
  have how : ∀ owner question,Owns s owner question → Owns t owner question := by
    rintro owner question ⟨other,hot,hqu,hno⟩
    refine ⟨other,calls_append_old hot,hqu,fun o => ?_⟩
    rw [hold hot]
    exact hno o
  -- the exchanges an exchange is made for were there before it
  have hb : ∀ {i : ℕ} {other outer : Nested},t.calls[i]? = some other →
      ∀ a ∈ other.enclosing,t.calls[a]? = some outer → s.calls[a]? = some outer := by
    intro i other outer hi a ha ho
    rcases calls_append ho with ho | ⟨rfl,-⟩
    · exact ho
    rcases calls_append hi with hi | ⟨-,rfl⟩
    · exact absurd ((enclosing_lt h hi _ ha).trans (lt_of_call hi)) (lt_irrefl _)
    · rcases had.1 with hn | ⟨parent,outer',hco,hp⟩
      · rw [hn] at ha
        cases ha
      · have hlt := lt_of_call hp
        rw [hco] at ha
        rcases List.mem_cons.mp ha with hp' | ha
        · omega
        · have hbe := enclosing_lt h hp _ ha
          omega
  refine ⟨?_,?_,?_,?_⟩
  · intro i other hi
    rcases calls_append hi with hi | ⟨rfl,rfl⟩
    · rcases h.chain i other hi with hn | ⟨parent,outer,hco,hp,hlt⟩
      · exact .inl hn
      · exact .inr ⟨parent,outer,hco,calls_append_old hp,hlt⟩
    · rcases had.1 with hn | ⟨parent,outer,hco,hp⟩
      · exact .inl hn
      · exact .inr ⟨parent,outer,hco,calls_append_old hp,lt_of_call hp⟩
  · intro i other owner hi hw
    rcases calls_append hi with hi' | ⟨rfl,rfl⟩
    · rw [hold hi'] at hw
      obtain ⟨hon,hra⟩ := h.waits i other owner hi' hw
      exact ⟨how _ _ hon,fun a ha outer ho => hra a ha outer (hb hi a ha ho)⟩
    · obtain ⟨hcc,hl⟩ := hwa owner ((Function.update_self ..).symm.trans hw)
      refine ⟨how _ _ (h.locks _ owner hl),fun a ha outer ho => ?_⟩
      exact (had.2 a ha outer (hb hi a ha ho)).1 hcc (by simp [hl])
  · intro question owner hl
    rcases hlo question owner hl with hl | ⟨rfl,rfl,rfl⟩
    · exact how _ _ (h.locks question owner hl)
    · exact ⟨call,by simp [t],rfl,by simp [t]⟩
  · intro i other hi a ha outer ho hr
    have ho' := hb hi a ha ho
    rcases calls_append hi with hi' | ⟨rfl,rfl⟩
    · obtain ⟨hca,ht,hnw⟩ := h.loops i other hi' a ha outer ho' hr
      refine ⟨hca,tag_append ht,?_⟩
      rw [hold hi']
      exact hnw
    · obtain ⟨hs,hca,ht⟩ := (had.2 a ha outer ho').2 hr
      refine ⟨hca,tag_append ht,.inl ?_⟩
      have hqu : other.question = outer.question := by
        rw [Request.question,List.headD_eq_head?_getD,hr.2]
        rfl
      have hf : c.usesCache other.message other.options = true →
          s.cacheLock other.question = none := by
        intro hcc
        by_contra hl
        have hra := (had.2 a ha outer ho').1 hcc hl
        rw [hqu] at hra
        exact lt_irrefl _ hra
      have hso : other.message.questions ≠ [] := by
        intro hn
        simp [Request.repeats,hn] at hr
      exact (Function.update_self ..).trans (hch hso hs hf)

def Phase.weight : Phase → ℕ
  | .waiting _ => 3
  | .checking => 2
  | .asking => 1
  | .returned _ => 0

/-- An exchange that goes on changes its phase, and unlocks its question at most. -/
structure Moved (c : Client) (s t : State) (i : ℕ) (phase : Phase) : Prop where
  lt : i < s.calls.length
  calls : t.calls = s.calls
  phases : t.phase = Function.update s.phase i phase
  weight : phase.weight < (s.phase i).weight
  free : ∀ owner, phase ≠ .waiting owner
  locks : ∀ question owner, t.cacheLock question = some owner → s.cacheLock question = some owner
  loops : s.phase i = .checking ∨ s.phase i = .returned .loopback →
    (∃ call, s.calls[i]? = some call ∧
      (c.usesCache call.message call.options && call.cached) = false ∧
      s.transportTagFromContext call = some call.server) → phase = .returned .loopback

lemma moved_finish {i : ℕ} {ending : Ending} (hlt : i < s.calls.length)
    (hw : 0 < (s.phase i).weight)
    (hlo : s.phase i = .checking → ∀ call,s.calls[i]? = some call →
      (c.usesCache call.message call.options && call.cached) = false →
      s.transportTagFromContext call = some call.server → ending = .loopback) :
    Moved c s (s.finish i ending) i (.returned ending) := by
  refine ⟨hlt,rfl,rfl,hw,by simp,fun question owner hl => ?_,?_⟩
  · rw [State.finish] at hl
    dsimp only at hl
    split_ifs at hl
    exact hl
  · rintro (hn | hn) ⟨call,hcl,hca,ht⟩
    · rw [hlo hn call hcl hca ht]
    · rw [hn] at hw
      cases hw

lemma moved_of_perform {e : Event} (he : e.goesOn) (h : s.perform c e = some t) :
    ∃ i phase,Moved c s t i phase := by
  cases e with
  | exchange => cases he
  | wake i =>
    rw [State.perform] at h
    split at h
    · rename_i owner hp
      split_ifs at h with hw
      cases h
      refine ⟨i,.checking,hw.1,rfl,rfl,?_,by simp,fun _ _ hl => hl,?_⟩
      · rw [hp]
        exact Nat.lt_succ_self 2
      · rintro (hn | hn) <;> rw [hp] at hn <;> cases hn
    · cases h
  | check i =>
    rw [State.perform] at h
    cases hca : s.calls[i]? with
    | none => simp [hca] at h
    | some call =>
      simp only [hca] at h
      split_ifs at h with hp hcc ht
      · cases h
        refine ⟨i,_,moved_finish (lt_of_call hca) (by rw [not_not.mp hp]; decide) ?_⟩
        intro _ call' hca' hno
        rw [hca] at hca'
        cases hca'
        exact absurd hcc (by simp [hno])
      · cases h
        exact ⟨i,_,moved_finish (lt_of_call hca) (by rw [not_not.mp hp]; decide)
          fun _ _ _ _ _ => rfl⟩
      · cases h
        refine ⟨i,.asking,lt_of_call hca,rfl,rfl,by rw [not_not.mp hp]; decide,by simp,
          fun _ _ hl => hl,?_⟩
        rintro - ⟨call',hca',-,ht'⟩
        rw [hca] at hca'
        cases hca'
        exact absurd ht' ht
  | answer i =>
    rw [State.perform] at h
    split_ifs at h with ha
    cases h
    refine ⟨i,_,moved_finish ha.1 (by rw [ha.2.1]; decide) fun hn => ?_⟩
    rw [ha.2.1] at hn
    cases hn

lemma Moved.inv {i : ℕ} {phase : Phase} (h : Moved c s t i phase) (hs : Inv c rank s) :
    Inv c rank t := by
  have heq : t = ⟨s.calls,Function.update s.phase i phase,t.cacheLock⟩ := by
    rw [← h.calls,← h.phases]
  rw [heq]
  exact hs.move h.free h.locks h.loops

lemma inv_perform (hs : Inv c rank s) {e : Event} (hsa : NestSafe c rank s e)
    (h : s.perform c e = some t) : Inv c rank t := by
  by_cases hg : e.goesOn
  · obtain ⟨i,phase,hmo⟩ := moved_of_perform hg h
    exact hmo.inv hs
  cases e with
  | exchange parent request =>
    cases parent with
    | none =>
      cases h
      exact hs.arrive ⟨.inl rfl,fun a ha => absurd ha List.not_mem_nil⟩
    | some parent =>
      rw [State.perform] at h
      cases hp : s.calls[parent]? with
      | none => simp [hp] at h
      | some outer =>
        simp only [hp] at h
        split_ifs at h
        cases h
        refine hs.arrive ⟨.inr ⟨parent,outer,rfl,hp⟩,fun a ha other ho => ?_⟩
        obtain ⟨hra,hr⟩ := hsa outer hp a ha other ho
        refine ⟨hra,fun h => ?_⟩
        obtain ⟨hst,hca,hse⟩ := hr h
        refine ⟨hst,hca,?_⟩
        simp only [State.transportTagFromContext,List.head?_cons,Option.bind_some,hp,
          Option.map_some]
        exact congrArg some hse
  | wake i | check i | answer i => exact absurd trivial hg

lemma inv_idle (c : Client) (rank : Question → ℕ) : Inv c rank idle :=
  ⟨by simp [idle],by simp [idle],by simp [idle],by simp [idle]⟩

def Stuck (c : Client) (s : State) : Prop := ∀ e, Event.goesOn e → s.perform c e = none

lemma Stuck.not_checking (h : Stuck c s) {i : ℕ} {call : Nested} (hca : s.calls[i]? = some call) :
    s.phase i ≠ .checking := by
  intro hp
  have hn := h (.check i) trivial
  simp only [State.perform,hca,hp] at hn
  split_ifs at hn
  exact absurd rfl ‹_›

/-- The exchange has not returned and is this one, or made for it. -/
def Within (s : State) (o i : ℕ) : Prop :=
  ∃ call, s.calls[i]? = some call ∧ (s.phase i).isReturned = false ∧ (i = o ∨ o ∈ call.enclosing)

lemma Stuck.waiting_within (h : Stuck c s) (hs : Inv c rank s) {o : ℕ} {outer : Nested}
    (ho : s.calls[o]? = some outer) (ha : s.phase o = .asking) :
    ∃ i call owner,s.calls[i]? = some call ∧ s.phase i = .waiting owner ∧ o ∈ call.enclosing := by
  have hse : Within s o o := ⟨outer,ho,by rw [ha]; rfl,.inl rfl⟩
  obtain ⟨i,⟨call,hca,hac,hw⟩,hl⟩ :=
    exists_last (fun i (hi : Within s o i) => lt_of_call hi.choose_spec.1) hse
  cases hp : s.phase i with
  | returned ending => simp [hp,Phase.isReturned] at hac
  | checking => exact absurd hp (h.not_checking hca)
  | waiting owner =>
    rcases hw with rfl | hw
    · rw [ha] at hp
      cases hp
    · exact ⟨i,call,owner,hca,hp,hw⟩
  | asking =>
    have hn := h (.answer i) trivial
    rw [State.perform] at hn
    split_ifs at hn with han
    have hci : s.childrenReturned i ≠ true := fun hal => han ⟨lt_of_call hca,hp,hal⟩
    rw [State.childrenReturned,ne_eq,List.all_eq_true,not_forall] at hci
    obtain ⟨j,hch⟩ := hci
    rw [Classical.not_imp,Bool.not_eq_true,Bool.or_eq_false_iff,bne_eq_false_iff_eq] at hch
    obtain ⟨-,hpa,hu⟩ := hch
    obtain ⟨child,hch,hh⟩ := Option.bind_eq_some_iff.mp hpa
    rcases hs.chain j child hch with hni | ⟨parent,outer',hco,ho',hlt⟩
    · simp [hni] at hh
    · rw [hco] at hh
      cases hh
      rw [hca] at ho'
      cases ho'
      have hd : Within s o j := by
        refine ⟨child,hch,hu,.inr ?_⟩
        rw [hco]
        exact hw.elim (fun h => h ▸ .head _) (.tail _)
      exact absurd (hl j hd) (Nat.not_le.mpr hlt)

lemma Stuck.not_waiting (h : Stuck c s) (hs : Inv c rank s) {i owner : ℕ} {call : Nested}
    (hca : s.calls[i]? = some call) : s.phase i ≠ .waiting owner := by
  induction hn : rank call.question using Nat.strong_induction_on generalizing i owner call with
  | _ n ih =>
    intro hp
    obtain ⟨⟨outer,hou,hqu,hf⟩,-⟩ := hs.waits i call owner hca hp
    cases ho : s.phase owner with
    | waiting other => exact hf other ho
    | checking => exact h.not_checking hou ho
    | returned ending =>
      have hno := h (.wake i) trivial
      simp [State.perform,hp,ho,Phase.isReturned,lt_of_call hca] at hno
    | asking =>
      obtain ⟨j,call',owner',hca',hp',hw⟩ := h.waiting_within hs hou ho
      have hlt := (hs.waits j call' owner' hca' hp').2 owner hw outer hou
      rw [hqu,hn] at hlt
      exact ih _ hlt hca' rfl hp'

lemma Stuck.all_returned (h : Stuck c s) (hs : Inv c rank s) {i : ℕ} (hi : i < s.calls.length) :
    (s.phase i).isReturned = true := by
  have hca : s.calls[i]? = some s.calls[i] := List.getElem?_eq_getElem hi
  cases hp : s.phase i with
  | returned ending => rfl
  | checking => exact absurd hp (h.not_checking hca)
  | waiting owner => exact absurd hp (h.not_waiting hs hca)
  | asking =>
    obtain ⟨j,call,owner,hca,hw,-⟩ := h.waiting_within hs hca hp
    exact absurd hw (h.not_waiting hs hca)

end

/-- In every run whose nested exchanges are safe, an exchange that repeats one it is made for returns
the loopback error by itself, and all exchanges return. -/
theorem nested_exchanges_return (c : Client) (rank : Question → ℕ) {s : State}
    (h : Reaches (fun s e t => s.perform c e = some t) (NestSafe c rank) idle s) :
    (∀ (i a : ℕ) (call outer : Nested), s.calls[i]? = some call → a ∈ call.enclosing →
      s.calls[a]? = some outer → call.repeats outer →
      s.phase i = .returned .loopback ∨ s.perform c (.check i) = some (s.finish i .loopback)) ∧
    Settles (fun s e => s.perform c e) Event.goesOn
      (fun t => ∀ i < t.calls.length, (t.phase i).isReturned = true) s := by
  have hin : Inv c rank s := h.invariant _ (inv_idle c rank) fun _ _ _ hs hst hsa =>
    inv_perform hs hsa hst
  constructor
  · intro i a call outer hca ha ho hre
    obtain ⟨hcc,hta,hch | hr⟩ := hin.loops i call hca a ha outer ho hre
    · refine .inr ?_
      simp [State.perform,hca,hch,hcc,hta]
    · exact .inl hr
  · refine settles_of_measure
      (fun t => ∑ j ∈ Finset.range t.calls.length, (t.phase j).weight) ?_ ?_ hin
    · intro s e t hs he ht
      obtain ⟨i,phase,hmo⟩ := moved_of_perform he ht
      refine ⟨hmo.inv hs,?_⟩
      rw [hmo.calls,hmo.phases]
      exact sum_update_lt Phase.weight s.phase hmo.lt hmo.weight
    · intro s hs hsu i hi
      exact Stuck.all_returned hsu hs hi

def addressRequest (server : Tag) (disableCache : Bool) : Request :=
  ⟨server,⟨7,[addressQuestion],true,none⟩,{ plainOptions with disableCache := disableCache },false⟩

/-- A server that asks for its own answer, without a cache. -/
theorem nested_exchanges_return_uncached : ∃ s : State, s.calls.length = 2 ∧
      Settles (fun s e => s.perform cachingClient e) Event.goesOn
        (fun t => ∀ i < t.calls.length, (t.phase i).isReturned = true) s := by
  let request := addressRequest "local" true
  let first := (idle.arrive cachingClient ⟨request,[]⟩).move 0 .asking
  have hsa : NestSafe cachingClient (fun _ => 0) first (.exchange (some 0) request) := by
    intro outer ho a _ other _
    cases ho
    refine ⟨fun h => ?_,fun _ => ⟨rfl,rfl,rfl⟩⟩
    cases h
  have hf : Reaches (fun s e t => s.perform cachingClient e = some t)
      (NestSafe cachingClient fun _ => 0) idle first :=
    .step (.step .start (e := .exchange none request) rfl trivial) (e := .check 0) rfl trivial
  have hs : Reaches (fun s e t => s.perform cachingClient e = some t)
      (NestSafe cachingClient fun _ => 0) idle (first.arrive cachingClient ⟨request,[0]⟩) :=
    .step hf (e := .exchange (some 0) request) rfl hsa
  exact ⟨_,rfl,(nested_exchanges_return cachingClient (fun _ => 0) hs).2⟩

/-- The exchange of a question that is asked again by its own server, with the cache, waits for
itself; and a loop through a second server is not found. -/
theorem nested_exchange_waits :
    (∃ s, follow (fun s e => s.perform cachingClient e) (fun _ _ => true)
        [.exchange none (addressRequest "local" false),.check 0,
          .exchange (some 0) (addressRequest "local" false)] idle = some s ∧
      s.phase 1 = .waiting 0 ∧ ∀ e, Event.goesOn e → s.perform cachingClient e = none) ∧
    ∃ s, follow (fun s e => s.perform cachingClient e) (fun _ _ => true)
        [.exchange none (addressRequest "local" true),.check 0,
          .exchange (some 0) (addressRequest "remote" true),.check 1,
          .exchange (some 1) (addressRequest "local" true),.check 2] idle = some s ∧
      s.phase 2 = .asking := by
  refine ⟨⟨_,rfl,rfl,?_⟩,_,rfl,rfl⟩
  intro e he
  cases e with
  | exchange => cases he
  | wake i =>
    match i with
    | 0 => rfl
    | 1 => rfl
    | i + 2 => rfl
  | check i =>
    match i with
    | 0 => rfl
    | 1 => rfl
    | i + 2 => rfl
  | answer i =>
    match i with
    | 0 => rfl
    | 1 => rfl
    | i + 2 =>
      rw [State.perform,if_neg]
      rintro ⟨hlt,-⟩
      have hlt : i + 2 < 2 := hlt
      omega

end SingBoxAuth.DNSExchange.Nesting
