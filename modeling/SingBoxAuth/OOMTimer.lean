import Mathlib.Data.List.Induction

/-! The adaptive timer of the OOM killer: polls and pressure notifications over the states of memory
pressure, and the actions of the polls. -/
namespace SingBoxAuth.OOMTimer

inductive PolicyMode
  | none
  | memoryLimit
  | available
  | networkExtension
  deriving DecidableEq

inductive PressureState
  | normal
  | armed
  | triggered
  deriving DecidableEq

structure MemorySample where
  usage : UInt64
  available : UInt64
  availableKnown : Bool
  deriving DecidableEq

structure PressureThresholds where
  trigger : UInt64
  armed : UInt64
  resume : UInt64

structure TimerConfig where
  memoryLimit : UInt64
  safetyMargin : UInt64
  hasSafetyMargin : Bool
  policyMode : PolicyMode
  killerDisabled : Bool

structure AdaptiveTimer where
  /-- There is a timer. -/
  started : Bool
  state : PressureState
  pendingPressureBaseline : Bool
  /-- The usage of the baseline, if it has a time. -/
  pressureBaseline : Option UInt64

inductive Event
  | notifyPressure
  /-- A poll with its sample; the growth since the baseline reaches the limit within the interval,
  if so. -/
  | poll (sample : MemorySample) (critical : Bool)

structure Act where
  resetNetwork : Bool
  onTriggered : UInt64
  deriving DecidableEq

def nextPressureState (current : PressureState)
    (shouldTrigger shouldArm shouldStayTriggered : Bool) : PressureState :=
  if current = .triggered then
    if shouldStayTriggered then .triggered else .normal
  else if shouldTrigger then .triggered
  else if shouldArm then .armed
  else .normal

def computeLimitThresholds (memoryLimit safetyMargin : UInt64) : PressureThresholds :=
  let triggerMargin := min safetyMargin memoryLimit
  let armedMargin := min (triggerMargin * 2) memoryLimit
  let resumeMargin := min (triggerMargin * 4) memoryLimit
  ⟨memoryLimit - triggerMargin,memoryLimit - armedMargin,memoryLimit - resumeMargin⟩

namespace TimerConfig

variable (c : TimerConfig)

def limitThresholds : PressureThresholds := computeLimitThresholds c.memoryLimit c.safetyMargin

def availableThresholds (sample : MemorySample) : PressureThresholds :=
  let marginMin : UInt64 := 32 * 1024 * 1024
  let triggerMargin :=
    if c.hasSafetyMargin then c.safetyMargin
    else if sample.usage = 0 then marginMin
    else max marginMin (min (sample.usage / 4) (128 * 1024 * 1024))
  ⟨triggerMargin,triggerMargin * 2,triggerMargin * 4⟩

def nextState (state : PressureState) (sample : MemorySample) : PressureState :=
  match c.policyMode with
  | .memoryLimit | .networkExtension =>
    nextPressureState state (sample.usage ≥ c.limitThresholds.trigger)
      (sample.usage ≥ c.limitThresholds.armed) (sample.usage ≥ c.limitThresholds.resume)
  | .available =>
    if sample.availableKnown then
      let thresholds := c.availableThresholds sample
      nextPressureState state (sample.available ≤ thresholds.trigger)
        (sample.available ≤ thresholds.armed) (sample.available ≤ thresholds.resume)
    else .normal
  | .none => .normal

/-- The test of the growth rate, with what is asked before it. -/
def rateTriggers (baseline : Option UInt64) (sample : MemorySample) (critical : Bool) : Bool :=
  match baseline with
  | none => false
  | some usage =>
    c.memoryLimit > 0 && sample.usage > usage && sample.usage < c.memoryLimit && critical

/-- The baseline that a poll compares with, before the state is known. -/
def baseline (t : AdaptiveTimer) (sample : MemorySample) : Option UInt64 :=
  if t.pendingPressureBaseline then some sample.usage else t.pressureBaseline

def poll (t : AdaptiveTimer) (sample : MemorySample) (critical : Bool) :
    AdaptiveTimer × Option Act :=
  if t.started then
    let state := c.nextState t.state sample
    let pressureBaseline := if state = .normal then none else baseline t sample
    let triggered := t.state ≠ .triggered && state = .triggered
    let rateTriggered := !triggered && c.rateTriggers pressureBaseline sample critical
    (⟨true,if rateTriggered then .triggered else state,false,pressureBaseline⟩,
      if triggered || rateTriggered then some ⟨!c.killerDisabled,sample.usage⟩ else none)
  else (t,none)

def notifyPressure (t : AdaptiveTimer) : AdaptiveTimer :=
  ⟨true,if t.started then t.state else .normal,true,t.pressureBaseline⟩

def perform (t : AdaptiveTimer) : Event → AdaptiveTimer × Option Act
  | .notifyPressure => (notifyPressure t,none)
  | .poll sample critical => c.poll t sample critical

def run (t : AdaptiveTimer) (events : List Event) : AdaptiveTimer :=
  events.foldl (fun t e => (c.perform t e).1) t

def Acts (t : AdaptiveTimer) (e : Event) : Prop := (c.perform t e).2 ≠ none

instance (t : AdaptiveTimer) (e : Event) : Decidable (c.Acts t e) :=
  inferInstanceAs (Decidable (_ ≠ none))

/-- The poll sees a usage below the threshold at which a triggered timer resumes. -/
def Below : Event → Prop
  | .notifyPressure => False
  | .poll sample _ => sample.usage < c.limitThresholds.resume

instance : DecidablePred c.Below
  | .notifyPressure => isFalse id
  | .poll sample _ => inferInstanceAs (Decidable (sample.usage < c.limitThresholds.resume))

def OncePerExcursion (t : AdaptiveTimer) (events : List Event) : Prop :=
  ∀ before e₁ mid e₂ after, events = before ++ e₁ :: mid ++ e₂ :: after →
    c.Acts (c.run t before) e₁ → c.Acts (c.run t (before ++ e₁ :: mid)) e₂ → ∃ e ∈ mid, c.Below e

/-- In the triggered state, a poll at or above the resume threshold finds no critical growth over a
baseline: there is none, or it is taken from this sample, or the usage is not between it and the
limit, or the rate is low. -/
def Calm (t : AdaptiveTimer) : Event → Prop
  | .notifyPressure => True
  | .poll sample critical =>
    t.state = .triggered → sample.usage ≥ c.limitThresholds.resume →
      c.rateTriggers (baseline t sample) sample critical = false

end TimerConfig

open TimerConfig

section polls

variable {c : TimerConfig} {t : AdaptiveTimer} {sample : MemorySample} {critical : Bool} {e : Event}

/-- The modes in which the usage is compared with the limit. -/
def TimerConfig.Limited (c : TimerConfig) : Prop :=
  c.policyMode = .memoryLimit ∨ c.policyMode = .networkExtension

lemma nextState_of_limited (hc : c.Limited) (state : PressureState) :
    c.nextState state sample = nextPressureState state (sample.usage ≥ c.limitThresholds.trigger)
      (sample.usage ≥ c.limitThresholds.armed) (sample.usage ≥ c.limitThresholds.resume) := by
  obtain hc | hc := hc <;> rw [nextState,hc]

lemma poll_triggered (hc : c.Limited) (hs : t.started = true) (ht : t.state = .triggered)
    (sample : MemorySample) (critical : Bool) :
    (sample.usage < c.limitThresholds.resume →
      (c.poll t sample critical).1.state = .normal ∧ (c.poll t sample critical).2 = none) ∧
    (sample.usage ≥ c.limitThresholds.resume → (c.poll t sample critical).1.state = .triggered ∧
      ((c.poll t sample critical).2 ≠ none ↔
        c.rateTriggers (baseline t sample) sample critical = true)) := by
  constructor
  · intro hlt
    have hn : c.nextState .triggered sample = .normal := by
      simp [nextState_of_limited hc,nextPressureState,hlt]
    simp [poll,hs,ht,hn,rateTriggers]
  · intro hge
    have hn : c.nextState .triggered sample = .triggered := by
      simp [nextState_of_limited hc,nextPressureState,hge]
    simp [poll,hs,ht,hn]

/-- A poll acts exactly if it ends in the triggered state, unless it began there. -/
lemma poll_not_triggered (hs : t.started = true) (ht : t.state ≠ .triggered) :
    (c.poll t sample critical).2 ≠ none ↔ (c.poll t sample critical).1.state = .triggered := by
  by_cases hn : c.nextState t.state sample = .triggered
  · simp [poll,hs,ht,hn]
  · simp [poll,hs,ht,hn]

lemma perform_started (hs : t.started = true) : (c.perform t e).1.started = true := by
  cases e with
  | notifyPressure => rfl
  | poll sample critical => simp [perform,poll,hs]

lemma run_started (hs : t.started = true) (events : List Event) :
    (c.run t events).started = true := by
  induction events generalizing t with
  | nil => exact hs
  | cons e events ih => exact ih (perform_started hs)

lemma run_append (events : List Event) (e : Event) :
    c.run t (events ++ [e]) = (c.perform (c.run t events) e).1 := by
  simp [run]

lemma triggered_of_acts (hc : c.Limited) (hs : t.started = true) (h : c.Acts t e) :
    (c.perform t e).1.state = .triggered := by
  cases e with
  | notifyPressure => exact absurd rfl h
  | poll sample critical =>
    by_cases ht : t.state = .triggered
    · obtain ⟨hlow,hhigh⟩ := poll_triggered hc hs ht sample critical
      by_cases hlt : sample.usage < c.limitThresholds.resume
      · exact absurd (hlow hlt).2 h
      · exact (hhigh (UInt64.not_lt.mp hlt)).1
    · exact (poll_not_triggered hs ht).mp h

lemma triggered_iff_not_below (hc : c.Limited) (hs : t.started = true) (ht : t.state = .triggered) :
    (c.perform t e).1.state = .triggered ↔ ¬ c.Below e := by
  cases e with
  | notifyPressure =>
    simp [perform,notifyPressure,Below,hs,ht]
  | poll sample critical =>
    obtain ⟨hlow,hhigh⟩ := poll_triggered hc hs ht sample critical
    by_cases hlt : sample.usage < c.limitThresholds.resume
    · simp [perform,Below,hlt,hlow]
    · simp [perform,Below,hlt,hhigh (UInt64.not_lt.mp hlt)]

lemma acts_iff_not_calm (hc : c.Limited) (hs : t.started = true) (ht : t.state = .triggered) :
    c.Acts t e ↔ ¬ c.Calm t e := by
  cases e with
  | notifyPressure => simp [Acts,Calm,perform]
  | poll sample critical =>
    obtain ⟨hlow,hhigh⟩ := poll_triggered hc hs ht sample critical
    by_cases hlt : sample.usage < c.limitThresholds.resume
    · simp [Acts,Calm,perform,hlow hlt,UInt64.not_le.mpr hlt]
    · have hge := UInt64.not_lt.mp hlt
      simp [Acts,Calm,perform,ht,hge,(hhigh hge).2]

lemma calm_of_not_triggered (ht : t.state ≠ .triggered) : c.Calm t e := by
  cases e with
  | notifyPressure => trivial
  | poll sample critical => exact fun h => absurd h ht

end polls

section runs

variable {c : TimerConfig} {t : AdaptiveTimer}

lemma run_triggered (hc : c.Limited) (hs : t.started = true) (ht : t.state = .triggered)
    {mid : List Event} (hm : ∀ e ∈ mid,¬ c.Below e) : (c.run t mid).state = .triggered := by
  induction mid using List.reverseRecOn with
  | nil => exact ht
  | append_singleton mid e ih =>
    obtain ⟨hm,he⟩ := List.forall_mem_append.mp hm
    rw [run_append,triggered_iff_not_below hc (run_started hs mid) (ih hm)]
    exact he e List.mem_cons_self

lemma exists_act (hc : c.Limited) (hs : t.started = true) (hn : t.state ≠ .triggered)
    {events : List Event} (ht : (c.run t events).state = .triggered) :
    ∃ before e mid,events = before ++ e :: mid ∧ c.Acts (c.run t before) e ∧
      ∀ e ∈ mid,¬ c.Below e := by
  induction events using List.reverseRecOn with
  | nil => exact absurd ht hn
  | append_singleton events e ih =>
    have hr := run_started (c := c) hs events
    rw [run_append] at ht
    by_cases hb : (c.run t events).state = .triggered
    · obtain ⟨before,e₁,mid,rfl,ha,hm⟩ := ih hb
      refine ⟨before,e₁,mid ++ [e],by simp,ha,List.forall_mem_append.mpr ⟨hm,?_⟩⟩
      intro e' he'
      rw [List.mem_singleton.mp he']
      exact (triggered_iff_not_below hc hr hb).mp ht
    · refine ⟨events,e,[],rfl,?_,nofun⟩
      cases e with
      | notifyPressure =>
        simp only [perform,notifyPressure,hr,if_true] at ht
        exact absurd ht hb
      | poll sample critical => exact (poll_not_triggered hr hb).mpr ht

/-- For every sequence of polls and notifications on a started timer that is not triggered: the
timer acts once in an excursion exactly if every poll of it is calm. -/
theorem oncePerExcursion_iff (c : TimerConfig) (hc : c.Limited) (t : AdaptiveTimer)
    (hs : t.started = true) (hn : t.state ≠ .triggered) (events : List Event) :
    c.OncePerExcursion t events ↔
      ∀ before e after, events = before ++ e :: after → c.Calm (c.run t before) e := by
  constructor
  · intro h before e after he
    by_cases ht : (c.run t before).state = .triggered
    · by_contra hcalm
      obtain ⟨b,e₁,mid,rfl,ha,hm⟩ := exists_act hc hs hn ht
      have ha' := (acts_iff_not_calm hc (run_started hs _) ht).mpr hcalm
      obtain ⟨e',he',hb⟩ := h b e₁ mid e after he ha ha'
      exact hm e' he' hb
    · exact calm_of_not_triggered ht
  · intro h before e₁ mid e₂ after he h1 h2
    by_contra hm
    have hr := run_started (c := c) hs before
    have hsplit : c.run t (before ++ e₁ :: mid) = c.run (c.perform (c.run t before) e₁).1 mid := by
      simp [run]
    have ht : (c.run t (before ++ e₁ :: mid)).state = .triggered := by
      rw [hsplit]
      refine run_triggered hc (perform_started hr) (triggered_of_acts hc hr h1) ?_
      intro e hme hb
      exact hm ⟨e,hme,hb⟩
    exact (acts_iff_not_calm hc (run_started hs _) ht).mp h2 (h _ e₂ after he)

/-- A limit of 1000 with a margin of 100: the timer triggers at 900 and resumes below 600. -/
def smallConfig : TimerConfig := ⟨1000,100,true,.memoryLimit,false⟩

def startedTimer : AdaptiveTimer := ⟨true,.normal,false,none⟩

def pollAt (usage : UInt64) (critical : Bool) : Event := .poll ⟨usage,0,false⟩ critical

lemma calm_cons {e : Event} {events : List Event} (he : c.Calm t e)
    (h : ∀ before e' after,events = before ++ e' :: after →
      c.Calm (c.run (c.perform t e).1 before) e') :
    ∀ before e' after,e :: events = before ++ e' :: after → c.Calm (c.run t before) e' := by
  intro before e' after hs
  cases before with
  | nil =>
    cases hs
    exact he
  | cons b before =>
    obtain ⟨rfl,hs'⟩ := List.cons_eq_cons.mp hs
    exact h before e' after hs'

/-- The timer acts, resumes, and acts again. -/
theorem oncePerExcursion_twice :
    smallConfig.OncePerExcursion startedTimer [pollAt 900 true,pollAt 500 true,pollAt 900 true] := by
  refine (oncePerExcursion_iff smallConfig (.inl rfl) startedTimer rfl nofun _).mpr ?_
  refine calm_cons ?_ (calm_cons ?_ (calm_cons ?_ (by simp)))
  · exact nofun
  · intro _ h
    exact absurd h (by decide)
  · intro h
    exact absurd h (by decide)

/-- The growth over a baseline that was set in the triggered state triggers once more. -/
theorem acts_again_while_triggered :
    ¬ smallConfig.OncePerExcursion startedTimer
      [pollAt 900 false,.notifyPressure,pollAt 910 false,pollAt 950 true] := by
  intro h
  obtain ⟨e,he,hb⟩ := h [] (pollAt 900 false) [.notifyPressure,pollAt 910 false]
    (pollAt 950 true) [] rfl (by decide) (by decide)
  obtain rfl | he := List.mem_cons.mp he
  · exact hb
  · rw [List.mem_singleton.mp he] at hb
    exact absurd hb (by decide)

end runs
end SingBoxAuth.OOMTimer
