import SingBoxAuth.PackedSets

/-! Match states of routing rules. While a rule is evaluated, a state records which of its four
item groups have a matching item; since a rule-set can match in several ways at once, evaluation
carries a set of such states, packed into sixteen bits. -/
namespace SingBoxAuth.RouteRule
open PackedSet

/-- The item groups that are alternatives: one matching item of a group is enough. -/
inductive RuleGroup
  | sourceAddress
  | sourcePort
  | destinationAddress
  | destinationPort
  deriving DecidableEq, Repr

/-- The groups matched so far, one bit each. Of the byte only these four bits are ever set. -/
abbrev RuleMatchState := BitVec 4

/-- The constants `ruleMatchSourceAddress` to `ruleMatchDestinationPort`. -/
def RuleGroup.bit : RuleGroup → RuleMatchState
  | .sourceAddress => 1#4
  | .sourcePort => 2#4
  | .destinationAddress => 4#4
  | .destinationPort => 8#4

def has (s : RuleMatchState) (target : RuleGroup) : Bool :=
  s &&& target.bit != 0#4

@[simp]
lemma has_zero (g : RuleGroup) : has 0#4 g = false := by cases g <;> rfl

@[simp]
lemma has_or (s t : RuleMatchState) (g : RuleGroup) : has (s ||| t) g = (has s g || has t g) := by
  revert s t
  cases g <;> decide +kernel

@[simp]
lemma has_bit (g h : RuleGroup) : has g.bit h = decide (h = g) := by cases g <;> cases h <;> rfl

lemma state_ext {s t : RuleMatchState} (h : ∀ g,has s g = has t g) : s = t := by
  have hb : ∀ s t : RuleMatchState,has s .sourceAddress = has t .sourceAddress →
      has s .sourcePort = has t .sourcePort →
      has s .destinationAddress = has t .destinationAddress →
      has s .destinationPort = has t .destinationPort → s = t := by
    decide +kernel
  exact hb s t (h _) (h _) (h _) (h _)

/-- Sets of states; a state is in the set when its bit of the mask is set. -/
abbrev RuleMatchStateSet := PackedSet 4

def singleRuleMatchState (state : RuleMatchState) : RuleMatchStateSet :=
  single state

def emptyRuleMatchState : RuleMatchStateSet :=
  singleRuleMatchState 0#4

namespace RuleMatchStateSet

def isEmpty (s : RuleMatchStateSet) : Bool :=
  s == PackedSet.empty

def merge (s other : RuleMatchStateSet) : RuleMatchStateSet :=
  s ||| other

def combine (s other : RuleMatchStateSet) : RuleMatchStateSet :=
  if isEmpty s || isEmpty other then PackedSet.empty
  else
    (words 4).foldl (fun combined left =>
      if contains s left then
        (words 4).foldl (fun combined right =>
          if contains other right then add combined (left ||| right) else combined) combined
      else combined) PackedSet.empty

def withBase (s : RuleMatchStateSet) (base : RuleMatchState) : RuleMatchStateSet :=
  if isEmpty s then PackedSet.empty
  else
    (words 4).foldl (fun withBase state =>
      if contains s state then add withBase (state ||| base) else withBase) PackedSet.empty

def filter (s : RuleMatchStateSet) (allowed : RuleMatchState → Bool) : RuleMatchStateSet :=
  (words 4).foldl (fun filtered state =>
    if contains s state then
      if allowed state then add filtered state else filtered
    else filtered) PackedSet.empty

lemma isEmpty_eq_true_iff (s : RuleMatchStateSet) :
    isEmpty s = true ↔ ∀ x,contains s x = false := by
  have hne := PackedSet.ne_empty_iff s
  rw [isEmpty,beq_iff_eq]
  constructor
  · intro h x
    simp [h]
  · intro h
    by_contra hs
    obtain ⟨x,hx⟩ := hne.mp hs
    simp [h x] at hx

lemma isEmpty_eq_false_iff (s : RuleMatchStateSet) :
    isEmpty s = false ↔ ∃ x,contains s x = true := by
  rw [← PackedSet.ne_empty_iff,isEmpty,beq_eq_false_iff_ne]

@[simp]
lemma isEmpty_empty : isEmpty PackedSet.empty = true := rfl

@[simp]
lemma contains_merge (s t : RuleMatchStateSet) (x : RuleMatchState) :
    contains (merge s t) x = (contains s x || contains t x) :=
  contains_or s t x

@[simp]
lemma contains_singleRuleMatchState (s x : RuleMatchState) :
    contains (singleRuleMatchState s) x = decide (x = s) :=
  contains_single s x

lemma contains_combine (s t : RuleMatchStateSet) (x : RuleMatchState) :
    contains (combine s t) x = true ↔
      ∃ left right,contains s left = true ∧ contains t right = true ∧ x = left ||| right := by
  rw [combine]
  split
  · rename_i he
    rw [Bool.or_eq_true,isEmpty_eq_true_iff,isEmpty_eq_true_iff] at he
    constructor
    · intro h
      simp at h
    · rintro ⟨left,right,hl,hr,-⟩
      rcases he with hs | ht
      · simp [hs left] at hl
      · simp [ht right] at hr
  · rw [contains_foldl _ (fun left y => contains s left = true ∧
      ∃ right ∈ words 4,contains t right = true ∧ y = left ||| right)]
    · simp only [contains_empty,Bool.false_eq_true,false_or,mem_words,true_and]
      constructor
      · rintro ⟨left,hl,right,hr,rfl⟩
        exact ⟨left,right,hl,hr,rfl⟩
      · rintro ⟨left,right,hl,hr,rfl⟩
        exact ⟨left,hl,right,hr,rfl⟩
    · intro acc left y
      by_cases hl : contains s left = true
      · rw [if_pos hl,contains_foldl _ (fun right z => contains t right = true ∧
          z = left ||| right)]
        · simp [hl]
        · intro acc right z
          by_cases hr : contains t right = true <;> simp [hr]
      · simp [hl]

lemma contains_filter (s : RuleMatchStateSet) (allowed : RuleMatchState → Bool)
    (x : RuleMatchState) :
    contains (filter s allowed) x = true ↔ contains s x = true ∧ allowed x = true := by
  rw [filter,contains_foldl _ (fun state y => contains s state = true ∧ allowed state = true ∧
    y = state)]
  · simp only [contains_empty,Bool.false_eq_true,false_or,mem_words,true_and]
    constructor
    · rintro ⟨state,hs,ha,rfl⟩
      exact ⟨hs,ha⟩
    · rintro ⟨hs,ha⟩
      exact ⟨x,hs,ha,rfl⟩
  · intro acc state y
    by_cases hs : contains s state = true
    · by_cases ha : allowed state = true <;> simp [hs,ha]
    · simp [hs]

lemma contains_withBase (s : RuleMatchStateSet) (base x : RuleMatchState) :
    contains (withBase s base) x = true ↔ ∃ state,contains s state = true ∧ x = state ||| base := by
  rw [withBase]
  split
  · rename_i he
    rw [isEmpty_eq_true_iff] at he
    constructor
    · intro h
      simp at h
    · rintro ⟨state,hs,-⟩
      simp [he state] at hs
  · rw [contains_foldl _ (fun state y => contains s state = true ∧ y = state ||| base)]
    · simp [mem_words]
    · intro acc state y
      by_cases hs : contains s state = true <;> simp [hs]

/-- What a rule returns when it matches without narrowing the states it was given. -/
@[simp]
lemma emptyRuleMatchState_withBase (base : RuleMatchState) :
    withBase emptyRuleMatchState base = singleRuleMatchState base := by
  apply ext_contains_iff
  intro x
  rw [contains_withBase]
  simp [emptyRuleMatchState]

@[simp]
lemma isEmpty_singleRuleMatchState (s : RuleMatchState) :
    isEmpty (singleRuleMatchState s) = false := by
  rw [isEmpty_eq_false_iff]
  exact ⟨s,by simp⟩

end RuleMatchStateSet

end SingBoxAuth.RouteRule
