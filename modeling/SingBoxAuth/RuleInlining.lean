import SingBoxAuth.RuleEvaluation
import SingBoxAuth.RuleItems

/-! Including a rule-set is inlining one of its branches. Where the sets are made of plain default
rules, an outer rule matches exactly when the items of one branch, added to its own group by group,
make it match; items of two branches are never mixed. -/
namespace SingBoxAuth.RouteRule
open PackedSet RuleMatchStateSet

variable {F A I J R : Type} [RuleItem I F A] [RuleItem J F A] [RuleStateMatcher R F A]

namespace AbstractDefaultRule

/-- The `ip_cidr` items of a group: they stand with the destination addresses, or with the source
addresses where they are to match the source. -/
def groupIPCIDRItems (r : AbstractDefaultRule I J R) (matchSource : Bool) : RuleGroup → List J
  | .sourceAddress => if matchSource then r.destinationIPCIDRItems else []
  | .destinationAddress => if matchSource then [] else r.destinationIPCIDRItems
  | _ => []

def groupTests (r : AbstractDefaultRule I J R) (metadata : InboundContext F A)
    (g : RuleGroup) : List Bool :=
  (r.groupItems g).map (fun it => RuleItem.Match it metadata.seen) ++
    (r.groupIPCIDRItems metadata.ipCIDRMatchSource g).map
      (fun it => RuleItem.Match it metadata.seen)

lemma ipCIDRCounts_eq (r : AbstractDefaultRule I J R) {metadata : InboundContext F A}
    (h : metadata.ignoreDestinationIPCIDRMatch = false) (g : RuleGroup) :
    r.ipCIDRCounts metadata g = !(r.groupIPCIDRItems metadata.ipCIDRMatchSource g).isEmpty := by
  cases hs : metadata.ipCIDRMatchSource <;> cases g <;>
    simp [ipCIDRCounts,groupIPCIDRItems,destinationIPCIDRMatchesSource,
      destinationIPCIDRMatchesDestination,h,hs]

lemma groupIPCIDRItems_of_ne_nil (r : AbstractDefaultRule I J R) (matchSource : Bool)
    (g : RuleGroup) (h : r.groupIPCIDRItems matchSource g ≠ []) :
    r.groupIPCIDRItems matchSource g = r.destinationIPCIDRItems := by
  cases matchSource <;> cases g <;> simp_all [groupIPCIDRItems]

lemma requiresGroup_iff (r : AbstractDefaultRule I J R) {metadata : InboundContext F A}
    (h : metadata.ignoreDestinationIPCIDRMatch = false) (g : RuleGroup) :
    r.requiresGroup metadata g = true ↔ r.groupTests metadata g ≠ [] := by
  rw [requiresGroup,r.ipCIDRCounts_eq h,groupTests]
  cases hi : r.groupItems g with
  | nil => simp
  | cons it rest => simp

lemma groupMatches_iff (r : AbstractDefaultRule I J R) {metadata : InboundContext F A}
    (h : metadata.ignoreDestinationIPCIDRMatch = false) (g : RuleGroup) :
    r.groupMatches metadata g = true ↔ true ∈ r.groupTests metadata g := by
  rw [groupMatches,r.ipCIDRCounts_eq h,groupTests,Bool.or_eq_true,Bool.and_eq_true,
    List.mem_append,matchAnyItem_iff,matchAnyItem_iff]
  have hk : (∃ it ∈ r.groupItems g,RuleItem.Match it metadata.seen = true) ↔
      true ∈ (r.groupItems g).map (fun it => RuleItem.Match it metadata.seen) := by
    simp [List.mem_map]
  rw [hk]
  apply or_congr Iff.rfl
  by_cases hip : r.groupIPCIDRItems metadata.ipCIDRMatchSource g = []
  · simp [hip]
  · have ha := r.groupIPCIDRItems_of_ne_nil _ g hip
    rw [ha] at hip ⊢
    simp [hip,List.mem_map]

/-- The outer rule matches with one branch inlined: the items outside the groups all match, and in
each group where either has items, one of the items of both matches. -/
def InlinedMatch {R' : Type} (r : AbstractDefaultRule I J R) (metadata : InboundContext F A)
    (branch : AbstractDefaultRule I J R') (branchMetadata : InboundContext F A) : Prop :=
  (∀ it ∈ r.items, RuleItem.Match it metadata.seen = true) ∧
    (∀ it ∈ branch.items, RuleItem.Match it branchMetadata.seen = true) ∧
    ∀ g, r.groupTests metadata g ++ branch.groupTests branchMetadata g ≠ [] →
      true ∈ r.groupTests metadata g ++ branch.groupTests branchMetadata g

end AbstractDefaultRule

lemma contains_branch (branch : AbstractDefaultRule I J Empty) (metadata : InboundContext F A)
    (hi : branch.invert = false) (hit : branch.itemless = false)
    (base x : RuleMatchState) :
    contains (HeadlessRule.matchStatesWithBase (.default branch) metadata base) x = true ↔
      (∀ it ∈ branch.items,RuleItem.Match it metadata.seen = true) ∧
        x = base ||| branch.groupBits metadata ∧
        ∀ g,branch.requiresGroup metadata g = true → has x g = true := by
  have hl : HeadlessRule.matchStatesWithBase (.default branch) metadata base =
      branch.coreStates metadata base := by
    rw [HeadlessRule.matchStatesWithBase,RuleTree.matchStatesWithBase,
      branch.matchStatesWithBase_eq,hit,hi]
    rfl
  rw [hl,HeadlessRule.contains_coreStates]

lemma match_iff_branch (r : DefaultRule I J) (item : RuleSetItem I J)
    (hset : r.ruleSetItem = some item) (hi : r.invert = false)
    (metadata : InboundContext F A) :
    r.Match metadata = true ↔ (∀ it ∈ r.items,RuleItem.Match it metadata.seen = true) ∧
        ∃ ruleSet ∈ item.setList,∃ rule ∈ ruleSet,∃ x,
          contains (HeadlessRule.matchStatesWithBase rule (item.nestedMetadata metadata)
            (r.groupBits metadata)) x = true ∧
          ∀ g,r.requiresGroup metadata g = true → has x g = true := by
  have hit : r.itemless = false := by simp [AbstractDefaultRule.itemless,hset]
  have hco : r.matchStates metadata = r.coreStates metadata 0#4 := by
    rw [AbstractDefaultRule.matchStates,r.matchStatesWithBase_eq,hit,hi]
    rfl
  have hs : ∀ state x,contains (r.ruleSetStates metadata state) x = true ↔
      ∃ ruleSet ∈ item.setList,∃ rule ∈ ruleSet,contains (HeadlessRule.matchStatesWithBase rule
        (item.nestedMetadata metadata) state) x = true := by
    intro state x
    have hn : item.nestedMetadata metadata.seen = item.nestedMetadata metadata := rfl
    rw [← hn,← RuleSetItem.contains_matchStatesWithBase]
    simp [AbstractDefaultRule.ruleSetStates,AbstractDefaultRule.matchRuleSet,hset,
      RuleStateMatcher.matchStatesWithBase]
  rw [AbstractDefaultRule.Match,hco,Bool.not_eq_true',isEmpty_eq_false_iff]
  simp only [AbstractDefaultRule.contains_coreStates,hs,BitVec.zero_or]
  constructor
  · rintro ⟨x,ha,⟨ruleSet,hru,rule,hrl,hx⟩,hr⟩
    exact ⟨ha,ruleSet,hru,rule,hrl,x,hx,hr⟩
  · rintro ⟨ha,ruleSet,hru,rule,hrl,x,hx,hr⟩
    exact ⟨x,ha,⟨ruleSet,hru,rule,hrl,hx⟩,hr⟩

lemma requires_both_iff {R' : Type} [RuleStateMatcher R' F A] (r : AbstractDefaultRule I J R)
    (branch : AbstractDefaultRule I J R') (metadata nested : InboundContext F A)
    (h : metadata.ignoreDestinationIPCIDRMatch = false)
    (hns : nested.ignoreDestinationIPCIDRMatch = false) :
    ((∀ g,branch.requiresGroup nested g = true →
        has (r.groupBits metadata ||| branch.groupBits nested) g = true) ∧
      ∀ g,r.requiresGroup metadata g = true →
        has (r.groupBits metadata ||| branch.groupBits nested) g = true) ↔
      ∀ g,r.groupTests metadata g ++ branch.groupTests nested g ≠ [] →
        true ∈ r.groupTests metadata g ++ branch.groupTests nested g := by
  have hbi : ∀ g,has (r.groupBits metadata ||| branch.groupBits nested) g = true ↔
      true ∈ r.groupTests metadata g ++ branch.groupTests nested g := by
    intro g
    rw [has_or,Bool.or_eq_true,AbstractDefaultRule.has_groupBits,
      AbstractDefaultRule.has_groupBits,r.groupMatches_iff h,branch.groupMatches_iff hns,
      List.mem_append]
  rw [← forall_and]
  apply forall_congr'
  intro g
  rw [hbi,r.requiresGroup_iff h,branch.requiresGroup_iff hns,ne_eq,ne_eq,ne_eq,
    List.append_eq_nil_iff]
  constructor
  · rintro ⟨hbr,hr⟩ hs
    by_cases he : branch.groupTests nested g = []
    · exact hr fun hn => hs ⟨hn,he⟩
    · exact hbr he
  · intro hb
    exact ⟨fun hne => hb fun hn => hne hn.2,fun hne => hb fun hn => hne hn.1⟩

/-- Including rule-sets equals inlining one branch. `sets` are the listed sets, each made of plain
default rules with at least one item; their `ip_cidr` items are tested on metadata that carry the
item's two options, and with `rule_set_ip_cidr_match_source` that is a test of the source. -/
theorem ruleSet_inlines_branch (r : DefaultRule I J)
    (sets : List (List (AbstractDefaultRule I J Empty))) (matchSource acceptEmpty : Bool)
    (hset : r.ruleSetItem = some ⟨sets.map (List.map RuleTree.default),matchSource,acceptEmpty⟩)
    (hinvert : r.invert = false)
    (hbranches : ∀ set ∈ sets, ∀ branch ∈ set, branch.invert = false ∧ branch.itemless = false)
    (metadata : InboundContext F A) (h : metadata.ignoreDestinationIPCIDRMatch = false) :
    (r.Match metadata = true ↔ ∃ set ∈ sets, ∃ branch ∈ set,
        r.InlinedMatch metadata branch (metadata.forRuleSet matchSource acceptEmpty)) ∧
      (matchSource = true → ∀ ipSet, IPCIDRItem.Match ⟨ipSet,false⟩
        (metadata.forRuleSet matchSource acceptEmpty).seen = metadata.flow.source.any ipSet) := by
  have hs : matchSource = true → ∀ ipSet, IPCIDRItem.Match ⟨ipSet,false⟩
      (metadata.forRuleSet matchSource acceptEmpty).seen = metadata.flow.source.any ipSet := by
    rintro rfl ipSet
    rfl
  refine ⟨?_,hs⟩
  rw [match_iff_branch r _ hset hinvert metadata]
  constructor
  · rintro ⟨ha,ruleSet,hru,rule,hrl,x,hx,hr⟩
    obtain ⟨set,hme,rfl⟩ := List.mem_map.mp hru
    obtain ⟨branch,hbr,rfl⟩ := List.mem_map.mp hrl
    obtain ⟨hp,hi⟩ := hbranches set hme branch hbr
    rw [contains_branch branch _ hp hi] at hx
    obtain ⟨hba,rfl,hb⟩ := hx
    have hg := (requires_both_iff r branch metadata
      (metadata.forRuleSet matchSource acceptEmpty) h h).mp ⟨hb,hr⟩
    exact ⟨set,hme,branch,hbr,ha,hba,hg⟩
  · rintro ⟨set,hme,branch,hbr,ha,hba,hg⟩
    obtain ⟨hp,hi⟩ := hbranches set hme branch hbr
    obtain ⟨hb,hr⟩ := (requires_both_iff r branch metadata
      (metadata.forRuleSet matchSource acceptEmpty) h h).mpr hg
    refine ⟨ha,set.map RuleTree.default,List.mem_map_of_mem hme,.default branch,
      List.mem_map_of_mem hbr,_,?_,hr⟩
    rw [contains_branch branch _ hp hi]
    exact ⟨hba,rfl,hb⟩

def lanBranch : AbstractDefaultRule (FlowItem ℕ ℕ) (AddressItem ℕ) Empty where
  items := []
  sourceAddressItems := []
  sourcePortItems := []
  destinationAddressItems := []
  destinationIPCIDRItems := [.ipCIDR fun address => address < 10]
  destinationPortItems := [⟨fun flow => flow.facts == 53⟩]
  ruleSetItem := none
  invert := false

/-- A rule for one host that includes the branch, its subnet to be matched with the source. -/
def lanRule : DefaultRule (FlowItem ℕ ℕ) (AddressItem ℕ) where
  items := []
  sourceAddressItems := [⟨fun flow => flow.source == some 100⟩]
  sourcePortItems := []
  destinationAddressItems := []
  destinationIPCIDRItems := []
  destinationPortItems := []
  ruleSetItem := some ⟨[[.default lanBranch]],true,false⟩
  invert := false

def lanQuery : InboundContext ℕ ℕ :=
  .fresh ⟨53,some 5,none,[]⟩

theorem ruleSet_inlines_lan_branch : lanRule.Match lanQuery = true ∧
      ∃ set ∈ [[lanBranch]], ∃ branch ∈ set,
        lanRule.InlinedMatch lanQuery branch (lanQuery.forRuleSet true false) := by
  have hb : ∀ set ∈ [[lanBranch]], ∀ branch ∈ set,
      branch.invert = false ∧ branch.itemless = false := by
    intro set hset branch hbr
    obtain rfl := List.mem_singleton.mp hset
    obtain rfl := List.mem_singleton.mp hbr
    exact ⟨rfl,rfl⟩
  have hma : lanRule.Match lanQuery = true := by decide +kernel
  have hi := (ruleSet_inlines_branch lanRule [[lanBranch]] true false rfl rfl hb lanQuery rfl).1
  exact ⟨hma,hi.mp hma⟩

end SingBoxAuth.RouteRule
