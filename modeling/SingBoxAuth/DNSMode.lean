import SingBoxAuth.Transitions

/-! The DNS mode and rule-set updates. Whether the router runs in legacy mode is decided once, from
the DNS rules and the metadata of the rule-sets they name; later an update of a rule-set is
validated against that mode and stored by another step of its own goroutine. -/
namespace SingBoxAuth.DNSMode
open Transitions

abbrev Tag := String

structure RuleSetMetadata where
  containsIPCIDRRule : Bool
  containsDNSQueryTypeRule : Bool
  deriving DecidableEq

/-- The action of a DNS rule; the flag says whether it sets a domain strategy. -/
inductive DNSRuleAction
  | route (strategy : Bool)
  | evaluate (strategy : Bool)
  | routeOptions (strategy : Bool)
  | respond
  | other
  deriving DecidableEq

structure DefaultDNSRule where
  ipCIDR : List String
  ipIsPrivate : Bool
  ipAcceptAny : Bool
  ruleSet : List Tag
  ruleSetIPCIDRMatchSource : Bool
  ruleSetIPCIDRAcceptEmpty : Bool
  matchResponse : Bool
  responseRcode : Option ℕ
  responseAnswer : List String
  responseNs : List String
  responseExtra : List String
  ipVersion : ℕ
  queryType : List ℕ
  action : DNSRuleAction

inductive DNSRule
  | default (options : DefaultDNSRule)
  | logical (rules : List DNSRule) (action : DNSRuleAction)

inductive ModeError
  | ruleSetNotFound (tag : Tag)
  | dnsRule (index : ℕ) (cause : ModeError)
  | subRule (index : ℕ) (cause : ModeError)
  | legacyDNSRuleStrategy
  | legacyDNSAddressFilter
  | requireMatchResponse
  | ipAcceptAny
  | ruleSetIPCIDRAcceptEmpty
  | requirePriorEvaluate (index : ℕ)

def dnsRuleActionHasStrategy : DNSRuleAction → Bool
  | .route strategy => strategy
  | .evaluate strategy => strategy
  | .routeOptions strategy => strategy
  | .respond => false
  | .other => false

def DNSRuleAction.isEvaluate : DNSRuleAction → Bool
  | .evaluate _ => true
  | _ => false

def DNSRuleAction.isRespond : DNSRuleAction → Bool
  | .respond => true
  | _ => false

def defaultRuleNeedsLegacyDNSModeFromAddressFilter (rule : DefaultDNSRule) : Bool :=
  if rule.ipAcceptAny || rule.ruleSetIPCIDRAcceptEmpty then true
  else !rule.matchResponse && (!rule.ipCIDR.isEmpty || rule.ipIsPrivate)

def hasResponseMatchFields (rule : DefaultDNSRule) : Bool :=
  rule.responseRcode.isSome || !rule.responseAnswer.isEmpty || !rule.responseNs.isEmpty ||
    !rule.responseExtra.isEmpty

def defaultRuleDisablesLegacyDNSMode (rule : DefaultDNSRule) : Bool :=
  rule.matchResponse || hasResponseMatchFields rule || rule.action.isEvaluate ||
    rule.action.isRespond || decide (rule.ipVersion > 0) || !rule.queryType.isEmpty

structure DNSRuleModeFlags where
  disabled : Bool
  needed : Bool
  neededFromStrategy : Bool
  deriving DecidableEq

def DNSRuleModeFlags.merge (f other : DNSRuleModeFlags) : DNSRuleModeFlags :=
  ⟨f.disabled || other.disabled,f.needed || other.needed,
    f.neededFromStrategy || other.neededFromStrategy⟩

abbrev RuleSets := Tag → Option RuleSetMetadata

def lookupDNSRuleSetMetadata (router : RuleSets) (overrides : Option (Tag × RuleSetMetadata))
    (tag : Tag) : Except ModeError RuleSetMetadata :=
  match overrides.filter (fun o => o.1 == tag) with
  | some o => .ok o.2
  | none =>
    match router tag with
    | some metadata => .ok metadata
    | none => .error (.ruleSetNotFound tag)

def dnsRuleModeRequirementsInTags
    (lookup : Tag → Except ModeError RuleSetMetadata) (matchSource : Bool) :
    List Tag → DNSRuleModeFlags → Except ModeError DNSRuleModeFlags
  | [], flags => .ok flags
  | tag :: rest, flags =>
    match lookup tag with
    | .error err => .error err
    | .ok metadata =>
      dnsRuleModeRequirementsInTags lookup matchSource rest
        { flags with
          disabled := flags.disabled || metadata.containsDNSQueryTypeRule
          needed := if !matchSource && metadata.containsIPCIDRRule then true else flags.needed }

def dnsRuleModeRequirementsInDefaultRule (lookup : Tag → Except ModeError RuleSetMetadata)
    (rule : DefaultDNSRule) : Except ModeError DNSRuleModeFlags :=
  dnsRuleModeRequirementsInTags lookup rule.ruleSetIPCIDRMatchSource rule.ruleSet
    { disabled := defaultRuleDisablesLegacyDNSMode rule
      needed := defaultRuleNeedsLegacyDNSModeFromAddressFilter rule ||
        dnsRuleActionHasStrategy rule.action
      neededFromStrategy := dnsRuleActionHasStrategy rule.action }

mutual

def dnsRuleModeRequirementsInRule (lookup : Tag → Except ModeError RuleSetMetadata) :
    DNSRule → Except ModeError DNSRuleModeFlags
  | .default options => dnsRuleModeRequirementsInDefaultRule lookup options
  | .logical rules action =>
    dnsRuleModeRequirementsInRules lookup .subRule rules 0
      { disabled := action.isEvaluate || action.isRespond
        needed := dnsRuleActionHasStrategy action
        neededFromStrategy := dnsRuleActionHasStrategy action }

/-- The loops over sub-rules and over the whole list, which differ in how they name an error. -/
def dnsRuleModeRequirementsInRules (lookup : Tag → Except ModeError RuleSetMetadata)
    (cause : ℕ → ModeError → ModeError) :
    List DNSRule → ℕ → DNSRuleModeFlags → Except ModeError DNSRuleModeFlags
  | [], _, flags => .ok flags
  | rule :: rest, i, flags =>
    match dnsRuleModeRequirementsInRule lookup rule with
    | .error err => .error (cause i err)
    | .ok ruleFlags =>
      dnsRuleModeRequirementsInRules lookup cause rest (i + 1) (flags.merge ruleFlags)

end

def dnsRuleModeRequirements (router : RuleSets) (rules : List DNSRule)
    (overrides : Option (Tag × RuleSetMetadata)) : Except ModeError DNSRuleModeFlags :=
  dnsRuleModeRequirementsInRules (lookupDNSRuleSetMetadata router overrides) .dnsRule rules 0
    ⟨false,false,false⟩

def resolveLegacyDNSMode (router : RuleSets) (rules : List DNSRule)
    (overrides : Option (Tag × RuleSetMetadata)) :
    Except ModeError (Bool × DNSRuleModeFlags) :=
  match dnsRuleModeRequirements router rules overrides with
  | .error err => .error err
  | .ok flags =>
    if flags.disabled && flags.neededFromStrategy then .error .legacyDNSRuleStrategy
    else if flags.disabled then .ok (false,flags)
    else .ok (flags.needed,flags)

def validateLegacyDNSModeDisabledDefaultRule (rule : DefaultDNSRule) : Except ModeError Bool :=
  if (hasResponseMatchFields rule || !rule.ipCIDR.isEmpty || rule.ipIsPrivate) &&
      !rule.matchResponse then .error .requireMatchResponse
  else if rule.ipAcceptAny then .error .ipAcceptAny
  else if rule.ruleSetIPCIDRAcceptEmpty then .error .ruleSetIPCIDRAcceptEmpty
  else .ok (rule.matchResponse || rule.action.isRespond)

mutual

def validateLegacyDNSModeDisabledRuleTree : DNSRule → Except ModeError Bool
  | .default options => validateLegacyDNSModeDisabledDefaultRule options
  | .logical rules action => validateLegacyDNSModeDisabledSubRules rules 0 action.isRespond

def validateLegacyDNSModeDisabledSubRules : List DNSRule → ℕ → Bool → Except ModeError Bool
  | [], _, requiresPriorEvaluate => .ok requiresPriorEvaluate
  | rule :: rest, i, requiresPriorEvaluate =>
    match validateLegacyDNSModeDisabledRuleTree rule with
    | .error err => .error (.subRule i err)
    | .ok requires =>
      validateLegacyDNSModeDisabledSubRules rest (i + 1) (requiresPriorEvaluate || requires)

end

def DNSRule.action : DNSRule → DNSRuleAction
  | .default options => options.action
  | .logical _ action => action

def validateLegacyDNSModeDisabledRulesFrom : List DNSRule → ℕ → Bool → Except ModeError Unit
  | [], _, _ => .ok ()
  | rule :: rest, i, seenEvaluate =>
    match validateLegacyDNSModeDisabledRuleTree rule with
    | .error err => .error (.dnsRule i err)
    | .ok requiresPriorEvaluate =>
      if requiresPriorEvaluate && !seenEvaluate then .error (.requirePriorEvaluate i)
      else validateLegacyDNSModeDisabledRulesFrom rest (i + 1)
        (seenEvaluate || rule.action.isEvaluate)

def validateLegacyDNSModeDisabledRules (rules : List DNSRule) : Except ModeError Unit :=
  validateLegacyDNSModeDisabledRulesFrom rules 0 false

structure Router where
  rawRules : List DNSRule
  started : Bool
  legacyDNSMode : Bool
  closing : Bool

def Router.validateRuleSetMetadataUpdate (r : Router) (router : RuleSets) (tag : Tag)
    (metadata : RuleSetMetadata) : Except ModeError Unit :=
  if r.rawRules.isEmpty then .ok ()
  else if r.closing then .ok ()
  else
    match resolveLegacyDNSMode router r.rawRules (some (tag,metadata)) with
    | .error err => .error err
    | .ok (candidateLegacyDNSMode,flags) =>
      if !r.started then
        if !candidateLegacyDNSMode then validateLegacyDNSModeDisabledRules r.rawRules else .ok ()
      else if r.legacyDNSMode then
        if !candidateLegacyDNSMode && flags.disabled then
          match validateLegacyDNSModeDisabledRules r.rawRules with
          | .error err => .error err
          | .ok () => .error .legacyDNSAddressFilter
        else .ok ()
      else if candidateLegacyDNSMode then .error .legacyDNSAddressFilter
      else .ok ()

/-! The flags of a rule list: what the rules ask for themselves, and what the rule-sets add. -/

mutual

def ownFlags : DNSRule → DNSRuleModeFlags
  | .default options =>
    { disabled := defaultRuleDisablesLegacyDNSMode options
      needed := defaultRuleNeedsLegacyDNSModeFromAddressFilter options ||
        dnsRuleActionHasStrategy options.action
      neededFromStrategy := dnsRuleActionHasStrategy options.action }
  | .logical rules action => ownFlagsOf rules
      { disabled := action.isEvaluate || action.isRespond
        needed := dnsRuleActionHasStrategy action
        neededFromStrategy := dnsRuleActionHasStrategy action }

def ownFlagsOf : List DNSRule → DNSRuleModeFlags → DNSRuleModeFlags
  | [], flags => flags
  | rule :: rest, flags => ownFlagsOf rest (flags.merge (ownFlags rule))

end

mutual

/-- The rule-sets a rule names, each with whether its IP CIDR rules match the source. -/
def references : DNSRule → List (Tag × Bool)
  | .default options => options.ruleSet.map (fun tag => (tag,options.ruleSetIPCIDRMatchSource))
  | .logical rules _ => referencesOf rules

def referencesOf : List DNSRule → List (Tag × Bool)
  | [] => []
  | rule :: rest => references rule ++ referencesOf rest

end

/-- The metadata a lookup gives, and none of both kinds of rules where it fails. -/
def metadataOf (lookup : Tag → Except ModeError RuleSetMetadata) (tag : Tag) : RuleSetMetadata :=
  match lookup tag with
  | .ok metadata => metadata
  | .error _ => ⟨false,false⟩

def addedFlags (contents : Tag → RuleSetMetadata) (refs : List (Tag × Bool)) : DNSRuleModeFlags :=
  { disabled := refs.any (fun r => (contents r.1).containsDNSQueryTypeRule)
    needed := refs.any (fun r => !r.2 && (contents r.1).containsIPCIDRRule)
    neededFromStrategy := false }

def Found (lookup : Tag → Except ModeError RuleSetMetadata) (refs : List (Tag × Bool)) : Prop :=
  ∀ r ∈ refs, ∃ metadata, lookup r.1 = .ok metadata

lemma merge_assoc (f g h : DNSRuleModeFlags) : (f.merge g).merge h = f.merge (g.merge h) := by
  simp [DNSRuleModeFlags.merge,Bool.or_assoc]

lemma merge_comm (f g : DNSRuleModeFlags) : f.merge g = g.merge f := by
  simp [DNSRuleModeFlags.merge,Bool.or_comm]

lemma merge_addedFlags_nil (f : DNSRuleModeFlags) (contents : Tag → RuleSetMetadata) :
    f.merge (addedFlags contents []) = f := by
  simp [DNSRuleModeFlags.merge,addedFlags]

lemma addedFlags_append (contents : Tag → RuleSetMetadata) (refs refs' : List (Tag × Bool)) :
    addedFlags contents (refs ++ refs') =
      (addedFlags contents refs).merge (addedFlags contents refs') := by
  simp [DNSRuleModeFlags.merge,addedFlags]

lemma found_append {lookup : Tag → Except ModeError RuleSetMetadata}
    {refs refs' : List (Tag × Bool)} :
    Found lookup (refs ++ refs') ↔ Found lookup refs ∧ Found lookup refs' := by
  simp only [Found,List.mem_append]
  constructor
  · intro h
    exact ⟨fun r hr => h r (.inl hr),fun r hr => h r (.inr hr)⟩
  · rintro ⟨h,h'⟩ r (hr | hr)
    · exact h r hr
    · exact h' r hr

lemma ownFlagsOf_merge (rules : List DNSRule) (flags flags' : DNSRuleModeFlags) :
    ownFlagsOf rules (flags.merge flags') = (ownFlagsOf rules flags).merge flags' := by
  induction rules generalizing flags flags' with
  | nil => rfl
  | cons rule rest ih =>
    simp only [ownFlagsOf,merge_assoc]
    rw [merge_comm flags',← merge_assoc,ih]

section Flags

variable (lookup : Tag → Except ModeError RuleSetMetadata)

lemma requirementsInTags_eq_ok_iff (matchSource : Bool) (tags : List Tag)
    (flags result : DNSRuleModeFlags) :
    dnsRuleModeRequirementsInTags lookup matchSource tags flags = .ok result ↔
      Found lookup (tags.map (fun tag => (tag,matchSource))) ∧ result = flags.merge
          (addedFlags (metadataOf lookup) (tags.map (fun tag => (tag,matchSource)))) := by
  induction tags generalizing flags with
  | nil => simp [dnsRuleModeRequirementsInTags,Found,merge_addedFlags_nil,eq_comm]
  | cons tag rest ih =>
    cases hl : lookup tag with
    | error err => simp [dnsRuleModeRequirementsInTags,Found,hl]
    | ok metadata =>
      have hco : metadataOf lookup tag = metadata := by simp [metadataOf,hl]
      have hf : DNSRuleModeFlags.mk (flags.disabled || metadata.containsDNSQueryTypeRule)
          (if (!matchSource && metadata.containsIPCIDRRule) = true then true else flags.needed)
          flags.neededFromStrategy =
          flags.merge (addedFlags (metadataOf lookup) [(tag,matchSource)]) := by
        simp only [DNSRuleModeFlags.merge,addedFlags,List.any_cons,List.any_nil,hco,
          Bool.or_false,DNSRuleModeFlags.mk.injEq,true_and,and_true]
        cases matchSource <;> cases metadata.containsIPCIDRRule <;> simp
      have hfo : Found lookup [(tag,matchSource)] := by simp [Found,hl]
      have hs : (tag :: rest).map (fun tag => (tag,matchSource)) =
          [(tag,matchSource)] ++ rest.map (fun tag => (tag,matchSource)) := rfl
      rw [hs,found_append,addedFlags_append,← merge_assoc,← hf]
      simp only [dnsRuleModeRequirementsInTags,hl,ih,hfo,true_and]

mutual

theorem requirementsInRule_eq_ok_iff (rule : DNSRule) (result : DNSRuleModeFlags) :
    dnsRuleModeRequirementsInRule lookup rule = .ok result ↔ Found lookup (references rule) ∧
        result = (ownFlags rule).merge (addedFlags (metadataOf lookup) (references rule)) := by
  cases rule with
  | default options => exact requirementsInTags_eq_ok_iff lookup _ options.ruleSet _ result
  | logical rules action => exact requirementsInRules_eq_ok_iff .subRule rules 0 _ result

theorem requirementsInRules_eq_ok_iff (cause : ℕ → ModeError → ModeError) (rules : List DNSRule)
    (i : ℕ) (flags result : DNSRuleModeFlags) :
    dnsRuleModeRequirementsInRules lookup cause rules i flags = .ok result ↔
      Found lookup (referencesOf rules) ∧ result = (ownFlagsOf rules flags).merge
          (addedFlags (metadataOf lookup) (referencesOf rules)) := by
  cases rules with
  | nil => simp [dnsRuleModeRequirementsInRules,referencesOf,ownFlagsOf,Found,
      merge_addedFlags_nil,eq_comm]
  | cons rule rest =>
    have hru := requirementsInRule_eq_ok_iff rule
    simp only [referencesOf,found_append,addedFlags_append]
    cases hr : dnsRuleModeRequirementsInRule lookup rule with
    | error err =>
      have hn : ¬ Found lookup (references rule) := by
        intro hf
        have hok := (hru _).mpr ⟨hf,rfl⟩
        rw [hr] at hok
        cases hok
      simp [dnsRuleModeRequirementsInRules,hr,hn]
    | ok ruleFlags =>
      obtain ⟨hf,rfl⟩ := (hru ruleFlags).mp hr
      have hre := requirementsInRules_eq_ok_iff cause rest (i + 1)
        (flags.merge ((ownFlags rule).merge (addedFlags (metadataOf lookup) (references rule))))
        result
      simp only [dnsRuleModeRequirementsInRules,hr,hre,hf,true_and]
      rw [← merge_assoc,ownFlagsOf_merge,merge_assoc]
      rfl

end

end Flags

variable (router : RuleSets) (rules : List DNSRule)

def contentsOf (tag : Tag) : RuleSetMetadata :=
  (router tag).getD ⟨false,false⟩

def RuleSets.store (tag : Tag) (metadata : RuleSetMetadata) : RuleSets :=
  Function.update router tag (some metadata)

/-- The flags of a rule list for given contents of the rule-sets. -/
def flagsFor (contents : Tag → RuleSetMetadata) : DNSRuleModeFlags :=
  (ownFlagsOf rules ⟨false,false,false⟩).merge (addedFlags contents (referencesOf rules))

def Known (router : RuleSets) : Prop :=
  ∀ r ∈ referencesOf rules, (router r.1).isSome

lemma lookup_override (tag : Tag) (metadata : RuleSetMetadata) :
    lookupDNSRuleSetMetadata router (some (tag,metadata)) =
      lookupDNSRuleSetMetadata (router.store tag metadata) none := by
  funext t
  by_cases h : t = tag
  · subst h
    simp [lookupDNSRuleSetMetadata,RuleSets.store,Option.filter]
  · have h' : (tag == t) = false := by simpa using fun e : tag = t => h e.symm
    simp [lookupDNSRuleSetMetadata,RuleSets.store,Option.filter,h,h']

lemma metadataOf_lookup :
    metadataOf (lookupDNSRuleSetMetadata router none) = contentsOf router := by
  funext tag
  cases h : router tag <;> simp [metadataOf,lookupDNSRuleSetMetadata,contentsOf,h]

lemma found_lookup :
    Found (lookupDNSRuleSetMetadata router none) (referencesOf rules) ↔ Known rules router := by
  have ho : ∀ tag,(∃ metadata,lookupDNSRuleSetMetadata router none tag = .ok metadata) ↔
      (router tag).isSome := by
    intro tag
    cases h : router tag <;> simp [lookupDNSRuleSetMetadata,h]
  simp only [Found,Known,ho]

theorem requirements_eq_ok_iff (flags : DNSRuleModeFlags) :
    dnsRuleModeRequirements router rules none = .ok flags ↔
      Known rules router ∧ flags = flagsFor rules (contentsOf router) := by
  simp only [dnsRuleModeRequirements,requirementsInRules_eq_ok_iff,found_lookup,
    metadataOf_lookup,flagsFor]

lemma resolve_override (tag : Tag) (metadata : RuleSetMetadata) :
    resolveLegacyDNSMode router rules (some (tag,metadata)) =
      resolveLegacyDNSMode (router.store tag metadata) rules none := by
  simp only [resolveLegacyDNSMode,dnsRuleModeRequirements,lookup_override]

lemma resolve_eq_ok_iff (mode : Bool) (flags : DNSRuleModeFlags) :
    resolveLegacyDNSMode router rules none = .ok (mode,flags) ↔
      Known rules router ∧ flags = flagsFor rules (contentsOf router) ∧
        ¬ (flags.disabled = true ∧ flags.neededFromStrategy = true) ∧
        mode = (!flags.disabled && flags.needed) := by
  constructor
  · intro h
    cases hr : dnsRuleModeRequirements router rules none with
    | error err => simp [resolveLegacyDNSMode,hr] at h
    | ok found =>
      obtain ⟨hk,hf⟩ := (requirements_eq_ok_iff router rules found).mp hr
      cases hd : found.disabled <;> cases hs : found.neededFromStrategy <;>
        simp [resolveLegacyDNSMode,hr,hd,hs] at h <;>
        obtain ⟨rfl,rfl⟩ := h <;> simp [hk,hd,hs,← hf]
  · rintro ⟨hk,hf,hst,rfl⟩
    have hr := (requirements_eq_ok_iff router rules flags).mpr ⟨hk,hf⟩
    cases hd : flags.disabled <;> simp_all [resolveLegacyDNSMode]

lemma neededFromStrategy_of_mem {rules : List DNSRule} {rule : DNSRule} (h : rule ∈ rules)
    (hs : dnsRuleActionHasStrategy rule.action = true) (flags : DNSRuleModeFlags) :
    (ownFlagsOf rules flags).needed = true ∧
      (ownFlagsOf rules flags).neededFromStrategy = true := by
  have ho : (ownFlags rule).needed = true ∧ (ownFlags rule).neededFromStrategy = true := by
    cases rule with
    | default options =>
      change dnsRuleActionHasStrategy options.action = true at hs
      simp [ownFlags,hs]
    | logical rules action =>
      change dnsRuleActionHasStrategy action = true at hs
      have hme := ownFlagsOf_merge rules ⟨false,false,false⟩
        ⟨action.isEvaluate || action.isRespond,true,true⟩
      simp [ownFlags,hs,DNSRuleModeFlags.merge] at hme ⊢
      simp [hme]
  induction h generalizing flags with
  | head rest =>
    rw [ownFlagsOf,ownFlagsOf_merge]
    simp [DNSRuleModeFlags.merge,ho]
  | tail _ _ ih => exact ih (flags.merge _)

lemma hasStrategy_of_resolve {router : RuleSets} {rules : List DNSRule} {flags : DNSRuleModeFlags}
    (h : resolveLegacyDNSMode router rules none = .ok (false,flags)) {rule : DNSRule}
    (hr : rule ∈ rules) : dnsRuleActionHasStrategy rule.action = false := by
  obtain ⟨-,rfl,hno,hmo⟩ := (resolve_eq_ok_iff router rules false flags).mp h
  by_contra hs
  obtain ⟨hn,hf⟩ := neededFromStrategy_of_mem hr (by simpa using hs) ⟨false,false,false⟩
  have hn' : (flagsFor rules (contentsOf router)).needed = true := by
    simp [flagsFor,DNSRuleModeFlags.merge,hn]
  have hf' : (flagsFor rules (contentsOf router)).neededFromStrategy = true := by
    simp [flagsFor,DNSRuleModeFlags.merge,hf]
  rw [hn',Bool.and_true] at hmo
  exact hno ⟨by simpa using hmo,hf'⟩

def startedRouter (mode : Bool) : Router := ⟨rules,true,mode,false⟩

variable {rules : List DNSRule} {router : RuleSets}

lemma validated_mode {tag : Tag} {metadata : RuleSetMetadata} {mode : Bool} (hru : rules ≠ [])
    (h : (startedRouter rules mode).validateRuleSetMetadataUpdate router tag metadata = .ok ()) :
    (mode = true → (flagsFor rules (contentsOf (router.store tag metadata))).disabled = false) ∧
      (mode = false → (flagsFor rules (contentsOf (router.store tag metadata))).disabled = true ∨
        (flagsFor rules (contentsOf (router.store tag metadata))).needed = false) := by
  have he : rules.isEmpty = false := by simpa using hru
  simp only [Router.validateRuleSetMetadataUpdate,startedRouter,resolve_override,he] at h
  cases hr : resolveLegacyDNSMode (router.store tag metadata) rules none with
  | error err => simp [hr] at h
  | ok result =>
    obtain ⟨candidate,flags⟩ := result
    obtain ⟨-,rfl,-,hmo⟩ := (resolve_eq_ok_iff _ _ _ _).mp hr
    refine ⟨?_,?_⟩
    · rintro rfl
      by_contra hd
      rw [Bool.not_eq_false] at hd
      simp only [hd,Bool.not_true,Bool.false_and] at hmo
      simp only [hr,hmo,hd] at h
      cases hv : validateLegacyDNSModeDisabledRules rules <;> simp [hv] at h
    · rintro rfl
      cases hca : candidate with
      | true => simp [hr,hca] at h
      | false =>
        rw [hca] at hmo
        cases hd : (flagsFor rules (contentsOf (router.store tag metadata))).disabled with
        | true => exact .inl rfl
        | false =>
          right
          simpa [hd] using hmo.symm

/-! The system: updates that were validated and wait to be stored. -/

/-- An accepted update, with the rule-sets that its validation read. -/
structure Update where
  tag : Tag
  metadata : RuleSetMetadata
  seen : RuleSets

structure State where
  ruleSets : RuleSets
  validated : List Update

inductive Event
  | validate (tag : Tag) (metadata : RuleSetMetadata)
  | store (update : Update)

/-- The two steps of an update. Only the rule-sets the router has are updated. -/
inductive Step (r : Router) : State → Event → State → Prop
  | accept {s : State} {tag : Tag} {metadata : RuleSetMetadata} :
      (s.ruleSets tag).isSome →
      r.validateRuleSetMetadataUpdate s.ruleSets tag metadata = .ok () →
      Step r s (.validate tag metadata)
        { s with validated := ⟨tag,metadata,s.ruleSets⟩ :: s.validated }
  | refuse {s : State} {tag : Tag} {metadata : RuleSetMetadata} {err : ModeError} :
      (s.ruleSets tag).isSome →
      r.validateRuleSetMetadataUpdate s.ruleSets tag metadata = .error err →
      Step r s (.validate tag metadata) s
  | store {ruleSets : RuleSets} {before after : List Update} {update : Update} :
      Step r ⟨ruleSets,before ++ update :: after⟩ (.store update)
        ⟨ruleSets.store update.tag update.metadata,before ++ after⟩

def Consistent (rules : List DNSRule) (mode : Bool) (router : RuleSets) : Prop :=
  (mode = true → ∃ flags, dnsRuleModeRequirements router rules none = .ok flags ∧
    flags.disabled = false) ∧
  (mode = false → ∀ flags, resolveLegacyDNSMode router rules none ≠ .ok (true,flags))

/-- No rule-set the rules name, other than the one updated, has lost its query type rules or gained
IP CIDR rules since the update was validated. -/
def Undisturbed (rules : List DNSRule) (router : RuleSets) (update : Update) : Prop :=
  ∀ r ∈ referencesOf rules, r.1 ≠ update.tag →
    ((contentsOf update.seen r.1).containsDNSQueryTypeRule = true →
      (contentsOf router r.1).containsDNSQueryTypeRule = true) ∧
    ((contentsOf router r.1).containsIPCIDRRule = true →
      (contentsOf update.seen r.1).containsIPCIDRRule = true)

def StoresUndisturbed (rules : List DNSRule) (mode : Bool) (s : State) : Event → Prop
  | .validate _ _ => True
  | .store update => mode = false → Undisturbed rules s.ruleSets update

lemma contentsOf_store_self (router : RuleSets) (tag : Tag) (metadata : RuleSetMetadata) :
    contentsOf (router.store tag metadata) tag = metadata := by
  simp [contentsOf,RuleSets.store]

lemma contentsOf_store_of_ne (router : RuleSets) (metadata : RuleSetMetadata) {tag t : Tag}
    (h : t ≠ tag) : contentsOf (router.store tag metadata) t = contentsOf router t := by
  simp [contentsOf,RuleSets.store,h]

lemma known_store (h : Known rules router) (tag : Tag) (metadata : RuleSetMetadata) :
    Known rules (router.store tag metadata) := by
  intro r hr
  by_cases ht : r.1 = tag
  · simp [RuleSets.store,ht]
  · simpa [RuleSets.store,ht] using h r hr

lemma disabled_flagsFor_eq_false_iff (rules : List DNSRule) (contents : Tag → RuleSetMetadata) :
    (flagsFor rules contents).disabled = false ↔
      (ownFlagsOf rules ⟨false,false,false⟩).disabled = false ∧
        ∀ r ∈ referencesOf rules,(contents r.1).containsDNSQueryTypeRule = false := by
  simp [flagsFor,DNSRuleModeFlags.merge,addedFlags]

lemma flagsFor_mono {contents contents' : Tag → RuleSetMetadata} (h : ∀ r ∈ referencesOf rules,
      ((contents r.1).containsDNSQueryTypeRule = true →
        (contents' r.1).containsDNSQueryTypeRule = true) ∧
      ((contents' r.1).containsIPCIDRRule = true → (contents r.1).containsIPCIDRRule = true))
    (hne : (flagsFor rules contents).disabled = true ∨ (flagsFor rules contents).needed = false) :
    (flagsFor rules contents').disabled = true ∨ (flagsFor rules contents').needed = false := by
  rcases hne with hd | hn
  · left
    simp only [flagsFor,DNSRuleModeFlags.merge,addedFlags,Bool.or_eq_true,List.any_eq_true] at hd ⊢
    rcases hd with ho | ⟨r,hr,hq⟩
    · exact .inl ho
    · exact .inr ⟨r,hr,(h r hr).1 hq⟩
  · right
    simp only [flagsFor,DNSRuleModeFlags.merge,addedFlags,Bool.or_eq_false_iff,
      List.any_eq_false,Bool.and_eq_true,not_and] at hn ⊢
    obtain ⟨ho,hre⟩ := hn
    refine ⟨ho,fun r hr hs hci => ?_⟩
    exact hre r hr hs ((h r hr).2 hci)

/-- What holds of the rule-sets and of every update that waits, in either mode. -/
structure ModeInv (rules : List DNSRule) (mode : Bool) (s : State) : Prop where
  known : Known rules s.ruleSets
  legacy : mode = true → (flagsFor rules (contentsOf s.ruleSets)).disabled = false
  legacyUpdates : mode = true → ∀ u ∈ s.validated,
    (flagsFor rules (contentsOf (u.seen.store u.tag u.metadata))).disabled = false
  new : mode = false → (flagsFor rules (contentsOf s.ruleSets)).disabled = true ∨
    (flagsFor rules (contentsOf s.ruleSets)).needed = false
  newUpdates : mode = false → ∀ u ∈ s.validated,
    (flagsFor rules (contentsOf (u.seen.store u.tag u.metadata))).disabled = true ∨
      (flagsFor rules (contentsOf (u.seen.store u.tag u.metadata))).needed = false

lemma store_keeps_legacy {update : Update}
    (h : (flagsFor rules (contentsOf router)).disabled = false)
    (hu : (flagsFor rules
      (contentsOf (update.seen.store update.tag update.metadata))).disabled = false) :
    (flagsFor rules (contentsOf (router.store update.tag update.metadata))).disabled = false := by
  rw [disabled_flagsFor_eq_false_iff] at h hu ⊢
  refine ⟨h.1,fun r hr => ?_⟩
  by_cases ht : r.1 = update.tag
  · have ho := hu.2 r hr
    rw [ht,contentsOf_store_self] at ho ⊢
    exact ho
  · rw [contentsOf_store_of_ne _ _ ht]
    exact h.2 r hr

lemma store_keeps_new {update : Update} (hco : Undisturbed rules router update)
    (hu : (flagsFor rules
        (contentsOf (update.seen.store update.tag update.metadata))).disabled = true ∨
      (flagsFor rules (contentsOf (update.seen.store update.tag update.metadata))).needed = false) :
    (flagsFor rules (contentsOf (router.store update.tag update.metadata))).disabled = true ∨
      (flagsFor rules (contentsOf (router.store update.tag update.metadata))).needed = false := by
  apply flagsFor_mono _ hu
  intro r hr
  by_cases ht : r.1 = update.tag
  · simp only [ht,contentsOf_store_self,imp_self,and_self]
  · simp only [contentsOf_store_of_ne _ _ ht]
    exact hco r hr ht

lemma modeInv_start {mode : Bool} {flags : DNSRuleModeFlags}
    (h : resolveLegacyDNSMode router rules none = .ok (mode,flags)) :
    ModeInv rules mode ⟨router,[]⟩ := by
  obtain ⟨hk,rfl,-,hmo⟩ := (resolve_eq_ok_iff _ _ _ _).mp h
  refine ⟨hk,?_,by simp,?_,by simp⟩
  · rintro rfl
    have hb := hmo.symm
    rw [Bool.and_eq_true,Bool.not_eq_true'] at hb
    exact hb.1
  · rintro rfl
    cases hd : (flagsFor rules (contentsOf router)).disabled with
    | true => exact .inl rfl
    | false =>
      right
      simpa [hd] using hmo.symm

lemma modeInv_step (hr : rules ≠ []) {mode : Bool} {s t : State} {e : Event}
    (h : ModeInv rules mode s) (hs : Step (startedRouter rules mode) s e t)
    (hco : StoresUndisturbed rules mode s e) : ModeInv rules mode t := by
  cases hs with
  | refuse _ _ => exact h
  | accept _ hv =>
    refine ⟨h.known,h.legacy,?_,h.new,?_⟩
    · rintro rfl u hu
      rcases List.mem_cons.mp hu with rfl | hu
      · exact (validated_mode hr hv).1 rfl
      · exact h.legacyUpdates rfl u hu
    · rintro rfl u hu
      rcases List.mem_cons.mp hu with rfl | hu
      · exact (validated_mode hr hv).2 rfl
      · exact h.newUpdates rfl u hu
  | @store ruleSets before after update =>
    have hme : update ∈ before ++ update :: after := by simp
    have hre : ∀ u ∈ before ++ after,u ∈ before ++ update :: after := by
      intro u hu
      rcases List.mem_append.mp hu with hu | hu <;> simp [hu]
    refine ⟨known_store h.known _ _,?_,?_,?_,?_⟩
    · intro hmo
      exact store_keeps_legacy (h.legacy hmo) (h.legacyUpdates hmo update hme)
    · intro hmo u hu
      exact h.legacyUpdates hmo u (hre u hu)
    · intro hmo
      exact store_keeps_new (hco hmo) (h.newUpdates hmo update hme)
    · intro hmo u hu
      exact h.newUpdates hmo u (hre u hu)

lemma consistent_of_modeInv {mode : Bool} {s : State} (h : ModeInv rules mode s) :
    Consistent rules mode s.ruleSets := by
  constructor
  · intro hmo
    exact ⟨_,(requirements_eq_ok_iff _ _ _).mpr ⟨h.known,rfl⟩,h.legacy hmo⟩
  · intro hmo flags hr
    obtain ⟨-,rfl,-,hne⟩ := (resolve_eq_ok_iff _ _ _ _).mp hr
    rcases h.new hmo with hd | hn
    · simp [hd] at hne
    · simp [hn] at hne

lemma consistent_nil (mode : Bool) (router : RuleSets) : Consistent [] mode router := by
  constructor
  · intro _
    exact ⟨⟨false,false,false⟩,rfl,rfl⟩
  · intro _ flags hr
    simp [resolveLegacyDNSMode,dnsRuleModeRequirements,dnsRuleModeRequirementsInRules] at hr

/-- The mode agrees with the rule-sets in every run in which, while the router is in the new mode,
no update is stored after another rule-set lost its query type rules or gained IP CIDR rules. -/
theorem mode_consistent_of_undisturbed (rules : List DNSRule) (router : RuleSets) (mode : Bool)
    (flags : DNSRuleModeFlags) (hmode : resolveLegacyDNSMode router rules none = .ok (mode,flags))
    (s : State) (hrun : Reaches (Step (startedRouter rules mode)) (StoresUndisturbed rules mode)
      ⟨router,[]⟩ s) : Consistent rules mode s.ruleSets := by
  rcases eq_or_ne rules [] with rfl | hr
  · exact consistent_nil mode s.ruleSets
  · have hi : ModeInv rules mode s := hrun.invariant (ModeInv rules mode) (modeInv_start hmode)
        (fun _ _ _ h hs hco => modeInv_step hr h hs hco)
    exact consistent_of_modeInv hi

def twoSetsRule : DNSRule :=
  .default
    { ipCIDR := [], ipIsPrivate := false, ipAcceptAny := false, ruleSet := ["geosite","geoip"]
      ruleSetIPCIDRMatchSource := false, ruleSetIPCIDRAcceptEmpty := false, matchResponse := false
      responseRcode := none, responseAnswer := [], responseNs := [], responseExtra := []
      ipVersion := 0, queryType := [], action := .route false }

def queryTypeSets : RuleSets
  | "geosite" => some ⟨false,true⟩
  | "geoip" => some ⟨false,false⟩
  | _ => none

def geoipUpdate : Update := ⟨"geoip",⟨true,false⟩,queryTypeSets⟩

def geositeUpdate : Update := ⟨"geosite",⟨false,false⟩,queryTypeSets⟩

theorem mode_consistent_geoip_update :
    Consistent [twoSetsRule] false (queryTypeSets.store "geoip" ⟨true,false⟩) := by
  have hv : Step (startedRouter [twoSetsRule] false) ⟨queryTypeSets,[]⟩
      (.validate "geoip" ⟨true,false⟩) ⟨queryTypeSets,[geoipUpdate]⟩ := .accept rfl rfl
  have hs : Step (startedRouter [twoSetsRule] false) ⟨queryTypeSets,[] ++ geoipUpdate :: []⟩
      (.store geoipUpdate) ⟨queryTypeSets.store "geoip" ⟨true,false⟩,[]⟩ := .store
  have hu : Undisturbed [twoSetsRule] queryTypeSets geoipUpdate := fun _ _ _ => ⟨id,id⟩
  exact mode_consistent_of_undisturbed [twoSetsRule] queryTypeSets false ⟨true,false,false⟩ rfl
    _ (.step (.step .start hv trivial) hs (fun _ => hu))

/-- Two updates, each accepted with the other set as it was, together ask for legacy mode. -/
theorem validated_updates_ask_for_legacy_mode :
    ¬ ∀ (rules : List DNSRule) (router : RuleSets) (mode : Bool) (flags : DNSRuleModeFlags)
      (s : State), resolveLegacyDNSMode router rules none = .ok (mode,flags) →
      Reaches (Step (startedRouter rules mode)) anyStep ⟨router,[]⟩ s →
      Consistent rules mode s.ruleSets := by
  intro ha
  have hge : Step (startedRouter [twoSetsRule] false) ⟨queryTypeSets,[]⟩
      (.validate "geoip" ⟨true,false⟩) ⟨queryTypeSets,[geoipUpdate]⟩ := .accept rfl rfl
  have hg : Step (startedRouter [twoSetsRule] false) ⟨queryTypeSets,[geoipUpdate]⟩
      (.validate "geosite" ⟨false,false⟩) ⟨queryTypeSets,[geositeUpdate,geoipUpdate]⟩ :=
    .accept rfl rfl
  have hf : Step (startedRouter [twoSetsRule] false)
      ⟨queryTypeSets,[] ++ geositeUpdate :: [geoipUpdate]⟩ (.store geositeUpdate)
      ⟨queryTypeSets.store "geosite" ⟨false,false⟩,[geoipUpdate]⟩ := .store
  have hs : Step (startedRouter [twoSetsRule] false)
      ⟨queryTypeSets.store "geosite" ⟨false,false⟩,[] ++ geoipUpdate :: []⟩ (.store geoipUpdate)
      ⟨(queryTypeSets.store "geosite" ⟨false,false⟩).store "geoip" ⟨true,false⟩,[]⟩ := .store
  have hr : Reaches (Step (startedRouter [twoSetsRule] false)) anyStep ⟨queryTypeSets,[]⟩
      ⟨(queryTypeSets.store "geosite" ⟨false,false⟩).store "geoip" ⟨true,false⟩,[]⟩ :=
    .step (.step (.step (.step .start hge trivial) hg trivial) hf trivial) hs trivial
  have hco := ha [twoSetsRule] queryTypeSets false ⟨true,false,false⟩ _ rfl hr
  exact hco.2 rfl ⟨false,true,false⟩ rfl

end SingBoxAuth.DNSMode
