import SingBoxAuth.QuotaConfig

/-! NewQuotaManager: the loops that resolve the groups and the users of the options, and the
configuration that each user is meant to get, field by field. -/
namespace SingBoxAuth.TrafficQuota

structure TrafficQuotaGroup where
  name : String
  quotaGB : ℚ
  period : String
  periodStart : String
  periodDays : ℤ

structure TrafficQuotaServiceOptions where
  groups : List TrafficQuotaGroup
  users : List TrafficQuotaUser

inductive OptionsError
  | groupMissingName
  | invalidGroup (group : String) (cause : ConfigError)
  | userMissingName
  | unknownGroup (user group : String)
  | invalidUser (user : String) (cause : ConfigError)

/-- The map of the groups by name. A group without a quota is entered with a nil pointer. -/
abbrev GroupConfigs := String → Option (Option QuotaConfig)

abbrev UserConfigs := AList fun _ : String => QuotaConfig

def readGroups (text : TimeText) :
    List TrafficQuotaGroup → GroupConfigs → Except OptionsError GroupConfigs
  | [], configs => .ok configs
  | group :: groups, configs =>
    if group.name = "" then .error .groupMissingName
    else
      match newQuotaConfig text group.quotaGB group.period group.periodStart group.periodDays
          none with
      | .error cause => .error (.invalidGroup group.name cause)
      | .ok config => readGroups text groups (Function.update configs group.name (some config))

/-- The base of a user's configuration, copied from the group; none when the copy dereferences
a nil pointer. -/
def groupCopy (groups : GroupConfigs) (user : TrafficQuotaUser) :
    Option (Except OptionsError (Option QuotaConfig)) :=
  if user.group = "" then some (.ok none)
  else
    match groups user.group with
    | none => some (.error (.unknownGroup user.name user.group))
    | some none => none
    | some (some config) => some (.ok (some config))

def readUsers (text : TimeText) (groups : GroupConfigs) :
    List TrafficQuotaUser → UserConfigs → Option (Except OptionsError UserConfigs)
  | [], configs => some (.ok configs)
  | user :: users, configs =>
    if user.name = "" then some (.error .userMissingName)
    else
      match groupCopy groups user with
      | none => none
      | some (.error err) => some (.error err)
      | some (.ok base) =>
        match newQuotaConfig text user.quotaGB user.period user.periodStart user.periodDays base with
        | .error cause => some (.error (.invalidUser user.name cause))
        | .ok none => readUsers text groups users configs
        | .ok (some config) => readUsers text groups users (configs.insert user.name config)

/-- An error or the configurations of the new manager; none when it panics. -/
def newQuotaManager (text : TimeText) (options : TrafficQuotaServiceOptions) :
    Option (Except OptionsError UserConfigs) :=
  match readGroups text options.groups fun _ => none with
  | .error err => some (.error err)
  | .ok groups => readUsers text groups options.users ∅

def ResolvedConfig.unset : ResolvedConfig := ⟨0,"",zeroTime,0⟩

/-- Each field as given where it is set, otherwise that of the base. -/
def merge (text : TimeText) (quotaGB : ℚ) (period periodStart : String) (periodDays : ℤ)
    (base : ResolvedConfig) : ResolvedConfig where
  quotaBytes := if 0 < quotaGB then quotaBytes quotaGB else base.quotaBytes
  period := if period ≠ "" then period else base.period
  periodStart :=
    if periodStart ≠ "" then (text.parse periodStart).getD zeroTime else base.periodStart
  periodDays := if 0 < periodDays then periodDays else base.periodDays

def TimeText.Reads (text : TimeText) (periodStart : String) : Prop :=
  periodStart = "" ∨ (text.parse periodStart).isSome

/-- A period is named, and a custom one has a start and a length. -/
def ResolvedConfig.Complete (config : ResolvedConfig) : Prop :=
  config.period ∈ ["daily","weekly","monthly"] ∨
    config.period = "custom" ∧ config.periodStart ≠ zeroTime ∧ 0 < config.periodDays

/-- The start can be read, and what has a quota has a complete period. -/
def Sound (text : TimeText) (periodStart : String) (config : ResolvedConfig) : Prop :=
  text.Reads periodStart ∧ (0 < config.quotaBytes → config.Complete)

inductive Resolves (text : TimeText) (periodStart : String) (config : ResolvedConfig) :
    Except ConfigError (Option QuotaConfig) → Prop
  | refused (cause : ConfigError) : ¬ Sound text periodStart config →
      Resolves text periodStart config (.error cause)
  | untracked : Sound text periodStart config → ¬ 0 < config.quotaBytes →
      Resolves text periodStart config (.ok none)
  | tracked (c : QuotaConfig) : Sound text periodStart config → c.resolved = config →
      Resolves text periodStart config (.ok (some c))

lemma QuotaConfig.complete (c : QuotaConfig) : c.resolved.Complete := by
  cases hp : c.period with
  | daily | weekly | monthly => exact .inl (by simp [resolved,hp,PeriodType.text])
  | custom => exact .inr ⟨by simp [resolved,hp,PeriodType.text],c.customStart hp,c.customDays hp⟩

lemma validateQuotaConfig_resolves {text : TimeText} {start : String} {config : ResolvedConfig}
    (hstart : text.Reads start) (positive : 0 < config.quotaBytes) :
    Resolves text start config (some <$> validateQuotaConfig config positive) := by
  have hok : ∀ c : QuotaConfig,c.resolved = config → Resolves text start config (.ok (some c)) :=
    fun c hc => .tracked c ⟨hstart,fun _ => hc ▸ c.complete⟩ hc
  have hb : ∀ cause,¬ config.Complete → Resolves text start config (.error cause) :=
    fun cause hc => .refused cause fun h => hc (h.2 positive)
  unfold validateQuotaConfig
  split_ifs with hd hw hmo hcu hz hda he
  · exact hok _ (by rw [QuotaConfig.resolved,PeriodType.text,← hd])
  · exact hok _ (by rw [QuotaConfig.resolved,PeriodType.text,← hw])
  · exact hok _ (by rw [QuotaConfig.resolved,PeriodType.text,← hmo])
  · exact hb _ (by simp [ResolvedConfig.Complete,hcu,hz])
  · exact hb _ (by simp [ResolvedConfig.Complete,hcu,hda])
  · exact hok _ (by rw [QuotaConfig.resolved,PeriodType.text,← hcu])
  · exact hb _ (by simp [ResolvedConfig.Complete,he])
  · exact hb _ (by simp [ResolvedConfig.Complete,hd,hw,hmo,hcu])

lemma newQuotaConfig_resolves (text : TimeText) (quotaGB : ℚ) (period start : String) (days : ℤ)
    (base : Option QuotaConfig) : Resolves text start
      (merge text quotaGB period start days ((base.map QuotaConfig.resolved).getD .unset))
      (newQuotaConfig text quotaGB period start days base) := by
  have hch : ∀ config,text.Reads start → Resolves text start config
      (if positive : 0 < config.quotaBytes then some <$> validateQuotaConfig config positive
        else .ok none) := by
    intro config hstart
    split_ifs with positive
    · exact validateQuotaConfig_resolves hstart positive
    · exact .untracked ⟨hstart,fun h => absurd h positive⟩ positive
  unfold newQuotaConfig merge
  by_cases he : start = ""
  · subst he
    exact hch ⟨_,_,_,_⟩ (.inl rfl)
  · simp only [ne_eq,he,not_false_eq_true,if_true,TimeText.parsePeriodStart]
    cases hp : text.parse start with
    | none => exact .refused _ fun h => h.1.elim he (by simp [hp])
    | some instant => exact hch ⟨_,_,instant,_⟩ (.inr (by simp [hp]))

def TrafficQuotaGroup.values (text : TimeText) (group : TrafficQuotaGroup) : ResolvedConfig :=
  merge text group.quotaGB group.period group.periodStart group.periodDays .unset

/-- The group that a name stands for: the last one listed under it. -/
def groupNamed (groups : List TrafficQuotaGroup) (name : String) : Option TrafficQuotaGroup :=
  groups.reverse.find? (·.name = name)

section resolution

variable (text : TimeText) (groups : List TrafficQuotaGroup)

/-- The fields of a user: its own where set, otherwise those of its group. -/
def merged (user : TrafficQuotaUser) : ResolvedConfig :=
  merge text user.quotaGB user.period user.periodStart user.periodDays
    (((groupNamed groups user.group).map (·.values text)).getD .unset)

def GroupsSound : Prop := ∀ group ∈ groups, group.name ≠ "" ∧
  Sound text group.periodStart (group.values text)

def LacksQuota (user : TrafficQuotaUser) : Prop :=
  user.group ≠ "" ∧ ∃ group, groupNamed groups user.group = some group ∧
    ¬ 0 < (group.values text).quotaBytes

def WellFormed (user : TrafficQuotaUser) : Prop :=
  user.name ≠ "" ∧
    (user.group ≠ "" → ∃ group, groupNamed groups user.group = some group ∧
      0 < (group.values text).quotaBytes) ∧
    Sound text user.periodStart (merged text groups user)

/-- After well-formed entries comes a user whose group has no quota. -/
def MeetsLack : List TrafficQuotaUser → Prop
  | [] => False
  | user :: users => user.name ≠ "" ∧
      (LacksQuota text groups user ∨ WellFormed text groups user ∧ MeetsLack users)

/-- The configuration of a name: that of the last tracked entry listed under it. -/
def Tracked (users : List TrafficQuotaUser) (name : String) : Option ResolvedConfig :=
  (users.reverse.find? fun user => user.name = name ∧ 0 < (merged text groups user).quotaBytes).map
    (merged text groups)

def Entered (configs : GroupConfigs) : Prop := ∀ name, match groupNamed groups name with
  | none => configs name = none
  | some group =>
    (¬ 0 < (group.values text).quotaBytes ∧ configs name = some none) ∨
      ∃ c, configs name = some (some c) ∧ c.resolved = group.values text

variable {text} {groups}

lemma readGroups_ok {done : List TrafficQuotaGroup} {configs : GroupConfigs}
    (hd : Entered text done configs) (h : GroupsSound text groups) :
    ∃ configs',readGroups text groups configs = .ok configs' ∧
      Entered text (done ++ groups) configs' := by
  induction groups generalizing done configs with
  | nil => exact ⟨configs,rfl,by simpa using hd⟩
  | cons group groups ih =>
    obtain ⟨⟨hna,hs⟩,hre⟩ := List.forall_mem_cons.mp h
    have hnx : ∀ config,Resolves text group.periodStart (group.values text) (.ok config) →
        Entered text (done ++ [group]) (Function.update configs group.name (some config)) := by
      intro config hco name
      simp only [groupNamed,List.reverse_append,List.reverse_singleton,List.singleton_append,
        List.find?_cons]
      by_cases hn : group.name = name
      · subst hn
        simp only [decide_true,Function.update_self]
        cases hco with
        | untracked _ hq => exact .inl ⟨hq,rfl⟩
        | tracked c _ hc => exact .inr ⟨c,rfl,hc⟩
      · simp only [hn,decide_false,Function.update_of_ne (Ne.symm hn)]
        exact hd name
    have hr := newQuotaConfig_resolves text group.quotaGB group.period group.periodStart
      group.periodDays none
    rw [readGroups,if_neg hna]
    cases hne : newQuotaConfig text group.quotaGB group.period group.periodStart group.periodDays
        none with
    | error cause =>
      rw [hne] at hr
      cases hr with
      | refused _ hb => exact absurd hs hb
    | ok config =>
      rw [hne] at hr
      simpa using ih (hnx config hr) hre

lemma readGroups_error (h : ¬ GroupsSound text groups) (configs : GroupConfigs) :
    ∃ err,readGroups text groups configs = .error err := by
  induction groups generalizing configs with
  | nil => exact absurd (fun _ hg => absurd hg List.not_mem_nil) h
  | cons group groups ih =>
    have hr := newQuotaConfig_resolves text group.quotaGB group.period group.periodStart
      group.periodDays none
    rw [readGroups]
    split_ifs with hn
    · exact ⟨_,rfl⟩
    cases hne : newQuotaConfig text group.quotaGB group.period group.periodStart group.periodDays
        none with
    | error cause => exact ⟨_,rfl⟩
    | ok config =>
      have hso : Sound text group.periodStart (group.values text) := by
        rw [hne] at hr
        cases hr with
        | untracked hs _ => exact hs
        | tracked _ hs _ => exact hs
      refine ih (fun hre => h ?_) _
      exact List.forall_mem_cons.mpr ⟨⟨hn,hso⟩,hre⟩

variable {configs : GroupConfigs} {user : TrafficQuotaUser} {users : List TrafficQuotaUser}

/-- What copying the group gives, once the groups have been read. -/
inductive Copied (text : TimeText) (groups : List TrafficQuotaGroup) (user : TrafficQuotaUser) :
    Option (Except OptionsError (Option QuotaConfig)) → Prop
  | lacking : LacksQuota text groups user → Copied text groups user none
  | unknown (err : OptionsError) : ¬ LacksQuota text groups user → ¬ WellFormed text groups user →
      Copied text groups user (some (.error err))
  | copied (base : Option QuotaConfig) : ¬ LacksQuota text groups user →
      (WellFormed text groups user ↔
        user.name ≠ "" ∧ Sound text user.periodStart (merged text groups user)) →
      merged text groups user = merge text user.quotaGB user.period user.periodStart user.periodDays
        ((base.map QuotaConfig.resolved).getD .unset) →
      Copied text groups user (some (.ok base))

lemma groupCopy_copied (hs : GroupsSound text groups) (he : Entered text groups configs)
    (user : TrafficQuotaUser) : Copied text groups user (groupCopy configs user) := by
  unfold groupCopy
  split_ifs with hg
  · have hno : groupNamed groups user.group = none := by
      refine List.find?_eq_none.mpr fun group hme => ?_
      have := (hs group (List.mem_reverse.mp hme)).1
      simpa [hg] using this
    refine .copied none (fun h => h.1 hg) ?_ ?_
    · simp [WellFormed,hg]
    · simp [merged,hno]
  · have hna := he user.group
    cases hn : groupNamed groups user.group with
    | none =>
      rw [hn] at hna
      rw [hna]
      refine .unknown _ ?_ ?_
      · simp [LacksQuota,hn]
      · simp [WellFormed,hn,hg]
    | some group =>
      rw [hn] at hna
      obtain ⟨hq,hc⟩ | ⟨c,hc,hv⟩ := hna
      · rw [hc]
        exact .lacking ⟨hg,group,hn,hq⟩
      · have hq : 0 < (group.values text).quotaBytes := hv ▸ c.positive
        rw [hc]
        refine .copied (some c) ?_ ?_ ?_
        · simp [LacksQuota,hn,hq]
        · simp [WellFormed,hn,hq]
        · simp [merged,hn,hv]

lemma tracked_cons (name : String) : Tracked text groups (user :: users) name =
    (Tracked text groups users name).or
      (if user.name = name ∧ 0 < (merged text groups user).quotaBytes then
        some (merged text groups user) else none) := by
  unfold Tracked
  rw [List.reverse_cons,List.find?_append]
  cases List.find? _ users.reverse with
  | some found => rfl
  | none => split_ifs with h <;> simp [h]

lemma readUsers_resolves (hso : GroupsSound text groups) (he : Entered text groups configs)
    (users : List TrafficQuotaUser) (read : UserConfigs) :
    (MeetsLack text groups users → readUsers text configs users read = none) ∧
      (¬ MeetsLack text groups users → ∃ result,readUsers text configs users read = some result ∧
        ∀ all,result = .ok all → ∀ name,(all.lookup name).map QuotaConfig.resolved =
          (Tracked text groups users name).or ((read.lookup name).map QuotaConfig.resolved)) := by
  induction users generalizing read with
  | nil =>
    refine ⟨False.elim,fun _ => ⟨_,rfl,fun all hal name => ?_⟩⟩
    cases hal
    simp [Tracked]
  | cons user users ih =>
    have hco := groupCopy_copied hso he user
    rw [readUsers,MeetsLack]
    split_ifs with hna
    · exact ⟨fun h => absurd hna h.1,fun _ => ⟨_,rfl,nofun⟩⟩
    generalize groupCopy configs user = copy at hco ⊢
    cases hco with
    | lacking hl => exact ⟨fun _ => rfl,fun h => absurd ⟨hna,.inl hl⟩ h⟩
    | unknown err hl hb =>
      exact ⟨fun h => absurd (h.2.resolve_left hl).1 hb,fun _ => ⟨_,rfl,nofun⟩⟩
    | copied base hl hf hme =>
      have hr := newQuotaConfig_resolves text user.quotaGB user.period user.periodStart
        user.periodDays base
      rw [← hme] at hr
      simp only [hl,false_or,hf,hna,ne_eq,not_false_eq_true,true_and]
      generalize newQuotaConfig text user.quotaGB user.period user.periodStart user.periodDays
        base = new at hr ⊢
      cases hr with
      | refused cause hb => exact ⟨fun h => absurd h.1 hb,fun _ => ⟨_,rfl,nofun⟩⟩
      | untracked hs hq =>
        simp only [hs,true_and,tracked_cons,hq,and_false,if_false,Option.or_none]
        exact ih read
      | tracked c hs hc =>
        obtain ⟨hst,hra⟩ := ih (read.insert user.name c)
        refine ⟨fun h => hst h.2,fun h => ?_⟩
        obtain ⟨result,hre,hal⟩ := hra fun hm => h ⟨hs,hm⟩
        refine ⟨result,hre,fun all ha name => ?_⟩
        rw [hal all ha name,tracked_cons,Option.or_assoc,← hc]
        by_cases hn : user.name = name
        · subst hn
          simp [AList.lookup_insert,c.positive,QuotaConfig.resolved]
        · simp [hn,AList.lookup_insert_ne (Ne.symm hn)]

end resolution

end SingBoxAuth.TrafficQuota
