import SingBoxAuth.UserProvider

/-! The user provider as an overlay map: records of the overlay in front of the records
of the sources, of which some are hidden. -/
namespace SingBoxAuth.UserProvider
open KeyedMerge

/-- The edits, and the users of the sources as they were last loaded. -/
structure OverlayMap where
  overlay : Finmap fun _ : String => User
  hidden : Finset String
  source : List User

namespace OverlayMap

variable (m : OverlayMap)

def sourceRecord (source : List User) (n : String) : Option User :=
  lastValue (source.map fun user => (user.name,user)) n

def record (n : String) : Option User :=
  (m.overlay.lookup n).or (if n ∈ m.hidden then none else sourceRecord m.source n)

def sourceNames : List String := firstKeys ((m.source.map User.name).filter (· ∉ m.hidden))

def names : List String :=
  m.sourceNames ++ (m.overlay.keys.filter (· ∉ m.sourceNames)).sort (· ≤ ·)

def users : List User := m.names.map fun n => (m.record n).getD .zero

/-- A record carries the name it is stored under, and no name is both edited and hidden. -/
structure Valid : Prop where
  named : ∀ n user, m.overlay.lookup n = some user → user.name = n
  disjoint : ∀ n, n ∈ m.hidden → m.overlay.lookup n = none

end OverlayMap

lemma mergeSources_eq (deleted : Finset String) (source : List User) :
    mergeSources deleted source = Merge.empty.putAll
      ((source.filter (·.name ∉ deleted)).map fun user => (user.name,user)) := by
  have hf : ∀ m : Merge String User,
      source.foldl (fun m user => if user.name ∈ deleted then m else m.put user.name user) m =
        m.putAll ((source.filter (·.name ∉ deleted)).map fun user => (user.name,user)) := by
    induction source with
    | nil => exact fun _ => rfl
    | cons user source ih =>
      intro m
      rw [List.foldl_cons,ih]
      by_cases h : user.name ∈ deleted
      · rw [if_pos h,List.filter_cons_of_neg (by simpa using h)]
      · rw [if_neg h,List.filter_cons_of_pos (by simpa using h)]
        rfl
  exact hf .empty

lemma sourceRecord_filter (deleted : Finset String) (source : List User) (n : String) :
    lastValue ((source.filter (·.name ∉ deleted)).map fun user => (user.name,user)) n =
      if n ∈ deleted then none else OverlayMap.sourceRecord source n := by
  induction source using List.reverseRecOn with
  | nil => simp [OverlayMap.sourceRecord,lastValue]
  | append_singleton source user ih =>
    unfold OverlayMap.sourceRecord at ih ⊢
    rw [List.filter_append,List.map_append,List.map_append]
    have hl : [user].map (fun user => (user.name,user)) = [(user.name,user)] := rfl
    rw [hl,lastValue_append_singleton]
    by_cases h : user.name ∈ deleted
    · rw [List.filter_cons_of_neg (by simpa using h),List.filter_nil,List.map_nil,
        List.append_nil,ih]
      split_ifs with hn heq
      · rfl
      · exact absurd ((show user.name = n from heq) ▸ h) hn
      · rfl
    · rw [List.filter_cons_of_pos (by simpa using h),List.filter_nil,hl,
        lastValue_append_singleton,ih]
      split_ifs with heq hn
      · exact absurd ((show user.name = n from heq) ▸ hn) h
      · rfl
      · rfl
      · rfl

lemma mergeSources_entries (deleted : Finset String) (source : List User) (n : String) :
    (mergeSources deleted source).entries n =
      if n ∈ deleted then none else OverlayMap.sourceRecord source n := by
  rw [mergeSources_eq,putAll_entries,sourceRecord_filter,Merge.empty,Option.or_none]

lemma mergeSources_names (deleted : Finset String) (source : List User) :
    (mergeSources deleted source).names =
      firstKeys ((source.map User.name).filter (· ∉ deleted)) := by
  have hn : ((source.filter (·.name ∉ deleted)).map fun user => (user.name,user)).map
      Prod.fst = (source.map User.name).filter (· ∉ deleted) := by
    rw [List.map_map,List.filter_map]
    rfl
  rw [mergeSources_eq,putAll_names,hn]
  simp [Merge.empty]

def entriesIn (overlay : AList fun _ : String => User) (order : List String) :
    List (String × User) :=
  order.filterMap fun n => (overlay.lookup n).map (n,·)

lemma mergeOverlay_eq (overlay : AList fun _ : String => User) (order : List String)
    (m : Merge String User) :
    mergeOverlay overlay order m = { m with names := [] }.putAll (entriesIn overlay order) := by
  rw [mergeOverlay]
  generalize { m with names := [] } = m
  induction order generalizing m with
  | nil => rfl
  | cons n order ih =>
    rw [List.foldl_cons,ih,entriesIn,entriesIn]
    cases h : overlay.lookup n with
    | none => rw [List.filterMap_cons_none (by simp [h])]
    | some user =>
      rw [List.filterMap_cons_some (b := (n,user)) (by simp [h])]
      rfl

section iteration

variable {overlay : AList fun _ : String => User} {order : List String}

lemma entriesIn_keys (h : order.Perm overlay.keys) :
    (entriesIn overlay order).map Prod.fst = order := by
  have hl : ∀ n ∈ order,(overlay.lookup n).isSome := fun n hn =>
    AList.lookup_isSome.mpr (AList.mem_keys.mpr (h.subset hn))
  clear h
  induction order with
  | nil => rfl
  | cons n order ih =>
    obtain ⟨user,hu⟩ := Option.isSome_iff_exists.mp (hl n List.mem_cons_self)
    rw [entriesIn,List.filterMap_cons_some (b := (n,user)) (by simp [hu]),List.map_cons]
    exact congrArg (n :: ·) (ih fun k hk => hl k (List.mem_cons_of_mem n hk))

lemma lastValue_entriesIn (h : order.Perm overlay.keys) (n : String) :
    lastValue (entriesIn overlay order) n = overlay.lookup n := by
  cases hv : lastValue (entriesIn overlay order) n with
  | some user =>
    obtain ⟨k,-,hk⟩ := List.mem_filterMap.mp (lastValue_key hv)
    obtain ⟨user',hu',heq⟩ := Option.map_eq_some_iff.mp hk
    rw [Prod.mk.injEq] at heq
    rw [← heq.1,← heq.2,hu']
  | none =>
    have hno : n ∉ order := by
      intro hn
      rw [← entriesIn_keys h,← lastValue_isSome,hv] at hn
      exact Bool.false_ne_true hn
    have hke : n ∉ overlay := fun hn => hno (h.symm.subset (AList.mem_keys.mp hn))
    exact (AList.lookup_eq_none.mpr hke).symm

lemma mergeOverlay_entries (h : order.Perm overlay.keys) (m : Merge String User) (n : String) :
    (mergeOverlay overlay order m).entries n = (overlay.lookup n).or (m.entries n) := by
  rw [mergeOverlay_eq,putAll_entries,lastValue_entriesIn h]

lemma mergeOverlay_names (h : order.Perm overlay.keys) (m : Merge String User) :
    (mergeOverlay overlay order m).names = order.filter fun n => (m.entries n).isNone := by
  have hn : order.Nodup := h.nodup_iff.mpr overlay.keys_nodup
  rw [mergeOverlay_eq,putAll_names,entriesIn_keys h,firstKeys_of_nodup (hn.filter _)]
  rfl

end iteration

namespace OverlayMap

variable {m : OverlayMap} {n : String}

lemma sourceRecord_isSome {source : List User} :
    (sourceRecord source n).isSome ↔ n ∈ source.map User.name := by
  rw [sourceRecord,lastValue_isSome,List.map_map]
  rfl

lemma sourceRecord_name {source : List User} {user : User}
    (h : sourceRecord source n = some user) : user.name = n := by
  obtain ⟨user',-,heq⟩ := List.mem_map.mp (lastValue_key h)
  rw [Prod.mk.injEq] at heq
  rw [← heq.2,heq.1]

lemma mem_sourceNames : n ∈ m.sourceNames ↔ n ∈ m.source.map User.name ∧ n ∉ m.hidden := by
  simp [sourceNames]

lemma record_isSome : (m.record n).isSome ↔ n ∈ m.overlay.keys ∨ n ∈ m.sourceNames := by
  have ho : (m.overlay.lookup n).isSome ↔ n ∈ m.overlay.keys := by
    rw [Finmap.mem_keys,Finmap.lookup_isSome]
  rw [record,Option.isSome_or,Bool.or_eq_true,ho,mem_sourceNames,← sourceRecord_isSome]
  by_cases h : n ∈ m.hidden
  · simp [h]
  · simp [h]

lemma mem_names : n ∈ m.names ↔ (m.record n).isSome := by
  rw [record_isSome,names,List.mem_append,Finset.mem_sort,Finset.mem_filter]
  tauto

lemma nodup_names (m : OverlayMap) : m.names.Nodup := by
  refine (nodup_firstKeys _).append (Finset.sort_nodup _ _) fun n hs ho => ?_
  rw [Finset.mem_sort,Finset.mem_filter] at ho
  exact ho.2 hs

section valid

variable (hm : m.Valid)

include hm

lemma record_name {user : User} (h : m.record n = some user) : user.name = n := by
  rw [record,Option.or_eq_some_iff] at h
  rcases h with h | ⟨-,h⟩
  · exact hm.named n user h
  · split_ifs at h
    exact sourceRecord_name h

lemma map_name_users : m.users.map User.name = m.names := by
  rw [users,List.map_map]
  refine (List.map_congr_left fun n hn => ?_).trans m.names.map_id
  obtain ⟨user,hu⟩ := Option.isSome_iff_exists.mp (mem_names.mp hn)
  simp only [Function.comp_apply,hu,Option.getD_some,id_eq]
  exact record_name hm hu

lemma record_of_mem {user : User} (h : user ∈ m.users) : m.record user.name = some user := by
  obtain ⟨n,hn,rfl⟩ := List.mem_map.mp h
  obtain ⟨user,hu⟩ := Option.isSome_iff_exists.mp (mem_names.mp hn)
  rw [hu,Option.getD_some,record_name hm hu,hu]

lemma find_users (n : String) : m.users.find? (·.name = n) = m.record n := by
  cases hf : m.users.find? (·.name = n) with
  | some user =>
    have hna : user.name = n := by simpa using List.find?_some hf
    rw [← hna,record_of_mem hm (List.mem_of_find?_eq_some hf)]
  | none =>
    rw [List.find?_eq_none] at hf
    have hno : n ∉ m.names := by
      rw [← map_name_users hm]
      intro hn
      obtain ⟨user,hu,hna⟩ := List.mem_map.mp hn
      exact hf user hu (by simpa using hna)
    rw [mem_names,Option.not_isSome_iff_eq_none] at hno
    exact hno.symm

lemma any_users (n : String) : m.users.any (·.name = n) = (m.record n).isSome := by
  rw [← find_users hm,Bool.eq_iff_iff,List.any_eq_true,List.find?_isSome]

end valid

end OverlayMap

/-- The edits of the provider over the given users of the sources. -/
def Provider.overlayMap (p : Provider) (source : List User) : OverlayMap :=
  ⟨p.overlayUsers.toFinmap,p.deletedUsers,source⟩

lemma Provider.merged_eq (p : Provider) {order : List String}
    (h : order.Perm p.overlayUsers.keys) (source : List User) :
    p.merged order source = (p.overlayMap source).users := by
  let m := p.overlayMap source
  let merge := mergeSources p.deletedUsers source
  have he : ∀ n,(mergeOverlay p.overlayUsers order merge).entries n = m.record n := by
    intro n
    rw [mergeOverlay_entries h,mergeSources_entries]
    exact congrArg (Option.or · _) (Finmap.lookup_toFinmap n p.overlayUsers).symm
  have hnn : ∀ n,(merge.entries n).isNone ↔ n ∉ m.sourceNames := by
    intro n
    rw [mergeSources_entries,OverlayMap.mem_sourceNames,← OverlayMap.sourceRecord_isSome]
    by_cases hn : n ∈ p.deletedUsers
    · simp [hn,m,overlayMap]
    · simp [hn,m,overlayMap]
  have hs : (mergeOverlay p.overlayUsers order merge).names.insertionSort (· ≤ ·) =
      (m.overlay.keys.filter (· ∉ m.sourceNames)).sort (· ≤ ·) := by
    have hno : order.Nodup := h.nodup_iff.mpr p.overlayUsers.keys_nodup
    have hp := List.perm_insertionSort (· ≤ ·) (mergeOverlay p.overlayUsers order merge).names
    refine List.Perm.eq_of_pairwise (fun _ _ _ _ hab hba => le_antisymm hab hba)
      (List.pairwise_insertionSort _ _) (Finset.pairwise_sort _ _) (hp.trans ?_)
    rw [mergeOverlay_names h,List.perm_ext_iff_of_nodup (hno.filter _) (Finset.sort_nodup _ _)]
    intro n
    rw [List.mem_filter,Finset.mem_sort,Finset.mem_filter,hnn]
    exact and_congr_left fun _ => h.mem_iff
  rw [merged,mergeSources_names,hs]
  exact List.map_congr_left fun n _ => congrArg (Option.getD · User.zero) (he n)

inductive Op
  | create (user : User)
  | update (name : String) (patch : UserPatch)
  | delete (name : String)
  | reload
  deriving DecidableEq

def Op.name : Op → Option String
  | .create user => some user.name
  | .update name _ => some name
  | .delete name => some name
  | .reload => none

/-- The read of the sources that the new visible users are merged from. -/
def Op.lastRead : Op → ℕ
  | .create _ | .update _ _ => 1
  | .delete _ => 2
  | .reload => 0

def Provider.step (p : Provider) (env : Env) : Op → Except ProviderError Unit × Provider
  | .create user => p.createUser env user
  | .update name patch => p.updateUser env name patch
  | .delete name => p.deleteUser env name
  | .reload => p.loadAndPush env 0

/-- Everything that an operation reads can be read, and the push succeeds. -/
structure Env.Good (env : Env) : Prop where
  readable : ∀ i, (env.read i).file.isSome
  pushed : env.pushed = true

def Env.sources (env : Env) (i : ℕ) : List User :=
  let c := env.read i
  c.inline ++ c.file.getD [] ++ c.http ++ c.redis ++ c.postgres

lemma Env.Good.sourceUsers_eq {env : Env} (h : env.Good) (i : ℕ) :
    sourceUsers (env.read i) = .ok (env.sources i) := by
  obtain ⟨file,hf⟩ := Option.isSome_iff_exists.mp (h.readable i)
  rw [sourceUsers,hf,sources,hf]
  rfl

namespace OverlayMap

def withSource (m : OverlayMap) (source : List User) : OverlayMap := { m with source }

/-- What an operation does to the map, given what its reads of the sources find. -/
def step (m : OverlayMap) (sources : ℕ → List User) : Op → OverlayMap
  | .create user =>
    if user.name = "" ∨ ((m.withSource (sources 0)).record user.name).isSome then m
    else ⟨m.overlay.insert user.name user,m.hidden.erase user.name,sources 1⟩
  | .update name patch =>
    match (m.withSource (sources 0)).record name with
    | none => m
    | some current =>
      ⟨m.overlay.insert name (patch.apply current),m.hidden.erase name,sources 1⟩
  | .delete name =>
    if ((m.withSource (sources 0)).record name).isSome then
      ⟨m.overlay.erase name,
        if name ∈ (sources 1).map User.name then insert name m.hidden else m.hidden.erase name,
        sources 2⟩
    else m
  | .reload => m.withSource (sources 0)

end OverlayMap

/-- The provider with the users of the sources that it loaded last. -/
structure Tracked where
  provider : Provider
  source : List User

namespace Tracked

def new : Tracked := ⟨.new,[]⟩

def step (s : Tracked) (e : Op × Env) : Tracked :=
  match s.provider.step e.2 e.1 with
  | (.ok (),provider) => ⟨provider,e.2.sources e.1.lastRead⟩
  | (.error _,provider) => { s with provider }

def run (s : Tracked) (history : List (Op × Env)) : Tracked := history.foldl step s

def map (s : Tracked) : OverlayMap := s.provider.overlayMap s.source

structure Shows (s : Tracked) : Prop where
  valid : s.map.Valid
  users : s.provider.allUsers = s.map.users

end Tracked

namespace OverlayMap

variable {m : OverlayMap} {sources : ℕ → List User}

lemma valid_withSource (hm : m.Valid) (source : List User) : (m.withSource source).Valid :=
  ⟨hm.named,hm.disjoint⟩

lemma valid_insert (hm : m.Valid) {n : String} {user : User} (hn : user.name = n)
    (source : List User) : Valid ⟨m.overlay.insert n user,m.hidden.erase n,source⟩ := by
  constructor
  · intro k user' h
    by_cases hk : k = n
    · subst hk
      rw [Finmap.lookup_insert] at h
      exact (Option.some.inj h) ▸ hn
    · rw [Finmap.lookup_insert_of_ne _ hk] at h
      exact hm.named k user' h
  · intro k hk
    obtain ⟨hne,hk⟩ := Finset.mem_erase.mp hk
    rw [Finmap.lookup_insert_of_ne _ hne]
    exact hm.disjoint k hk

lemma valid_erase (hm : m.Valid) {n : String} {hidden : Finset String}
    (hh : ∀ k ∈ hidden,k = n ∨ k ∈ m.hidden) (source : List User) :
    Valid ⟨m.overlay.erase n,hidden,source⟩ := by
  have hl : ∀ k,k ≠ n → (m.overlay.erase n).lookup k = m.overlay.lookup k :=
    fun k hk => Finmap.lookup_erase_ne hk
  constructor
  · intro k user h
    by_cases hk : k = n
    · subst hk
      rw [Finmap.lookup_erase] at h
      cases h
    · rw [hl k hk] at h
      exact hm.named k user h
  · intro k hk
    by_cases hn : k = n
    · subst hn
      exact Finmap.lookup_erase _ _
    · rw [hl k hn]
      exact hm.disjoint k ((hh k hk).resolve_left hn)

lemma step_valid (hm : m.Valid) (op : Op) : (m.step sources op).Valid := by
  cases op with
  | create user =>
    rw [step]
    split_ifs
    · exact hm
    · exact valid_insert hm rfl _
  | update name patch =>
    rw [step]
    cases hr : (m.withSource (sources 0)).record name with
    | none => exact hm
    | some current =>
      have hcu : current.name = name := record_name (valid_withSource hm _) hr
      have hn : (patch.apply current).name = name := hcu
      exact valid_insert hm hn _
  | delete name =>
    rw [step]
    split_ifs with hold hs
    · exact valid_erase hm (fun k hk => Finset.mem_insert.mp hk) _
    · exact valid_erase hm (fun k hk => .inr (Finset.mem_of_mem_erase hk)) _
    · exact hm
  | reload => exact ⟨hm.named,hm.disjoint⟩

lemma step_edits (m : OverlayMap) (sources : ℕ → List User) {n : String} {op : Op}
    (hn : op.name ≠ some n) :
    (m.step sources op).overlay.lookup n = m.overlay.lookup n ∧
      (n ∈ (m.step sources op).hidden ↔ n ∈ m.hidden) ∧
      ((m.step sources op).source = m.source ∨
        (m.step sources op).source = sources op.lastRead) := by
  cases op with
  | create user =>
    have hne : n ≠ user.name := fun h => hn (congrArg some h.symm)
    rw [step]
    split_ifs
    · exact ⟨rfl,Iff.rfl,.inl rfl⟩
    · exact ⟨Finmap.lookup_insert_of_ne _ hne,by simp [hne],.inr rfl⟩
  | update name patch =>
    have hne : n ≠ name := fun h => hn (congrArg some h.symm)
    rw [step]
    cases (m.withSource (sources 0)).record name with
    | none => exact ⟨rfl,Iff.rfl,.inl rfl⟩
    | some current => exact ⟨Finmap.lookup_insert_of_ne _ hne,by simp [hne],.inr rfl⟩
  | delete name =>
    have hne : n ≠ name := fun h => hn (congrArg some h.symm)
    rw [step]
    split_ifs
    · exact ⟨Finmap.lookup_erase_ne hne,by simp [hne],.inr rfl⟩
    · exact ⟨Finmap.lookup_erase_ne hne,by simp [hne],.inr rfl⟩
    · exact ⟨rfl,Iff.rfl,.inl rfl⟩
  | reload => exact ⟨rfl,Iff.rfl,.inr rfl⟩

lemma step_record_of_ne {n : String} {op : Op} (hn : op.name ≠ some n)
    (hso : sources op.lastRead = m.source) : (m.step sources op).record n = m.record n := by
  obtain ⟨ho,hh,hs⟩ := step_edits m sources hn
  have hsa : (m.step sources op).source = m.source := hs.elim id fun h => h.trans hso
  simp only [record,ho,hh,hsa]

lemma record_of_hidden (hm : m.Valid) {n : String} (hn : n ∈ m.hidden) : m.record n = none := by
  rw [record,hm.disjoint n hn,if_pos hn]
  rfl

lemma step_hidden (hm : m.Valid) {n : String} {op : Op} (hn : n ∈ m.hidden)
    (hop : ∀ user,op = .create user → user.name ≠ n) : n ∈ (m.step sources op).hidden := by
  have hr : (m.withSource (sources 0)).record n = none :=
    record_of_hidden (valid_withSource hm _) hn
  cases op with
  | create user =>
    rw [step]
    split_ifs
    · exact hn
    · exact Finset.mem_erase.mpr ⟨Ne.symm (hop user rfl),hn⟩
  | update name patch =>
    rw [step]
    by_cases hna : name = n
    · rw [hna,hr]
      exact hn
    · cases (m.withSource (sources 0)).record name with
      | none => exact hn
      | some current => exact Finset.mem_erase.mpr ⟨Ne.symm hna,hn⟩
  | delete name =>
    rw [step]
    by_cases hna : name = n
    · rw [hna,hr]
      exact hn
    · split_ifs
      · exact Finset.mem_insert_of_mem hn
      · exact Finset.mem_erase.mpr ⟨Ne.symm hna,hn⟩
      · exact hn
  | reload => exact hn

end OverlayMap

section refinement

variable {p : Provider} {env : Env}

lemma mergedUsers_of_read {i : ℕ} {source : List User}
    (hr : sourceUsers (env.read i) = .ok source) :
    p.mergedUsers env i = .ok (p.overlayMap source).users := by
  rw [Provider.mergedUsers,hr]
  exact congrArg Except.ok (p.merged_eq (env.perm i _) _)

lemma mergedUsers_eq (h : env.Good) (i : ℕ) :
    p.mergedUsers env i = .ok (p.overlayMap (env.sources i)).users :=
  mergedUsers_of_read (h.sourceUsers_eq i)

lemma loadAndPush_eq (h : env.Good) (i : ℕ) : p.loadAndPush env i =
    (.ok (),{ p with allUsers := (p.overlayMap (env.sources i)).users }) := by
  rw [Provider.loadAndPush,mergedUsers_eq h,h.pushed]
  rfl

lemma Tracked.step_refines {s : Tracked} (hs : s.Shows) (h : env.Good) (op : Op) :
    (s.step (op,env)).map = s.map.step env.sources op ∧
      (s.step (op,env)).provider.allUsers = (s.step (op,env)).map.users := by
  have hv : ∀ source,(s.provider.overlayMap source).Valid :=
    fun _ => ⟨hs.valid.named,hs.valid.disjoint⟩
  have ha : ∀ i name,(s.provider.overlayMap (env.sources i)).users.any (·.name = name) =
      ((s.map.withSource (env.sources i)).record name).isSome := fun i name =>
    OverlayMap.any_users (hv _) name
  have hf : ∀ i name,(s.provider.overlayMap (env.sources i)).users.find? (·.name = name) =
      (s.map.withSource (env.sources i)).record name := fun i name =>
    OverlayMap.find_users (hv _) name
  cases op with
  | create user =>
    simp only [Tracked.step,Provider.step,Provider.createUser,mergedUsers_eq h,ha,OverlayMap.step]
    by_cases hn : user.name = ""
    · rw [if_pos hn,if_pos (.inl hn)]
      exact ⟨rfl,hs.users⟩
    · by_cases hold : ((s.map.withSource (env.sources 0)).record user.name).isSome
      · rw [if_neg hn,if_pos hold,if_pos (.inr hold)]
        exact ⟨rfl,hs.users⟩
      · rw [if_neg hn,if_neg hold,if_neg (not_or.mpr ⟨hn,hold⟩),loadAndPush_eq h]
        exact ⟨congrArg (OverlayMap.mk · _ _) (Finmap.insert_toFinmap _ _ _).symm,rfl⟩
  | update name patch =>
    simp only [Tracked.step,Provider.step,Provider.updateUser,mergedUsers_eq h,hf,OverlayMap.step]
    cases (s.map.withSource (env.sources 0)).record name with
    | none => exact ⟨rfl,hs.users⟩
    | some current =>
      simp only [loadAndPush_eq h]
      exact ⟨congrArg (OverlayMap.mk · _ _) (Finmap.insert_toFinmap _ _ _).symm,rfl⟩
  | delete name =>
    simp only [Tracked.step,Provider.step,Provider.deleteUser,mergedUsers_eq h,ha,
      h.sourceUsers_eq,OverlayMap.step]
    by_cases hold : ((s.map.withSource (env.sources 0)).record name).isSome
    · have hso : ((env.sources 1).any (·.name = name) = true) =
          (name ∈ (env.sources 1).map User.name) := by
        simp
      simp only [if_pos hold,loadAndPush_eq h,hso]
      exact ⟨congrArg (OverlayMap.mk · _ _) (Finmap.erase_toFinmap _ _).symm,rfl⟩
    · rw [if_neg hold,if_neg hold]
      exact ⟨rfl,hs.users⟩
  | reload =>
    simp only [Tracked.step,Provider.step,loadAndPush_eq h]
    exact ⟨rfl,rfl⟩

lemma Tracked.step_shows {s : Tracked} (hs : s.Shows) {e : Op × Env} (h : e.2.Good) :
    (s.step e).Shows := by
  obtain ⟨hma,hu⟩ := step_refines hs h e.1
  exact ⟨hma ▸ OverlayMap.step_valid hs.valid e.1,hu⟩

lemma Tracked.run_shows {s : Tracked} (hs : s.Shows) {history : List (Op × Env)}
    (h : ∀ e ∈ history,e.2.Good) : (s.run history).Shows := by
  induction history generalizing s with
  | nil => exact hs
  | cons e history ih =>
    exact ih (step_shows hs (h e List.mem_cons_self)) fun e' he' => h e' (List.mem_cons_of_mem e he')

lemma Tracked.new_shows : new.Shows := by
  have hno : ∀ n,new.map.record n = none := fun _ => rfl
  have hna : new.map.names = [] := by
    rw [List.eq_nil_iff_forall_not_mem]
    intro n hn
    rw [OverlayMap.mem_names,hno] at hn
    exact Bool.false_ne_true hn
  refine ⟨⟨fun n user h => ?_,fun n hn => ?_⟩,?_⟩
  · cases h
  · cases hn
  · rw [OverlayMap.users,hna]
    rfl

lemma Tracked.Shows.getUser_eq {s : Tracked} (hs : s.Shows) (n : String) :
    s.provider.getUser n = s.map.record n := by
  rw [Provider.getUser,hs.users,OverlayMap.find_users hs.valid]

lemma Tracked.run_hidden {s : Tracked} (hs : s.Shows) {n : String} {history : List (Op × Env)}
    (h : ∀ e ∈ history,e.2.Good ∧ ∀ user,e.1 = .create user → user.name ≠ n)
    (hn : n ∈ s.map.hidden) : n ∈ (s.run history).map.hidden := by
  induction history generalizing s with
  | nil => exact hn
  | cons e history ih =>
    obtain ⟨hg,hcr⟩ := h e List.mem_cons_self
    have hma := (step_refines hs hg e.1).1
    refine ih (step_shows hs hg) (fun e' he' => h e' (List.mem_cons_of_mem e he')) ?_
    rw [show (s.step e).map = _ from hma]
    exact OverlayMap.step_hidden hs.valid hn hcr

lemma Tracked.delete_hides {s : Tracked} (hs : s.Shows) {n : String} (h : env.Good)
    (hok : (s.provider.deleteUser env n).1 = .ok ()) (hn : n ∈ (env.sources 1).map User.name) :
    n ∈ (s.step (.delete n,env)).map.hidden := by
  rw [(step_refines hs h (.delete n)).1,OverlayMap.step]
  have hold : ((s.map.withSource (env.sources 0)).record n).isSome := by
    by_contra hno
    have ha : (s.provider.overlayMap (env.sources 0)).users.any (·.name = n) = false :=
      (OverlayMap.any_users (OverlayMap.valid_withSource hs.valid (env.sources 0)) n).trans
        (Bool.eq_false_iff.mpr hno)
    simp [Provider.deleteUser,mergedUsers_eq h,ha] at hok
  rw [if_pos hold,if_pos hn]
  exact Finset.mem_insert_self _ _

end refinement

/-- What holds of the edits of a provider in whatever surroundings. -/
def Provider.Valid (p : Provider) : Prop := (p.overlayMap []).Valid

section edits

variable {p : Provider} {env : Env} {source : List User} {name : String}

lemma Provider.Valid.overlayMap (hp : p.Valid) (source : List User) :
    (p.overlayMap source).Valid := ⟨hp.named,hp.disjoint⟩

lemma Provider.insert_valid (hp : p.Valid) {user : User} (hn : user.name = name)
    (allUsers : List User) :
    Valid ⟨p.overlayUsers.insert name user,p.deletedUsers.erase name,allUsers⟩ := by
  have h := OverlayMap.valid_insert hp hn []
  rw [show (p.overlayMap []).overlay.insert name user = (p.overlayUsers.insert name user).toFinmap
    from Finmap.insert_toFinmap _ _ _] at h
  exact h

lemma Provider.erase_valid (hp : p.Valid) {deleted : Finset String}
    (hd : ∀ k ∈ deleted,k = name ∨ k ∈ p.deletedUsers) (allUsers : List User) :
    Valid ⟨p.overlayUsers.erase name,deleted,allUsers⟩ := by
  have h := OverlayMap.valid_erase hp hd []
  rw [show (p.overlayMap []).overlay.erase name = (p.overlayUsers.erase name).toFinmap
    from Finmap.erase_toFinmap _ _] at h
  exact h

lemma Provider.loadAndPush_valid (hp : p.Valid) (env : Env) (i : ℕ) :
    (p.loadAndPush env i).2.Valid := by
  unfold loadAndPush
  cases p.mergedUsers env i <;> exact hp

/-- The edits of a provider are valid whatever it reads and whatever fails. -/
theorem Provider.step_valid (hp : p.Valid) (env : Env) (op : Op) : (p.step env op).2.Valid := by
  cases op with
  | create user =>
    unfold step createUser
    dsimp only
    split_ifs
    · exact hp
    · cases p.mergedUsers env 0 with
      | error err => exact hp
      | ok users =>
        dsimp only
        split_ifs
        · exact hp
        · exact loadAndPush_valid (insert_valid hp rfl _) env 1
  | update name patch =>
    unfold step updateUser
    cases p.mergedUsers env 0 with
    | error err => exact hp
    | ok users =>
      dsimp only
      cases hf : users.find? (·.name = name) with
      | none => exact hp
      | some current =>
        have hn : current.name = name := by simpa using List.find?_some hf
        have hpa : (patch.apply current).name = name := hn
        exact loadAndPush_valid (insert_valid hp hpa _) env 1
  | delete name =>
    unfold step deleteUser
    cases p.mergedUsers env 0 with
    | error err => exact hp
    | ok users =>
      dsimp only
      split_ifs
      · cases sourceUsers (env.read 1) with
        | error err => exact hp
        | ok source =>
          refine loadAndPush_valid (erase_valid hp (fun k hk => ?_) _) env 2
          split_ifs at hk
          · exact Finset.mem_insert.mp hk
          · exact .inr (Finset.mem_of_mem_erase hk)
      · exact hp
  | reload => exact loadAndPush_valid hp env 0

end edits

/-- The provider is an overlay map. Whatever the sources hold at each read and in whatever
order the overlay is ranged over, the visible list is the list of the map, whose order
depends on the contents only; an operation edits its own name; and a deleted source user
stays invisible until it is created. -/
theorem provider_refines_overlay (history : List (Op × Env)) (hgood : ∀ e ∈ history, e.2.Good) :
    let s := Tracked.new.run history
    (∀ n ∈ s.provider.deletedUsers, s.provider.overlayUsers.lookup n = none) ∧
    (s.provider.allUsers.map User.name).Nodup ∧
    (∀ n, s.provider.getUser n = s.map.record n) ∧
    s.provider.allUsers.map User.name = s.map.names ∧
    (∀ op env, env.Good → (s.step (op,env)).map = s.map.step env.sources op ∧
      ∀ n, op.name ≠ some n → env.sources op.lastRead = s.source →
        (s.step (op,env)).provider.getUser n = s.provider.getUser n) ∧
    ∀ n env later, env.Good → (∀ e ∈ later, e.2.Good ∧ ∀ user, e.1 = .create user → user.name ≠ n) →
      (s.provider.deleteUser env n).1 = .ok () → n ∈ (env.sources 1).map User.name →
      ((s.step (.delete n,env)).run later).provider.getUser n = none := by
  intro s
  have hs : s.Shows := Tracked.run_shows Tracked.new_shows hgood
  have hna : s.provider.allUsers.map User.name = s.map.names := by
    rw [hs.users,OverlayMap.map_name_users hs.valid]
  refine ⟨fun n hn => ?_,hna ▸ s.map.nodup_names,hs.getUser_eq,hna,?_,?_⟩
  · rw [← Finmap.lookup_toFinmap]
    exact hs.valid.disjoint n hn
  · intro op env h
    have hma := (Tracked.step_refines hs h op).1
    refine ⟨hma,fun n hn hso => ?_⟩
    rw [(Tracked.step_shows hs (e := (op,env)) h).getUser_eq,hs.getUser_eq,hma]
    exact OverlayMap.step_record_of_ne hn hso
  · intro n env later h hl hok hn
    have hst := Tracked.step_shows hs (e := (.delete n,env)) h
    have hh := Tracked.run_hidden hst hl (Tracked.delete_hides hs h hok hn)
    have hr := Tracked.run_shows hst fun e he => (hl e he).1
    rw [hr.getUser_eq]
    exact OverlayMap.record_of_hidden hr.valid hh

def steadyEnv (users : List User) : Env :=
  ⟨fun _ => ⟨[],some users,[],[],[]⟩,fun _ names => names,fun _ _ => .refl _,true⟩

lemma steadyEnv_good (users : List User) : (steadyEnv users).Good := ⟨fun _ => rfl,rfl⟩

def aliceUser (password : String) : User := ⟨"alice",password,"",0,""⟩

/-- Alice's password changes in the file; it is the creation of bob that shows it. -/
theorem create_shows_source_change :
    let s := Tracked.new.run [(.reload,steadyEnv [aliceUser "old"])]
    let s' := s.step (.create ⟨"bob","secret","",0,""⟩,steadyEnv [aliceUser "new"])
    s.provider.getUser "alice" = some (aliceUser "old") ∧
      s'.provider.getUser "alice" = some (aliceUser "new") := by
  decide +kernel

/-- Alice is deleted, and a reload of the file does not bring alice back. -/
theorem provider_refines_overlay_alice :
    ((((Tracked.new.run [(.reload,steadyEnv [aliceUser "old"])]).step
      (.delete "alice",steadyEnv [aliceUser "old"])).run
        [(.reload,steadyEnv [aliceUser "new"])]).provider.getUser "alice") = none := by
  have hg : ∀ e ∈ [(Op.reload,steadyEnv [aliceUser "old"])], e.2.Good := by
    intro e he
    rw [List.mem_singleton.mp he]
    exact steadyEnv_good _
  obtain ⟨-,-,-,-,-,hd⟩ := provider_refines_overlay _ hg
  refine hd "alice" (steadyEnv [aliceUser "old"]) [(.reload,steadyEnv [aliceUser "new"])]
    (steadyEnv_good _) (fun e he => ?_) (by decide +kernel) (by decide +kernel)
  rw [List.mem_singleton.mp he]
  exact ⟨steadyEnv_good _,nofun⟩

end SingBoxAuth.UserProvider
