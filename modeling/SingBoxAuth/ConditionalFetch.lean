import Mathlib.Data.Int.Notation
import Mathlib.Data.Option.Basic
import SingBoxAuth.Transitions

/-! Conditional fetches: the users of an HTTP source and the rules of a remote rule-set, each kept
with the ETag that the next request carries, while the server changes what it holds. -/
namespace SingBoxAuth.ConditionalFetch
open Transitions

variable {Body User Rule α : Type}

structure Content (Body : Type) where
  body : Body
  etag : Option String

inductive Response (Body : Type)
  | ok (body : Body) (etagHeader : String)
  | notModified

def Content.respond (current : Content Body) (ifNoneMatch : Option String) : Response Body :=
  if ifNoneMatch.isSome ∧ current.etag = ifNoneMatch then .notModified
  else .ok current.body (current.etag.getD "")

/-- The surroundings of one fetch: what the server holds, whether its response arrives, whether
the cache file can be written, and the time. -/
structure Fetch (Body : Type) where
  current : Content Body
  arrives : Bool
  saves : Bool
  now : ℤ

/-- A request that fails, another status and a body that ends early are no response. -/
def Fetch.exchange (f : Fetch Body) (lastEtag : String) : Option (Response Body) :=
  if f.arrives then some (f.current.respond (if lastEtag ≠ "" then some lastEtag else none))
  else none

structure HTTPSource (User : Type) where
  lastEtag : String
  cachedUsers : List User

def HTTPSource.fetch (unmarshal : Body → Option (List User)) (s : HTTPSource User)
    (f : Fetch Body) : Bool × HTTPSource User :=
  match f.exchange s.lastEtag with
  | none => (false,s)
  | some .notModified => (true,s)
  | some (.ok content eTagHeader) =>
    match unmarshal content with
    | none => (false,s)
    | some users => (true,⟨if eTagHeader ≠ "" then eTagHeader else s.lastEtag,users⟩)

structure SavedBinary (Body : Type) where
  content : Body
  lastUpdated : ℤ
  lastEtag : String

/-- A rule-set that is referred to, so that Cleanup and updateOnce leave its rules. It may have a
cache file, which may hold what was saved under its tag; lastUpdated is none for the zero time. -/
structure RemoteRuleSet (Body Rule : Type) where
  rules : List Rule
  lastEtag : String
  lastUpdated : Option ℤ
  cacheFile : Option (Option (SavedBinary Body))

namespace RemoteRuleSet

def saveRuleSet (s : RemoteRuleSet Body Rule) (saves : Bool) (saved : SavedBinary Body) :
    RemoteRuleSet Body Rule :=
  { s with cacheFile := s.cacheFile.map fun old => if saves then some saved else old }

def fetch (loadBytes : Body → Option (List Rule)) (s : RemoteRuleSet Body Rule) (f : Fetch Body) :
    Bool × RemoteRuleSet Body Rule :=
  match f.exchange s.lastEtag with
  | none => (false,s)
  | some .notModified =>
    let s := { s with lastUpdated := some f.now }
    match s.cacheFile with
    | some (some saved) => (true,s.saveRuleSet f.saves { saved with lastUpdated := f.now })
    | _ => (true,s)
  | some (.ok content eTagHeader) =>
    match loadBytes content with
    | none => (false,s)
    | some rules =>
      let lastEtag := if eTagHeader ≠ "" then eTagHeader else s.lastEtag
      let s := { s with rules, lastEtag, lastUpdated := some f.now }
      (true,s.saveRuleSet f.saves ⟨content,f.now,lastEtag⟩)

/-- What is saved has been updated at some time, so that only a start without it fetches. -/
def startContext (loadBytes : Body → Option (List Rule))
    (cacheFile : Option (Option (SavedBinary Body))) (f : Fetch Body) :
    Bool × RemoteRuleSet Body Rule :=
  let s : RemoteRuleSet Body Rule := ⟨[],"",none,cacheFile⟩
  match cacheFile with
  | some (some saved) =>
    match loadBytes saved.content with
    | none => (false,s)
    | some rules => (true,⟨rules,saved.lastEtag,some saved.lastUpdated,cacheFile⟩)
  | _ => s.fetch loadBytes f

end RemoteRuleSet

/-- Equal ETags are ETags of equal contents: of that which they identify. -/
def Content.Identified (identify : String → Body) (c : Content Body) : Prop :=
  ∀ tag, c.etag = some tag → c.body = identify tag

/-- If the server holds a content with the stored ETag, then that was the ETag of the content that
was loaded last, or the two contents say the same. -/
def Consistent (parse : Body → Option α) (loaded : Option (Content Body)) (lastEtag : String)
    (current : Content Body) : Prop :=
  lastEtag ≠ "" → current.etag = some lastEtag →
    ∀ c ∈ loaded, c.etag = some lastEtag ∨ parse c.body = parse current.body

def Fetch.loads (parse : Body → Option α) (f : Fetch Body) (lastEtag : String) : Bool :=
  match f.exchange lastEtag with
  | some (.ok content _) => (parse content).isSome
  | _ => false

structure SourceRun (Body User : Type) where
  source : HTTPSource User
  loaded : Option (Content Body)

namespace SourceRun

def new : SourceRun Body User := ⟨⟨"",[]⟩,none⟩

def fetch (unmarshal : Body → Option (List User)) (s : SourceRun Body User) (f : Fetch Body) :
    SourceRun Body User :=
  ⟨(s.source.fetch unmarshal f).2,
    if f.loads unmarshal s.source.lastEtag then some f.current else s.loaded⟩

def step (unmarshal : Body → Option (List User)) (s : SourceRun Body User) (f : Fetch Body)
    (s' : SourceRun Body User) : Prop := s' = s.fetch unmarshal f

end SourceRun

/-- The rule-set, the content that its rules come from, and that which was saved. -/
structure RuleSetRun (Body Rule : Type) where
  set : RemoteRuleSet Body Rule
  loaded : Option (Content Body)
  saved : Option (Content Body)

inductive Event (Body : Type)
  | fetch (f : Fetch Body)
  | restart (f : Fetch Body)

def Event.current : Event Body → Content Body
  | .fetch f | .restart f => f.current

namespace RuleSetRun

/-- A rule-set that has not been fetched, with an empty cache file or none. -/
def new (cached : Bool) : RuleSetRun Body Rule :=
  ⟨⟨[],"",none,if cached then some none else none⟩,none,none⟩

def fetch (loadBytes : Body → Option (List Rule)) (s : RuleSetRun Body Rule) (f : Fetch Body) :
    RuleSetRun Body Rule :=
  let loads := f.loads loadBytes s.set.lastEtag
  ⟨(s.set.fetch loadBytes f).2,if loads then some f.current else s.loaded,
    if loads ∧ f.saves ∧ s.set.cacheFile.isSome then some f.current else s.saved⟩

/-- A start loads what was saved, and fetches only if there is nothing. -/
def restart (loadBytes : Body → Option (List Rule)) (s : RuleSetRun Body Rule) (f : Fetch Body) :
    RuleSetRun Body Rule :=
  let started := (RemoteRuleSet.startContext loadBytes s.set.cacheFile f).2
  match s.set.cacheFile with
  | some (some _) => ⟨started,s.saved,s.saved⟩
  | cacheFile =>
    { fetch loadBytes ⟨⟨[],"",none,cacheFile⟩,none,none⟩ f with set := started }

def step (loadBytes : Body → Option (List Rule)) (s : RuleSetRun Body Rule) :
    Event Body → RuleSetRun Body Rule → Prop
  | .fetch f, s' => s' = s.fetch loadBytes f
  | .restart f, s' => s' = s.restart loadBytes f

end RuleSetRun

section backed

variable {identify : String → Body} {parse : Body → Option (List α)} {loaded : Option (Content Body)}
  {lastEtag : String} {value : List α} {f : Fetch Body}

/-- The value is that of the content loaded last, whose ETag, if it has one, is the stored one. -/
structure Backed (identify : String → Body) (parse : Body → Option (List α))
    (loaded : Option (Content Body)) (lastEtag : String) (value : List α) : Prop where
  fresh : loaded = none → lastEtag = ""
  identified : ∀ c ∈ loaded, c.Identified identify
  value : ∀ c ∈ loaded, parse c.body = some value
  tag : ∀ c ∈ loaded, c.etag.getD "" ≠ "" → c.etag = some lastEtag

lemma exchange_cases (f : Fetch Body) (lastEtag : String) : f.exchange lastEtag = none ∨
    (f.exchange lastEtag = some .notModified ∧ lastEtag ≠ "" ∧ f.current.etag = some lastEtag) ∨
    (f.exchange lastEtag = some (.ok f.current.body (f.current.etag.getD "")) ∧
      ¬ (lastEtag ≠ "" ∧ f.current.etag = some lastEtag)) := by
  unfold Fetch.exchange Content.respond
  by_cases ha : f.arrives = true
  · by_cases he : lastEtag = ""
    · simp [ha,he]
    · by_cases ht : f.current.etag = some lastEtag
      · simp [ha,he,ht]
      · simp [ha,he,ht]
  · simp [ha]

lemma backed_new : Backed identify parse none "" value := ⟨fun _ => rfl,nofun,nofun,nofun⟩

lemma backed_load (hf : f.current.Identified identify)
    (hp : parse f.current.body = some value) : Backed identify parse (some f.current)
      (if f.current.etag.getD "" ≠ "" then f.current.etag.getD "" else lastEtag) value := by
  refine ⟨nofun,?_,?_,?_⟩
  · rintro _ ⟨⟩
    exact hf
  · rintro _ ⟨⟩
    exact hp
  · rintro _ ⟨⟩ hne
    rw [if_pos hne]
    cases ht : f.current.etag with
    | none => simp [ht] at hne
    | some tag => rfl

lemma Backed.notModified (h : Backed identify parse loaded lastEtag value)
    (hf : f.current.Identified identify) (hne : lastEtag ≠ "")
    (ht : f.current.etag = some lastEtag) :
    parse f.current.body = some value ↔ Consistent parse loaded lastEtag f.current := by
  cases loaded with
  | none => exact absurd (h.fresh rfl) hne
  | some c =>
    have hv := h.value c rfl
    constructor
    · rintro hcu - - _ ⟨⟩
      exact .inr (hv.trans hcu.symm)
    · intro hco
      rcases hco hne ht c rfl with hs | hs
      · rw [hf _ ht,← h.identified c rfl _ hs,hv]
      · rw [← hs,hv]

end backed

section runs

variable {identify : String → Body} {unmarshal : Body → Option (List User)}
  {loadBytes : Body → Option (List Rule)} {s : SourceRun Body User} {t : RuleSetRun Body Rule}
  {f : Fetch Body}

def SourceRun.Inv (identify : String → Body) (unmarshal : Body → Option (List User))
    (s : SourceRun Body User) : Prop :=
  Backed identify unmarshal s.loaded s.source.lastEtag s.source.cachedUsers

lemma fetch_users (hs : s.Inv identify unmarshal) (hf : f.current.Identified identify) :
    ((s.source.fetch unmarshal f).1 = false → (s.source.fetch unmarshal f).2 = s.source) ∧
    ((s.source.fetch unmarshal f).1 = true →
      (unmarshal f.current.body = some (s.source.fetch unmarshal f).2.cachedUsers ↔
        Consistent unmarshal s.loaded s.source.lastEtag f.current)) ∧
    (s.fetch unmarshal f).Inv identify unmarshal := by
  unfold SourceRun.fetch SourceRun.Inv HTTPSource.fetch Fetch.loads
  obtain hn | ⟨hsa,hne,ht⟩ | ⟨hok,ho⟩ := exchange_cases f s.source.lastEtag
  · rw [hn]
    exact ⟨fun _ => rfl,nofun,hs⟩
  · rw [hsa]
    exact ⟨nofun,fun _ => hs.notModified hf hne ht,hs⟩
  · rw [hok]
    cases hp : unmarshal f.current.body with
    | none =>
      simp only [hp]
      exact ⟨fun _ => trivial,nofun,hs⟩
    | some users =>
      simp only [hp]
      exact ⟨nofun,fun _ => iff_of_true trivial fun h h' => absurd ⟨h,h'⟩ ho,backed_load hf hp⟩

/-- The same of the rules in memory and of those that a start would load. -/
structure RuleSetRun.Inv (identify : String → Body) (loadBytes : Body → Option (List Rule))
    (t : RuleSetRun Body Rule) : Prop where
  loaded : Backed identify loadBytes t.loaded t.set.lastEtag t.set.rules
  saved : ∀ saved, t.set.cacheFile = some (some saved) → ∃ c rules, t.saved = some c ∧
    loadBytes saved.content = some rules ∧ Backed identify loadBytes t.saved saved.lastEtag rules

lemma fetch_rules (ht : t.Inv identify loadBytes) (hf : f.current.Identified identify) :
    ((t.set.fetch loadBytes f).1 = false → (t.set.fetch loadBytes f).2 = t.set) ∧
    ((t.set.fetch loadBytes f).1 = true →
      (loadBytes f.current.body = some (t.set.fetch loadBytes f).2.rules ↔
        Consistent loadBytes t.loaded t.set.lastEtag f.current)) ∧
    (t.fetch loadBytes f).Inv identify loadBytes := by
  unfold RuleSetRun.fetch RemoteRuleSet.fetch Fetch.loads
  obtain hn | ⟨hsm,hne,hta⟩ | ⟨hok,ho⟩ := exchange_cases f t.set.lastEtag
  · rw [hn]
    exact ⟨fun _ => rfl,nofun,ht.loaded,ht.saved⟩
  · rw [hsm]
    cases hca : t.set.cacheFile with
    | none => exact ⟨nofun,fun _ => ht.loaded.notModified hf hne hta,ht.loaded,nofun⟩
    | some file =>
      cases file with
      | none => exact ⟨nofun,fun _ => ht.loaded.notModified hf hne hta,ht.loaded,nofun⟩
      | some saved =>
        refine ⟨nofun,fun _ => ht.loaded.notModified hf hne hta,ht.loaded,?_⟩
        intro saved' hs'
        obtain ⟨c,rules,hc,hr,hb⟩ := ht.saved saved hca
        have hk : saved'.content = saved.content ∧ saved'.lastEtag = saved.lastEtag := by
          simp only [RemoteRuleSet.saveRuleSet,Option.map_some,Option.some.injEq] at hs'
          split_ifs at hs'
          all_goals cases hs'
          all_goals exact ⟨rfl,rfl⟩
        exact ⟨c,rules,hc,hk.1 ▸ hr,hk.2 ▸ hb⟩
  · rw [hok]
    cases hp : loadBytes f.current.body with
    | none =>
      simp only [hp]
      exact ⟨fun _ => trivial,nofun,ht.loaded,ht.saved⟩
    | some rules =>
      simp only [hp]
      refine ⟨nofun,fun _ => iff_of_true rfl fun h h' => absurd ⟨h,h'⟩ ho,
        backed_load hf hp,fun saved hsa => ?_⟩
      obtain ⟨old,hold,heq⟩ := Option.map_eq_some_iff.mp hsa
      change t.set.cacheFile = some old at hold
      by_cases hs : f.saves = true
      · rw [if_pos hs] at heq
        cases heq
        refine ⟨f.current,rules,?_,hp,?_⟩
        all_goals simp only [Option.isSome_some,hs,hold,and_self,if_true]
        exact backed_load hf hp
      · rw [if_neg hs] at heq
        simp only [hs,Bool.false_eq_true,false_and,and_false,if_false]
        exact ht.saved saved (heq ▸ hold)

lemma restart_rules (ht : t.Inv identify loadBytes) (hf : f.current.Identified identify) :
    (t.restart loadBytes f).Inv identify loadBytes := by
  have he : t.set.cacheFile = none ∨ t.set.cacheFile = some none →
      ((⟨⟨[],"",none,t.set.cacheFile⟩,none,none⟩ : RuleSetRun Body Rule).fetch loadBytes f).Inv
        identify loadBytes := by
    intro hn
    refine (fetch_rules ⟨backed_new,fun saved hs => ?_⟩ hf).2.2
    rcases hn with hn | hn
    · cases hn.symm.trans hs
    · cases hn.symm.trans hs
  unfold RuleSetRun.restart RemoteRuleSet.startContext
  cases hca : t.set.cacheFile with
  | none =>
    have hfe := he (.inl hca)
    rw [hca] at hfe
    exact hfe
  | some file =>
    cases file with
    | none =>
      have hfe := he (.inr hca)
      rw [hca] at hfe
      exact hfe
    | some saved =>
      obtain ⟨c,rules,hc,hr,hb⟩ := ht.saved saved hca
      simp only [hr]
      refine ⟨hb,fun saved' hs' => ?_⟩
      cases hs'
      exact ⟨c,rules,hc,hr,hb⟩

/-- Every fetch, after whatever fetches and restarts. One that fails changes nothing. One that
succeeds leaves what the server holds, unless the stored ETag belongs to an older content than
the one loaded last, and the server holds that older content again. -/
theorem fetched_content_current_iff {cached : Bool}
    (hs : Reaches (SourceRun.step unmarshal) (fun _ f => f.current.Identified identify) .new s)
    (ht : Reaches (RuleSetRun.step loadBytes) (fun _ e => e.current.Identified identify)
      (.new cached) t) (hf : f.current.Identified identify) :
    ((s.source.fetch unmarshal f).1 = false → (s.source.fetch unmarshal f).2 = s.source) ∧
    ((s.source.fetch unmarshal f).1 = true →
      (unmarshal f.current.body = some (s.source.fetch unmarshal f).2.cachedUsers ↔
        Consistent unmarshal s.loaded s.source.lastEtag f.current)) ∧
    ((t.set.fetch loadBytes f).1 = false → (t.set.fetch loadBytes f).2 = t.set) ∧
    ((t.set.fetch loadBytes f).1 = true →
      (loadBytes f.current.body = some (t.set.fetch loadBytes f).2.rules ↔
        Consistent loadBytes t.loaded t.set.lastEtag f.current)) := by
  have hso : s.Inv identify unmarshal := hs.invariant _ backed_new
    fun s f s' hi hst hf => hst ▸ (fetch_users hi hf).2.2
  have hset : t.Inv identify loadBytes := by
    refine ht.invariant _ ⟨backed_new,?_⟩ fun t e t' hi hst hf => ?_
    · cases cached <;> exact nofun
    · cases e with
      | fetch f =>
        cases hst
        exact (fetch_rules hi hf).2.2
      | restart f =>
        cases hst
        exact restart_rules hi hf
  obtain ⟨hfa,hcu,-⟩ := fetch_users hso hf
  obtain ⟨hf',hcu',-⟩ := fetch_rules hset hf
  exact ⟨hfa,hcu,hf',hcu'⟩

def serve (body : List ℕ) (etag : Option String) : Fetch (List ℕ) := ⟨⟨body,etag⟩,true,true,0⟩

def bodyOf (tag : String) : List ℕ := if tag = "a" then [1] else [2]

lemma serve_identified (tag : String) :
    (serve (bodyOf tag) (some tag)).current.Identified bodyOf := by
  rintro _ ⟨⟩
  rfl

theorem tagged_content_current : let f := serve [2] (some "b")
    let s := (SourceRun.new.fetch some (serve [1] (some "a"))).fetch some f
    let t := ((RuleSetRun.new true).fetch some (serve [1] (some "a"))).restart some f
    Reaches (SourceRun.step some) (fun _ f => f.current.Identified bodyOf) .new s ∧
    Reaches (RuleSetRun.step some) (fun _ e => e.current.Identified bodyOf) (.new true) t ∧
    (s.source.fetch some f).1 = true ∧
    (some [2] = some (s.source.fetch some f).2.cachedUsers ↔
      Consistent some s.loaded s.source.lastEtag f.current) ∧
    (t.set.fetch some f).1 = true ∧
    (some [2] = some (t.set.fetch some f).2.rules ↔
      Consistent some t.loaded t.set.lastEtag f.current) := by
  intro f s t
  have hs : Reaches (SourceRun.step some) (fun _ f => f.current.Identified bodyOf) .new s :=
    .step (.step .start rfl (serve_identified "a")) rfl (serve_identified "b")
  have ht : Reaches (RuleSetRun.step some) (fun _ e => e.current.Identified bodyOf) (.new true) t :=
    .step (e := .restart f) (.step (e := .fetch _) .start rfl (serve_identified "a")) rfl
      (serve_identified "b")
  obtain ⟨-,hcu,-,hcu'⟩ := fetched_content_current_iff hs ht (serve_identified "b")
  exact ⟨hs,ht,rfl,hcu rfl,rfl,hcu' rfl⟩

/-- The first content returns after one without ETag: both fetches succeed and keep the second. -/
theorem older_content_missed : let f := serve [1] (some "a")
    let s := (SourceRun.new.fetch some f).fetch some (serve [2] none)
    let t := ((RuleSetRun.new true).fetch some f).fetch some (serve [2] none)
    Reaches (SourceRun.step some) (fun _ f => f.current.Identified bodyOf) .new s ∧
    Reaches (RuleSetRun.step some) (fun _ e => e.current.Identified bodyOf) (.new true) t ∧
    s.source.fetch some f = (true,⟨"a",[2]⟩) ∧
    (t.set.fetch some f).1 = true ∧ (t.set.fetch some f).2.rules = [2] := by
  intro f s t
  refine ⟨.step (.step .start rfl (serve_identified "a")) rfl ?_,
    .step (e := .fetch _) (.step (e := .fetch _) .start rfl (serve_identified "a")) rfl ?_,
    rfl,rfl,rfl⟩
  · rintro _ ⟨⟩
  · rintro _ ⟨⟩

end runs

end SingBoxAuth.ConditionalFetch
