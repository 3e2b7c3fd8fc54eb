import SingBoxAuth.FakeIPStore

/-! What remains of earlier runs in the cache file when the ranges have changed. -/
namespace SingBoxAuth.FakeIP
open AddressRanges Transitions

/-- A cache file between runs, or a run on it, with the pairs that the run has stored. -/
inductive World
  | stopped (file : CacheFile)
  | running (store : Store CacheFile) (own : List (IP × String))

/-- What happens to a cache file: a run starts with its ranges; the run creates addresses, its timer
saves the metadata, it is reset; the run is closed, or ends without that. -/
inductive Event
  | start (inet4Range inet6Range : Option Prefix)
  | create (domain : String) (isIPv6 : Bool)
  | timer
  | reset
  | close
  | stop

def CacheFile.ended (file : CacheFile) : CacheFile := { file with timer := none }

/-- The pairs stored so far, with the one of a call of Create if it was stored. -/
def ownAfter (s : Store CacheFile) (domain : String) (isIPv6 : Bool) (own : List (IP × String)) :
    List (IP × String) :=
  match s.storage.loadDomain domain isIPv6, (s.lane isIPv6).allocate with
  | none, some ⟨_,_,some ip⟩ => if CacheFile.isKey domain then (ip,domain) :: own else own
  | _, _ => own

inductive RunStep : World → Event → World → Prop
  | create {s : Store CacheFile} {own : List (IP × String)} {domain : String} {isIPv6 : Bool} :
      RunStep (.running s own) (.create domain isIPv6)
        (.running (s.create CacheFile.ops domain isIPv6).2 (ownAfter s domain isIPv6 own))
  | timer {s : Store CacheFile} {own : List (IP × String)} :
      RunStep (.running s own) .timer (.running { s with storage := s.storage.fire } own)
  | reset {s : Store CacheFile} {own : List (IP × String)} :
      RunStep (.running s own) .reset (.running (s.reset CacheFile.ops) own)

inductive HistoryStep : World → Event → World → Prop
  | run {w w' : World} {e : Event} : RunStep w e w' → HistoryStep w e w'
  | start {file : CacheFile} {inet4Range inet6Range : Option Prefix} :
      HistoryStep (.stopped file) (.start inet4Range inet6Range)
        (.running (Store.start CacheFile.ops inet4Range inet6Range file) [])
  | close {s : Store CacheFile} {own : List (IP × String)} :
      HistoryStep (.running s own) .close (.stopped (s.close CacheFile.ops).ended)
  | stop {s : Store CacheFile} {own : List (IP × String)} :
      HistoryStep (.running s own) .stop (.stopped s.storage.ended)

def Left (file : CacheFile) : Prop :=
  Reaches HistoryStep anyStep (.stopped .empty) (.stopped file)

namespace CacheFile

def domainOf (c : CacheFile) (ip : IP) : Option String := (c.address.getD emptyBucket).domains ip

lemma domainOf_of_load {c : CacheFile} {address : Addr} {domain : String}
    (h : c.load address = some domain) : ∃ ip,address = some ip ∧ c.domainOf ip = some domain := by
  obtain ⟨bucket,ip,hb,rfl,hd,-⟩ := load_eq_some.mp h
  exact ⟨ip,rfl,by simp [domainOf,hb,hd]⟩

/-- The mappings are the same in both files; only metadata may have changed. -/
structure Keeps (c c' : CacheFile) : Prop where
  domainOf : ∀ ip, c'.domainOf ip = c.domainOf ip
  domains : ∀ isIPv6, c'.domains isIPv6 = c.domains isIPv6
  address : c.address.isSome → c'.address.isSome

section keeps

variable (c : CacheFile)

lemma keeps_metadata : Keeps c c.metadata.2 := by
  unfold metadata
  split
  · exact ⟨fun _ => rfl,fun _ => rfl,id⟩
  · rename_i bucket hb
    split
    · exact ⟨fun _ => rfl,fun _ => rfl,id⟩
    · exact ⟨fun ip => by simp [CacheFile.domainOf,hb],fun _ => rfl,fun _ => rfl⟩

lemma keeps_saveMetadata (m : Metadata) : Keeps c (c.saveMetadata m) :=
  ⟨fun _ => rfl,fun _ => rfl,fun _ => rfl⟩

lemma keeps_saveMetadataAsync (m : Metadata) : Keeps c (c.saveMetadataAsync m) := by
  unfold saveMetadataAsync
  split <;> exact ⟨fun _ => rfl,fun _ => rfl,id⟩

lemma keeps_fire : Keeps c c.fire := by
  unfold fire
  split
  · exact ⟨fun _ => rfl,fun _ => rfl,id⟩
  · exact c.keeps_saveMetadata _

lemma keeps_ended : Keeps c c.ended := ⟨fun _ => rfl,fun _ => rfl,id⟩

end keeps

lemma put_eq (c : CacheFile) (ip : IP) {domain : String} (hk : isKey domain = true) :
    (∀ ip',(c.store (some ip) domain).domainOf ip' =
      if ip' = ip then some domain else c.domainOf ip') ∧
    (∀ isIPv6,(c.store (some ip) domain).domains isIPv6 =
      if isIPv6 = !is4 (some ip) then some (MemoryStorage.replace
        ((c.domains isIPv6).getD fun _ => none) (c.domainOf ip) domain ip)
      else c.domains isIPv6) ∧
    (c.store (some ip) domain).address.isSome := by
  simp only [store,hk,if_true]
  refine ⟨fun ip' => ?_,fun isIPv6 => ?_,by simp⟩
  · simp [domainOf,Function.update_apply]
  · split_ifs with h
    · subst h
      rw [domains_putDomains]
      rfl
    · rw [domains_putDomains_of_ne _ _ _ h]
      rfl

lemma store_of_not_key {c : CacheFile} {address : Addr} {domain : String}
    (h : address = none ∨ isKey domain = false) : c.store address domain = c := by
  obtain rfl | hk := h
  · rfl
  · cases address <;> simp [store,hk]

/-- In a file that runs have left, the bucket of a family is there exactly if it has mappings of
the family, and the bucket of addresses is there as well. -/
structure Whole (c : CacheFile) : Prop where
  domainOf : ∀ ip domain, c.domainOf ip = some domain → (c.domains (!is4 (some ip))).isSome
  domains : ∀ isIPv6 bucket, c.domains isIPv6 = some bucket →
    c.address.isSome ∧ ∃ domain ip, bucket domain = some ip

structure Blank (c : CacheFile) : Prop where
  domainOf : ∀ ip, c.domainOf ip = none
  domains : ∀ isIPv6, c.domains isIPv6 = none

lemma blank_empty : Blank .empty := by
  refine ⟨fun _ => rfl,fun isIPv6 => ?_⟩
  cases isIPv6 <;> rfl

lemma Blank.whole {c : CacheFile} (h : Blank c) : Whole c := by
  constructor
  · intro ip domain hd
    rw [h.domainOf] at hd
    cases hd
  · intro isIPv6 bucket hb
    rw [h.domains] at hb
    cases hb

lemma Whole.of_keeps {c c' : CacheFile} (h : Whole c) (hk : Keeps c c') : Whole c' := by
  constructor
  · intro ip domain hd
    rw [hk.domains]
    exact h.domainOf ip domain (hk.domainOf ip ▸ hd)
  · intro isIPv6 bucket hb
    obtain ⟨ha,hh⟩ := h.domains isIPv6 bucket (hk.domains isIPv6 ▸ hb)
    exact ⟨hk.address ha,hh⟩

lemma replace_self {α : Type} (cache : String → Option α) (old : Option String) (domain : String)
    (address : α) : MemoryStorage.replace cache old domain address domain = some address := by
  simp [MemoryStorage.replace]

lemma Whole.store {c : CacheFile} (h : Whole c) (address : Addr) (domain : String) :
    Whole (c.store address domain) := by
  by_cases hk : address = none ∨ isKey domain = false
  · rw [store_of_not_key hk]
    exact h
  push Not at hk
  obtain ⟨ip,rfl⟩ := Option.ne_none_iff_exists'.mp hk.1
  obtain ⟨hof,hdo,ha⟩ := put_eq c ip (Bool.not_eq_false _ ▸ hk.2 : isKey domain = true)
  constructor
  · intro ip' d hd
    rw [hdo]
    split_ifs with hs
    · rfl
    · rw [hof] at hd
      split_ifs at hd with hip
      · exact absurd (by rw [hip]) hs
      · exact h.domainOf ip' d hd
  · intro isIPv6 bucket hb
    refine ⟨ha,?_⟩
    rw [hdo] at hb
    split_ifs at hb with hs
    · cases hb
      exact ⟨domain,ip,replace_self _ _ _ _⟩
    · exact (h.domains isIPv6 bucket hb).2

lemma reset_cases (c : CacheFile) :
    (c.domains false).isSome ∧ (c.domains true).isSome ∧ c.address.isSome ∧ Blank c.reset ∨
      ¬ ((c.domains false).isSome ∧ (c.domains true).isSome ∧ c.address.isSome) ∧ c.reset = c := by
  unfold reset
  split_ifs with ha
  · refine .inl ⟨ha.2.1,ha.2.2,ha.1,fun ip => rfl,fun isIPv6 => ?_⟩
    cases isIPv6 <;> rfl
  · exact .inr ⟨fun h => ha ⟨h.2.2,h.1,h.2.1⟩,rfl⟩

lemma Whole.reset {c : CacheFile} (h : Whole c) : Whole c.reset := by
  obtain ⟨-,-,-,hb⟩ | ⟨-,hs⟩ := c.reset_cases
  · exact hb.whole
  · rw [hs]
    exact h

structure Own (c : CacheFile) (own : List (IP × String)) : Prop where
  domainOf : ∀ ip domain, c.domainOf ip = some domain → (ip,domain) ∈ own
  domains : ∀ isIPv6 bucket domain ip, c.domains isIPv6 = some bucket → bucket domain = some ip →
    (ip,domain) ∈ own

lemma Blank.own {c : CacheFile} (h : Blank c) (own : List (IP × String)) : Own c own := by
  constructor
  · intro ip domain hd
    rw [h.domainOf] at hd
    cases hd
  · intro isIPv6 bucket domain ip hb
    rw [h.domains] at hb
    cases hb

lemma Own.of_keeps {c c' : CacheFile} {own : List (IP × String)} (h : Own c own)
    (hk : Keeps c c') : Own c' own := by
  constructor
  · intro ip domain hd
    exact h.domainOf ip domain (hk.domainOf ip ▸ hd)
  · intro isIPv6 bucket domain ip hb
    exact h.domains isIPv6 bucket domain ip (hk.domains isIPv6 ▸ hb)

lemma Own.reset {c : CacheFile} {own : List (IP × String)} (h : Own c own) : Own c.reset own := by
  obtain ⟨-,-,-,hb⟩ | ⟨-,hs⟩ := c.reset_cases
  · exact hb.own own
  · rw [hs]
    exact h

lemma Own.put {c : CacheFile} {own : List (IP × String)} (h : Own c own) {ip : IP}
    {domain : String} (hk : isKey domain = true) :
    Own (c.store (some ip) domain) ((ip,domain) :: own) := by
  obtain ⟨hof,hdo,-⟩ := put_eq c ip hk
  constructor
  · intro ip' d hd
    rw [hof] at hd
    split_ifs at hd with hip
    · cases hd
      exact hip ▸ List.mem_cons_self
    · exact List.mem_cons_of_mem _ (h.domainOf ip' d hd)
  · intro isIPv6 bucket d ip' hb hd
    rw [hdo] at hb
    split_ifs at hb with hs
    · cases hb
      obtain ⟨rfl,rfl⟩ | hold := MemoryStorage.replace_eq_some hd
      · exact List.mem_cons_self
      · cases hbe : c.domains isIPv6 with
        | none =>
          rw [hbe] at hold
          cases hold
        | some before =>
          rw [hbe] at hold
          exact List.mem_cons_of_mem _ (h.domains isIPv6 before d ip' hbe hold)
    · exact List.mem_cons_of_mem _ (h.domains isIPv6 bucket d ip' hb hd)

end CacheFile

section runs

variable {s : Store CacheFile} {own : List (IP × String)}

def World.file : World → CacheFile
  | .stopped file => file
  | .running s _ => s.storage

lemma start_storage (file : CacheFile) (inet4Range inet6Range : Option Prefix) :
    (Store.start CacheFile.ops inet4Range inet6Range file).storage = file.metadata.2 ∨
      (Store.start CacheFile.ops inet4Range inet6Range file).storage = file.metadata.2.reset := by
  unfold Store.start
  split
  · split_ifs
    · exact .inl rfl
    · exact .inr rfl
  · exact .inr rfl

lemma whole_of_history {w : World} (h : Reaches HistoryStep anyStep (.stopped .empty) w) :
    w.file.Whole := by
  refine h.invariant (fun w => w.file.Whole) CacheFile.blank_empty.whole ?_
  intro w e w' hw hs _
  cases hs with
  | run hru =>
    cases hru with
    | @create s own domain isIPv6 =>
      have hca := s.create_cases CacheFile.ops domain isIPv6
      simp only [World.file] at hw ⊢
      generalize s.create CacheFile.ops domain isIPv6 = answer at hca ⊢
      cases hca with
      | loaded => exact hw
      | missing => exact hw
      | allocated => exact (hw.store _ _).of_keeps (CacheFile.keeps_saveMetadataAsync _ _)
    | timer => exact hw.of_keeps (CacheFile.keeps_fire _)
    | reset => exact hw.reset
  | @start file inet4Range inet6Range =>
    have hk := hw.of_keeps (CacheFile.keeps_metadata _)
    simp only [World.file] at hk ⊢
    obtain hsa | hr := start_storage file inet4Range inet6Range
    · rw [hsa]
      exact hk
    · rw [hr]
      exact hk.reset
  | close =>
    exact (hw.of_keeps (CacheFile.keeps_saveMetadata _ _)).of_keeps (CacheFile.keeps_ended _)
  | stop => exact hw.of_keeps (CacheFile.keeps_ended _)

lemma own_create (h : s.storage.Own own) (domain : String) (isIPv6 : Bool) :
    (s.create CacheFile.ops domain isIPv6).2.storage.Own (ownAfter s domain isIPv6 own) := by
  have hca := s.create_cases CacheFile.ops domain isIPv6
  generalize s.create CacheFile.ops domain isIPv6 = answer at hca ⊢
  cases hca with
  | loaded hl =>
    have hl : s.storage.loadDomain domain isIPv6 = some _ := hl
    simp only [ownAfter,hl]
    exact h
  | missing hl hn =>
    have hl : s.storage.loadDomain domain isIPv6 = none := hl
    simp only [ownAfter,hl,hn]
    exact h
  | @allocated lane hl hla =>
    have hl : s.storage.loadDomain domain isIPv6 = none := hl
    refine CacheFile.Own.of_keeps ?_ (CacheFile.keeps_saveMetadataAsync _ _)
    obtain ⟨range,last,current⟩ := lane
    change (s.storage.store current domain).Own _
    cases current with
    | none =>
      simp only [ownAfter,hl,hla]
      exact h
    | some ip =>
      simp only [ownAfter,hl,hla]
      split_ifs with hk
      · exact h.put hk
      · rw [CacheFile.store_of_not_key (.inr (by simpa using hk))]
        exact h

/-- What the run can be asked for is its own: by domain, by address, or by Create, which otherwise
allocates an address that no run has stored for the domain. -/
def OwnAnswers (s : Store CacheFile) (own : List (IP × String)) : Prop :=
  (∀ domain isIPv6 address, s.storage.loadDomain domain isIPv6 = some address →
    ∃ ip, address = some ip ∧ (ip,domain) ∈ own) ∧
  (∀ address domain, s.lookup CacheFile.ops address = some domain →
    ∃ ip, address = some ip ∧ (ip,domain) ∈ own) ∧
  ∀ domain isIPv6 address, (s.create CacheFile.ops domain isIPv6).1 = .ok address →
    (∃ ip, address = some ip ∧ (ip,domain) ∈ own) ∨ s.storage.loadDomain domain isIPv6 = none

lemma ownAnswers_of_own (h : s.storage.Own own) : OwnAnswers s own := by
  have hl : ∀ domain isIPv6 address,s.storage.loadDomain domain isIPv6 = some address →
      ∃ ip,address = some ip ∧ (ip,domain) ∈ own := by
    intro domain isIPv6 address hl
    obtain ⟨bucket,ip,hb,hd,rfl⟩ := CacheFile.loadDomain_eq_some.mp hl
    exact ⟨ip,rfl,h.domains isIPv6 bucket domain ip hb hd⟩
  refine ⟨hl,?_,?_⟩
  · intro address domain hlo
    obtain ⟨ip,rfl,hd⟩ := CacheFile.domainOf_of_load hlo
    exact ⟨ip,rfl,h.domainOf ip domain hd⟩
  · intro domain isIPv6 address hcr
    have hca := s.create_cases CacheFile.ops domain isIPv6
    generalize s.create CacheFile.ops domain isIPv6 = answer at hca hcr
    cases hca with
    | loaded hla =>
      cases hcr
      exact .inl (hl _ _ _ hla)
    | missing hn => exact .inr hn
    | allocated hn => exact .inr hn

def OtherRanges (file : CacheFile) (inet4Range inet6Range : Option Prefix) : Prop :=
  ∀ m, file.metadata.1 = some m → ¬ (m.inet4Range = inet4Range ∧ m.inet6Range = inet6Range)

lemma start_storage_of_other {file : CacheFile} {inet4Range inet6Range : Option Prefix}
    (h : OtherRanges file inet4Range inet6Range) :
    (Store.start CacheFile.ops inet4Range inet6Range file).storage = file.metadata.2.reset := by
  unfold Store.start
  split
  · rename_i m hm
    rw [if_neg (h m hm)]
    rfl
  · rfl

lemma own_run {s₀ : Store CacheFile} (h₀ : s₀.storage.Own [])
    (h : Reaches RunStep anyStep (.running s₀ []) (.running s own)) : s.storage.Own own := by
  have hi := h.invariant (fun w => ∀ s own,w = World.running s own → s.storage.Own own) ?_ ?_
  · exact hi s own rfl
  · intro s own heq
    cases heq
    exact h₀
  · intro w e w' ho hs _ s' own' heq
    cases hs with
    | create =>
      cases heq
      exact own_create (ho _ _ rfl) _ _
    | timer =>
      cases heq
      exact (ho _ _ rfl).of_keeps (CacheFile.keeps_fire _)
    | reset =>
      cases heq
      exact (ho _ _ rfl).reset

lemma domains_eq_none_of_ownAnswers (hw : s.storage.Whole) (h : OwnAnswers s [])
    (isIPv6 : Bool) : s.storage.domains isIPv6 = none := by
  cases hb : s.storage.domains isIPv6 with
  | none => rfl
  | some bucket =>
    obtain ⟨-,domain,ip,hd⟩ := hw.domains isIPv6 bucket hb
    have hl := CacheFile.loadDomain_eq_some.mpr ⟨bucket,ip,hb,hd,rfl⟩
    obtain ⟨ip',-,hme⟩ := h.1 domain isIPv6 _ hl
    cases hme

lemma CacheFile.Whole.blank {c : CacheFile} (h : Whole c) (hn : ∀ isIPv6,c.domains isIPv6 = none) :
    Blank c := by
  refine ⟨fun ip => ?_,hn⟩
  cases hd : c.domainOf ip with
  | none => rfl
  | some domain =>
    have := h.domainOf ip domain hd
    rw [hn] at this
    cases this

/-- After a start with other ranges than the saved ones, everything that the new run answers is its
own if and only if the earlier runs have left mappings of both families in the file or of none. -/
theorem other_ranges_forget_iff {file : CacheFile} {inet4Range inet6Range : Option Prefix}
    (hleft : Left file) (hother : OtherRanges file inet4Range inet6Range) :
    (∀ s own, Reaches RunStep anyStep
      (.running (Store.start CacheFile.ops inet4Range inet6Range file) []) (.running s own) →
        OwnAnswers s own) ↔ (file.domain4.isSome ↔ file.domain6.isSome) := by
  have hk := file.keeps_metadata
  have hw : file.metadata.2.Whole := CacheFile.Whole.of_keeps (whole_of_history hleft) hk
  have h4 : file.metadata.2.domains false = file.domain4 := hk.domains false
  have h6 : file.metadata.2.domains true = file.domain6 := hk.domains true
  have hstart := start_storage_of_other hother
  obtain ⟨hd4,hd6,-,hbl⟩ | ⟨hmi,hsa⟩ := file.metadata.2.reset_cases
  · -- The reset succeeds.
    rw [← hstart] at hbl
    rw [h4] at hd4
    rw [h6] at hd6
    exact iff_of_true (fun s own hs => ownAnswers_of_own (own_run (hbl.own []) hs))
      (iff_of_true hd4 hd6)
  · -- The reset fails and leaves everything.
    rw [hsa] at hstart
    constructor
    · intro hal
      have hn := domains_eq_none_of_ownAnswers (hstart ▸ hw) (hal _ _ .start)
      rw [hstart] at hn
      rw [← h4,← h6,hn,hn]
    · intro hbo s own hs
      have hn : ∀ isIPv6, file.metadata.2.domains isIPv6 = none := by
        intro isIPv6
        by_contra hne
        obtain ⟨bucket,hb⟩ := Option.ne_none_iff_exists'.mp hne
        obtain ⟨ha,-⟩ := hw.domains isIPv6 bucket hb
        have hso : (file.metadata.2.domains false).isSome ∧
            (file.metadata.2.domains true).isSome := by
          rw [h4,h6]
          cases isIPv6 with
          | true =>
            rw [h6] at hb
            exact ⟨hbo.mpr (by rw [hb]; rfl),by rw [hb]; rfl⟩
          | false =>
            rw [h4] at hb
            exact ⟨by rw [hb]; rfl,hbo.mp (by rw [hb]; rfl)⟩
        exact hmi ⟨hso.1,hso.2,ha⟩
      refine ownAnswers_of_own (own_run ?_ hs)
      rw [hstart]
      exact (hw.blank hn).own []

end runs

def benchmarkRange : Prefix := ⟨⟨.inet4,3323068416,by decide⟩,15,by decide⟩

def privateRange : Prefix := ⟨⟨.inet4,167772160,ten_fits⟩,8,by decide⟩

def localRange : Prefix := ⟨⟨.inet6,0xfc00 * 2 ^ 112,by decide⟩,18,by decide⟩

/-- What a run with these ranges that creates an IPv4 address has stored. -/
def firstRun : Store CacheFile :=
  ((Store.start CacheFile.ops (some benchmarkRange) (some localRange) .empty).create CacheFile.ops
    "example.org" false).2

def secondCreate : Store CacheFile := (firstRun.create CacheFile.ops "example.net" true).2

lemma firstRun_reached :
    ∃ own,Reaches HistoryStep anyStep (.stopped .empty) (.running firstRun own) :=
  ⟨_,.step (.step .start .start trivial) (.run .create) trivial⟩

/-- Mappings of both families are forgotten. -/
theorem both_families_forgotten : Left secondCreate.storage.ended ∧
    OtherRanges secondCreate.storage.ended (some privateRange) none ∧
    secondCreate.storage.loadDomain "example.org" false =
      some (some ⟨.inet4,3323068418,by decide⟩) ∧
    ∀ s own, Reaches RunStep anyStep (.running (Store.start CacheFile.ops (some privateRange) none
      secondCreate.storage.ended) []) (.running s own) → OwnAnswers s own := by
  obtain ⟨own,hr⟩ := firstRun_reached
  have hl : Left secondCreate.storage.ended := .step (.step hr (.run .create) trivial) .stop trivial
  have ho : OtherRanges secondCreate.storage.ended (some privateRange) none := by
    intro m hm
    cases hm
  exact ⟨hl,ho,rfl,(other_ranges_forget_iff hl ho).mpr (iff_of_true rfl rfl)⟩

/-- A run that has created IPv4 addresses only leaves no bucket for IPv6 domains, so that the reset
fails: the next run answers with an address of the old range. -/
theorem old_range_answered : Left firstRun.storage.ended ∧
    OtherRanges firstRun.storage.ended (some privateRange) none ∧
    ((Store.start CacheFile.ops (some privateRange) none firstRun.storage.ended).create
      CacheFile.ops "example.org" false).1 = .ok (some ⟨.inet4,3323068418,by decide⟩) ∧
    ¬ OwnAnswers (Store.start CacheFile.ops (some privateRange) none firstRun.storage.ended) [] := by
  obtain ⟨own,hr⟩ := firstRun_reached
  have ho : OtherRanges firstRun.storage.ended (some privateRange) none := by
    intro m hm
    cases hm
  refine ⟨.step hr .stop trivial,ho,rfl,?_⟩
  intro how
  obtain ⟨ip,-,hme⟩ := how.1 "example.org" false (some ⟨.inet4,3323068418,by decide⟩) rfl
  cases hme

end SingBoxAuth.FakeIP
