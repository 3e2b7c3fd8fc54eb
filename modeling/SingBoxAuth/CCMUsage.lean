import Mathlib.Algebra.Order.BigOperators.Group.List
import Mathlib.Algebra.Order.Ring.Int
import Mathlib.Algebra.Field.Rat
import SingBoxAuth.Transitions

/-! The usage statistics of the CCM service: counters for each combination of model, context window
and week, their file, and the cache-creation tokens that are priced. -/
namespace SingBoxAuth.CCMUsage
open Transitions

inductive Counter
  | requestCount
  | messagesCount
  | inputTokens
  | outputTokens
  | cacheReadInputTokens
  | cacheCreationInputTokens
  | cacheCreation5MinuteInputTokens
  | cacheCreation1HourInputTokens
  deriving DecidableEq

/-- UsageStats: one number for each counter. -/
abbrev Stats := Counter → ℤ

structure CostCombination where
  model : String
  contextWindow : ℤ
  weekStartUnix : ℤ
  total : Stats
  /-- The entries of the map. -/
  byUser : List (String × Stats)

structure Usage where
  model : String
  contextWindow : ℤ
  weekStartUnix : ℤ
  messagesCount : ℤ
  inputTokens : ℤ
  outputTokens : ℤ
  cacheReadTokens : ℤ
  cacheCreationTokens : ℤ
  cacheCreation5MinuteTokens : ℤ
  cacheCreation1HourTokens : ℤ
  user : String

/-- The sum of 64 bits. -/
def int64 (n : ℤ) : ℤ := n.bmod (2 ^ 64)

namespace Usage

variable (u : Usage)

def amount : Counter → ℤ
  | .requestCount => 1
  | .messagesCount => u.messagesCount
  | .inputTokens => u.inputTokens
  | .outputTokens => u.outputTokens
  | .cacheReadInputTokens => u.cacheReadTokens
  | .cacheCreationInputTokens =>
    if u.cacheCreationTokens = 0 then
      int64 (u.cacheCreation5MinuteTokens + u.cacheCreation1HourTokens)
    else u.cacheCreationTokens
  | .cacheCreation5MinuteInputTokens => u.cacheCreation5MinuteTokens
  | .cacheCreation1HourInputTokens => u.cacheCreation1HourTokens

def addTo (s : Stats) : Stats := fun counter => int64 (s counter + u.amount counter)

def addToUser : List (String × Stats) → List (String × Stats)
  | [] => [(u.user,u.addTo fun _ => 0)]
  | e :: rest => if e.1 = u.user then (e.1,u.addTo e.2) :: rest else e :: addToUser rest

def addToCombination (c : CostCombination) : CostCombination :=
  { c with
    total := u.addTo c.total
    byUser := if u.user = "" then c.byUser else u.addToUser c.byUser }

def matchesKey (c : CostCombination) : Bool :=
  c.model = u.model && c.contextWindow = u.contextWindow && c.weekStartUnix = u.weekStartUnix

def newCombination : CostCombination :=
  ⟨u.model,u.contextWindow,u.weekStartUnix,fun _ => 0,[]⟩

/-- The first combination of the key, or a new one at the end. -/
def addUsageToCombinations : List CostCombination → List CostCombination
  | [] => [u.addToCombination u.newCombination]
  | c :: rest =>
    if u.matchesKey c then u.addToCombination c :: rest else c :: addUsageToCombinations rest

end Usage

section cost

structure ModelPricing where
  inputPrice : ℚ
  outputPrice : ℚ
  cacheReadPrice : ℚ
  cacheWritePrice5Minute : ℚ
  cacheWritePrice1Hour : ℚ

/-- The cache-creation tokens that are priced, each with its price: the split counters, or the
counter of all for a file from before the split. -/
def cacheCreationItems (s : Stats) (pricing : ModelPricing) : List (ℤ × ℚ) :=
  if s .cacheCreation5MinuteInputTokens > 0 ∨ s .cacheCreation1HourInputTokens > 0 then
    [(s .cacheCreation5MinuteInputTokens,pricing.cacheWritePrice5Minute),
      (s .cacheCreation1HourInputTokens,pricing.cacheWritePrice1Hour)]
  else [(s .cacheCreationInputTokens,pricing.cacheWritePrice5Minute)]

/-- The cost before it is rounded. -/
def calculateCost (s : Stats) (pricing : ModelPricing) : ℚ :=
  (s .inputTokens * pricing.inputPrice + s .outputTokens * pricing.outputPrice +
    s .cacheReadInputTokens * pricing.cacheReadPrice +
    ((cacheCreationItems s pricing).map fun e => (e.1 : ℚ) * e.2).sum) / 1000000

def pricedTokens (s : Stats) (pricing : ModelPricing) : ℤ :=
  ((cacheCreationItems s pricing).map (·.1)).sum

end cost

section file

/-- A combination in the file; any field may be missing. -/
structure FileCombination where
  model : Option String
  contextWindow : Option ℤ
  weekStartUnix : Option ℤ
  total : Counter → Option ℤ
  byUser : Option (List (String × (Counter → Option ℤ)))

def decodeStats (s : Counter → Option ℤ) : Stats := fun counter => (s counter).getD 0

/-- Load, with the map that normalizeCombinations makes. -/
def FileCombination.decode (c : FileCombination) : CostCombination :=
  ⟨c.model.getD "",c.contextWindow.getD 0,c.weekStartUnix.getD 0,decodeStats c.total,
    (c.byUser.getD []).map fun e => (e.1,decodeStats e.2)⟩

/-- The counters that are left out of the file when they are 0. -/
def Counter.omitEmpty : Counter → Bool
  | .cacheCreation5MinuteInputTokens | .cacheCreation1HourInputTokens => true
  | _ => false

def encodeStats (s : Stats) : Counter → Option ℤ := fun counter =>
  if counter.omitEmpty ∧ s counter = 0 then none else some (s counter)

def CostCombination.encode (c : CostCombination) : FileCombination :=
  ⟨some c.model,some c.contextWindow,if c.weekStartUnix = 0 then none else some c.weekStartUnix,
    encodeStats c.total,some (c.byUser.map fun e => (e.1,encodeStats e.2))⟩

/-- What the file path leads to; a file that cannot be read or is no usage file is broken. -/
inductive Disk
  | missing
  | broken
  | file (combinations : List FileCombination)

def Disk.load : Disk → List CostCombination
  | .missing | .broken => []
  | .file combinations => combinations.map FileCombination.decode

lemma decodeStats_encodeStats (s : Stats) : decodeStats (encodeStats s) = s := by
  funext counter
  simp only [decodeStats,encodeStats]
  split_ifs with h
  · exact h.2.symm
  · rfl

lemma decode_encode (c : CostCombination) : c.encode.decode = c := by
  obtain ⟨model,contextWindow,week,total,byUser⟩ := c
  simp only [CostCombination.encode,FileCombination.decode,decodeStats_encodeStats,
    Option.getD_some,List.map_map,Function.comp_def,Prod.mk.eta,List.map_id']
  split_ifs with hw
  · simp [hw]
  · rfl

lemma load_file_encode (l : List CostCombination) :
    (Disk.file (l.map CostCombination.encode)).load = l := by
  simp [Disk.load,Function.comp_def,decode_encode]

end file

structure AggregatedUsage where
  combinations : List CostCombination
  disk : Disk

inductive Event
  | addUsage (u : Usage)
  /-- Save, which may fail before the file is replaced. -/
  | save (ok : Bool)
  | load

def perform (s : AggregatedUsage) : Event → AggregatedUsage
  | .addUsage u =>
    if u.model = "" ∨ u.contextWindow ≤ 0 then s
    else { s with combinations := u.addUsageToCombinations s.combinations }
  | .save ok => if ok then { s with disk := .file (s.combinations.map CostCombination.encode) } else s
  | .load => { s with combinations := s.disk.load }

def CostCombination.key (c : CostCombination) : String × ℤ × ℤ :=
  (c.model,c.contextWindow,c.weekStartUnix)

def UniqueKeys (l : List CostCombination) : Prop := (l.map CostCombination.key).Nodup

def usersSum (l : List (String × Stats)) (counter : Counter) : ℤ := (l.map (·.2 counter)).sum

/-- A combination whose counters are in range, whose users have no more than the total, and whose
cache-creation tokens are all split or all not. -/
structure Sound (c : CostCombination) : Prop where
  nonneg : ∀ counter, 0 ≤ c.total counter
  small : ∀ counter, c.total counter < 2 ^ 63
  users : ∀ e ∈ c.byUser, ∀ counter, 0 ≤ e.2 counter
  covered : ∀ counter, usersSum c.byUser counter ≤ c.total counter
  split : c.total .cacheCreation5MinuteInputTokens = 0 ∧
      c.total .cacheCreation1HourInputTokens = 0 ∨
    c.total .cacheCreationInputTokens =
      c.total .cacheCreation5MinuteInputTokens + c.total .cacheCreation1HourInputTokens

/-- No count is negative, and no sum leaves the 64 bits. -/
structure Usage.InRange (u : Usage) (total : Stats) : Prop where
  nonneg : 0 ≤ u.messagesCount ∧ 0 ≤ u.inputTokens ∧ 0 ≤ u.outputTokens ∧ 0 ≤ u.cacheReadTokens ∧
    0 ≤ u.cacheCreationTokens ∧ 0 ≤ u.cacheCreation5MinuteTokens ∧ 0 ≤ u.cacheCreation1HourTokens
  small : ∀ counter, total counter + u.amount counter < 2 ^ 63
  splitSmall : u.cacheCreation5MinuteTokens + u.cacheCreation1HourTokens < 2 ^ 63

/-- Usage that is split goes to a combination that has unsplit tokens only if they are split as well,
and says as many tokens as its parts; usage that is not split goes to one that is not split. -/
def Usage.FitsSplit (u : Usage) (total : Stats) : Prop :=
  let parts := u.cacheCreation5MinuteTokens + u.cacheCreation1HourTokens
  let recorded := total .cacheCreation5MinuteInputTokens + total .cacheCreation1HourInputTokens
  parts = 0 ∧ (recorded = 0 ∨ u.cacheCreationTokens = 0) ∨
    parts ≠ 0 ∧ (recorded ≠ 0 ∨ total .cacheCreationInputTokens = 0) ∧
      (u.cacheCreationTokens = 0 ∨ u.cacheCreationTokens = parts)

def Usage.target (u : Usage) (l : List CostCombination) : Stats :=
  match l.find? u.matchesKey with
  | some c => c.total
  | none => fun _ => 0

def orderly (s : AggregatedUsage) : Event → Prop
  | .addUsage u => u.InRange (u.target s.combinations) ∧ u.FitsSplit (u.target s.combinations)
  | _ => True

section keys

lemma addToCombination_key (u : Usage) (c : CostCombination) :
    (u.addToCombination c).key = c.key := rfl

lemma matchesKey_iff (u : Usage) (c : CostCombination) :
    u.matchesKey c = true ↔ c.key = u.newCombination.key := by
  simp [Usage.matchesKey,CostCombination.key,Usage.newCombination,and_assoc]

lemma addUsage_keys (u : Usage) (l : List CostCombination) :
    (u.addUsageToCombinations l).map CostCombination.key =
      if u.newCombination.key ∈ l.map CostCombination.key then l.map CostCombination.key
      else l.map CostCombination.key ++ [u.newCombination.key] := by
  induction l with
  | nil => rfl
  | cons c l ih =>
    rw [Usage.addUsageToCombinations]
    by_cases hc : u.matchesKey c = true
    · simp [hc,addToCombination_key,(matchesKey_iff u c).mp hc]
    · have hne : ¬ u.newCombination.key = c.key := by
        intro he
        exact hc ((matchesKey_iff u c).mpr he.symm)
      simp only [hc,Bool.false_eq_true,if_false,List.map_cons,ih,List.mem_cons,hne,false_or]
      split_ifs <;> rfl

lemma uniqueKeys_addUsage {l : List CostCombination} (u : Usage) (h : UniqueKeys l) :
    UniqueKeys (u.addUsageToCombinations l) := by
  rw [UniqueKeys,addUsage_keys]
  split_ifs with hm
  · exact h
  · rw [← List.concat_eq_append]
    exact h.concat hm

lemma uniqueKeys_perform {s : AggregatedUsage} {e : Event}
    (h : UniqueKeys s.combinations ∧ UniqueKeys s.disk.load) :
    UniqueKeys (perform s e).combinations ∧ UniqueKeys (perform s e).disk.load := by
  cases e with
  | addUsage u =>
    rw [perform]
    split_ifs
    · exact h
    · exact ⟨uniqueKeys_addUsage u h.1,h.2⟩
  | save ok =>
    rw [perform]
    split_ifs
    · exact ⟨h.1,(load_file_encode s.combinations).symm ▸ h.1⟩
    · exact h
  | load => exact ⟨h.2,h.2⟩

end keys

section counters

variable {u : Usage} {total : Stats}

lemma int64_eq {n : ℤ} (h0 : 0 ≤ n) (h : n < 2 ^ 63) : int64 n = n := by
  unfold int64
  exact Int.bmod_eq_of_le (by omega) (by omega)

lemma amount_nonneg (h : u.InRange total) (counter : Counter) : 0 ≤ u.amount counter := by
  obtain ⟨h1,h2,h3,h4,h5,h6,h7⟩ := h.nonneg
  cases counter with
  | cacheCreationInputTokens =>
    rw [Usage.amount]
    split_ifs
    · rw [int64_eq (by omega) h.splitSmall]
      omega
    · exact h5
  | requestCount => exact Int.one_nonneg
  | _ => assumption

lemma addTo_eq (h : u.InRange total) {s : Stats} {counter : Counter} (h0 : 0 ≤ s counter)
    (hle : s counter ≤ total counter) : u.addTo s counter = s counter + u.amount counter := by
  have ha := amount_nonneg h counter
  have hs := h.small counter
  exact int64_eq (by omega) (by omega)

lemma usersSum_nonneg {l : List (String × Stats)} (h : ∀ e ∈ l,∀ counter,0 ≤ e.2 counter)
    (counter : Counter) : 0 ≤ usersSum l counter := by
  apply List.sum_nonneg
  simp only [List.mem_map]
  intro n ⟨e,he,hn⟩
  exact hn ▸ h e he counter

lemma usersSum_cons (e : String × Stats) (l : List (String × Stats)) (counter : Counter) :
    usersSum (e :: l) counter = e.2 counter + usersSum l counter := List.sum_cons

lemma addToUser_spec (h : u.InRange total) {l : List (String × Stats)}
    (hu : ∀ e ∈ l,∀ counter,0 ≤ e.2 counter)
    (hle : ∀ counter,usersSum l counter ≤ total counter) :
    (∀ e ∈ u.addToUser l,∀ counter,0 ≤ e.2 counter) ∧
      ∀ counter,usersSum (u.addToUser l) counter = usersSum l counter + u.amount counter := by
  induction l with
  | nil =>
    have ha (counter : Counter) : u.addTo (fun _ => 0) counter = u.amount counter :=
      (addTo_eq h (Int.le_refl 0) (hle counter)).trans (Int.zero_add _)
    refine ⟨?_,fun counter => by simp [Usage.addToUser,usersSum,ha]⟩
    intro e he counter
    rw [List.mem_singleton.mp he]
    exact (amount_nonneg h counter).trans_eq (ha counter).symm
  | cons e l ih =>
    obtain ⟨he,hl⟩ := List.forall_mem_cons.mp hu
    simp only [usersSum_cons] at hle
    rw [Usage.addToUser]
    split_ifs with hn
    · have ha (counter : Counter) : u.addTo e.2 counter = e.2 counter + u.amount counter := by
        have h1 := usersSum_nonneg hl counter
        have h2 := hle counter
        exact addTo_eq h (he counter) (by omega)
      refine ⟨List.forall_mem_cons.mpr ⟨fun counter => ?_,hl⟩,fun counter => ?_⟩
      · have h1 := amount_nonneg h counter
        have h2 := he counter
        simp only [ha]
        omega
      · simp only [usersSum_cons,ha]
        omega
    · have hle' (counter : Counter) : usersSum l counter ≤ total counter := by
        have h1 := he counter
        have h2 := hle counter
        omega
      obtain ⟨h1,h2⟩ := ih hl hle'
      refine ⟨List.forall_mem_cons.mpr ⟨he,h1⟩,fun counter => ?_⟩
      rw [usersSum_cons,usersSum_cons,h2,Int.add_assoc]

lemma Sound.addToCombination {c : CostCombination} (hc : Sound c) (h : u.InRange c.total)
    (hf : u.FitsSplit c.total) : Sound (u.addToCombination c) := by
  have ht (counter : Counter) : u.addTo c.total counter = c.total counter + u.amount counter :=
    addTo_eq h (hc.nonneg counter) (Int.le_refl _)
  have ha := amount_nonneg h
  obtain ⟨hu,hs⟩ := addToUser_spec h hc.users hc.covered
  refine ⟨fun counter => ?_,fun counter => ?_,?_,fun counter => ?_,?_⟩
  · have h1 := hc.nonneg counter
    have h2 := ha counter
    simp only [Usage.addToCombination,ht]
    omega
  · simp only [Usage.addToCombination,ht]
    exact h.small counter
  · simp only [Usage.addToCombination]
    split_ifs
    · exact hc.users
    · exact hu
  · have h1 := hc.covered counter
    have h2 := ha counter
    simp only [Usage.addToCombination,ht]
    split_ifs
    · omega
    · rw [hs]
      omega
  · have hsp := hc.split
    have h5 := hc.nonneg .cacheCreation5MinuteInputTokens
    have h1 := hc.nonneg .cacheCreation1HourInputTokens
    obtain ⟨-,-,-,-,hn,hn5,hn1⟩ := h.nonneg
    have hi := int64_eq (Int.add_nonneg hn5 hn1) h.splitSmall
    simp only [Usage.FitsSplit] at hf
    simp only [Usage.addToCombination,ht,Usage.amount,hi]
    split_ifs
    · omega
    · omega

lemma sound_newCombination : Sound u.newCombination :=
  ⟨fun _ => Int.le_refl 0,fun _ => by simp [Usage.newCombination],by simp [Usage.newCombination],
    fun _ => Int.le_refl 0,.inl ⟨rfl,rfl⟩⟩

lemma sound_addUsage {l : List CostCombination} (hl : ∀ c ∈ l,Sound c)
    (h : u.InRange (u.target l)) (hf : u.FitsSplit (u.target l)) :
    ∀ c ∈ u.addUsageToCombinations l,Sound c := by
  induction l with
  | nil =>
    rw [Usage.addUsageToCombinations,List.forall_mem_singleton]
    exact sound_newCombination.addToCombination h hf
  | cons c l ih =>
    obtain ⟨hc,hl'⟩ := List.forall_mem_cons.mp hl
    rw [Usage.addUsageToCombinations]
    rw [Usage.target,List.find?_cons] at h hf
    split_ifs with hm
    · rw [hm] at h hf
      exact List.forall_mem_cons.mpr ⟨hc.addToCombination h hf,hl'⟩
    · rw [Bool.not_eq_true] at hm
      rw [hm] at h hf
      exact List.forall_mem_cons.mpr ⟨hc,ih hl' h hf⟩

lemma sound_perform {s : AggregatedUsage} {e : Event} (ho : orderly s e)
    (h : (∀ c ∈ s.combinations,Sound c) ∧ ∀ c ∈ s.disk.load,Sound c) :
    (∀ c ∈ (perform s e).combinations,Sound c) ∧ ∀ c ∈ (perform s e).disk.load,Sound c := by
  cases e with
  | addUsage u =>
    rw [perform]
    split_ifs
    · exact h
    · exact ⟨sound_addUsage h.1 ho.1 ho.2,h.2⟩
  | save ok =>
    rw [perform]
    split_ifs
    · exact ⟨h.1,(load_file_encode s.combinations).symm ▸ h.1⟩
    · exact h
  | load => exact ⟨h.2,h.2⟩

lemma Sound.pricedTokens {c : CostCombination} (h : Sound c) (pricing : ModelPricing) :
    pricedTokens c.total pricing = c.total .cacheCreationInputTokens := by
  have hsp := h.split
  have h5 := h.nonneg .cacheCreation5MinuteInputTokens
  have h1 := h.nonneg .cacheCreation1HourInputTokens
  rw [CCMUsage.pricedTokens,cacheCreationItems]
  split_ifs with hp
  · simp only [List.map_cons,List.map_nil,List.sum_cons,List.sum_nil]
    omega
  · simp

end counters

/-- The service after it has loaded its file. -/
def start (disk : Disk) : AggregatedUsage := ⟨disk.load,disk⟩

/-- Keys stay unique in every run. From a file whose combinations are sound, in every run whose calls
are in range and fit the split of their combination, the total of each combination has at least what
its users have, and all its cache-creation tokens are priced once. -/
theorem usage_accounted (disk : Disk) (s : AggregatedUsage) :
    (UniqueKeys disk.load → Reaches (fun s e t => perform s e = t) anyStep (start disk) s →
      UniqueKeys s.combinations) ∧
    ((∀ c ∈ disk.load, Sound c) → Reaches (fun s e t => perform s e = t) orderly (start disk) s →
      ∀ c ∈ s.combinations, (∀ counter, usersSum c.byUser counter ≤ c.total counter) ∧
        ∀ pricing, pricedTokens c.total pricing = c.total .cacheCreationInputTokens) := by
  constructor
  · intro hd hr
    refine (hr.invariant (fun s => UniqueKeys s.combinations ∧ UniqueKeys s.disk.load)
      ⟨hd,hd⟩ ?_).1
    intro s e t hs he _
    exact he ▸ uniqueKeys_perform hs
  · intro hd hr c hc
    have hi : (∀ c ∈ s.combinations, Sound c) ∧ ∀ c ∈ s.disk.load, Sound c := by
      refine hr.invariant
        (fun s => (∀ c ∈ s.combinations, Sound c) ∧ ∀ c ∈ s.disk.load, Sound c) ⟨hd,hd⟩ ?_
      intro s e t hs he ho
      exact he ▸ sound_perform ho hs
    exact ⟨(hi.1 c hc).covered,(hi.1 c hc).pricedTokens⟩

section files

def oldDisk : Disk :=
  .file [⟨some "m",some 200000,none,
    fun counter => if counter = .cacheCreationInputTokens then some 100 else none,none⟩]

def splitUsage (week : ℤ) : Usage := ⟨"m",200000,week,1,0,0,0,10,10,0,"u"⟩

lemma sound_oldDisk : ∀ c ∈ oldDisk.load,Sound c := by
  simp only [oldDisk,Disk.load,List.map_cons,List.map_nil,List.forall_mem_singleton]
  refine ⟨fun counter => ?_,fun counter => ?_,nofun,fun counter => ?_,.inl ⟨rfl,rfl⟩⟩
  · cases counter <;> decide
  · cases counter <;> decide
  · cases counter <;> decide

/-- In the next week the usage goes to a combination of its own. -/
theorem usage_accounted_nextWeek :
    ∀ c ∈ (perform (start oldDisk) (.addUsage (splitUsage 604800))).combinations,
      (∀ counter, usersSum c.byUser counter ≤ c.total counter) ∧
        ∀ pricing, pricedTokens c.total pricing = c.total .cacheCreationInputTokens := by
  refine (usage_accounted oldDisk _).2 sound_oldDisk
    (.step .start rfl ⟨⟨by decide,fun counter => ?_,by decide⟩,?_⟩)
  · cases counter <;> decide
  · exact .inr ⟨by decide,.inr rfl,.inr rfl⟩

/-- Split usage of the same combination hides the tokens from before: 110 are recorded, 10 are
priced. -/
theorem oldTokens_not_priced :
    (perform (start oldDisk) (.addUsage (splitUsage 0))).combinations.map
      (fun c => (c.total .cacheCreationInputTokens,pricedTokens c.total ⟨0,0,0,0,0⟩)) =
      [(110,10)] := by
  decide

end files
end SingBoxAuth.CCMUsage
