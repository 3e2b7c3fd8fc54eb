import Mathlib

/-! Maps that are filled one entry after the other, with the list of the keys that were
new when they came. -/
namespace SingBoxAuth.KeyedMerge

variable {K V : Type} [DecidableEq K]

structure Merge (K V : Type) where
  entries : K → Option V
  names : List K

def Merge.empty : Merge K V := ⟨fun _ => none,[]⟩

def Merge.put (m : Merge K V) (k : K) (v : V) : Merge K V :=
  ⟨Function.update m.entries k (some v),if (m.entries k).isSome then m.names else m.names ++ [k]⟩

def Merge.putAll (m : Merge K V) (l : List (K × V)) : Merge K V :=
  l.foldl (fun m e => m.put e.1 e.2) m

def lastValue (l : List (K × V)) (k : K) : Option V := (l.reverse.find? (·.1 = k)).map (·.2)

def firstKeys (l : List K) : List K := l.reverse.dedup.reverse

lemma lastValue_append_singleton (l : List (K × V)) (e : K × V) (k : K) :
    lastValue (l ++ [e]) k = if e.1 = k then some e.2 else lastValue l k := by
  unfold lastValue
  rw [List.reverse_append,List.reverse_singleton,List.singleton_append,List.find?_cons]
  by_cases h : e.1 = k
  · simp [h]
  · simp [h]

lemma lastValue_isSome (l : List (K × V)) (k : K) :
    (lastValue l k).isSome ↔ k ∈ l.map Prod.fst := by
  simp [lastValue]

lemma lastValue_key {l : List (K × V)} {k : K} {v : V} (h : lastValue l k = some v) :
    (k,v) ∈ l := by
  obtain ⟨e,he,rfl⟩ := Option.map_eq_some_iff.mp h
  have hk : e.1 = k := by simpa using List.find?_some he
  have hme := List.mem_reverse.mp (List.mem_of_find?_eq_some he)
  rw [← hk]
  exact hme

lemma firstKeys_append_singleton (l : List K) (k : K) :
    firstKeys (l ++ [k]) = if k ∈ l then firstKeys l else firstKeys l ++ [k] := by
  unfold firstKeys
  rw [List.reverse_append,List.reverse_singleton,List.singleton_append]
  split_ifs with h
  · rw [List.dedup_cons_of_mem (List.mem_reverse.mpr h)]
  · rw [List.dedup_cons_of_notMem (mt List.mem_reverse.mp h),List.reverse_cons]

@[simp] lemma mem_firstKeys {l : List K} {k : K} : k ∈ firstKeys l ↔ k ∈ l := by simp [firstKeys]

lemma nodup_firstKeys (l : List K) : (firstKeys l).Nodup :=
  List.nodup_reverse.mpr (List.nodup_dedup _)

lemma firstKeys_of_nodup {l : List K} (h : l.Nodup) : firstKeys l = l := by
  rw [firstKeys,(List.nodup_reverse.mpr h).dedup,List.reverse_reverse]

/-- The last value wins; what was not listed stays. -/
theorem putAll_entries (m : Merge K V) (l : List (K × V)) (k : K) :
    (m.putAll l).entries k = (lastValue l k).or (m.entries k) := by
  induction l using List.reverseRecOn with
  | nil => rfl
  | append_singleton l e ih =>
    rw [Merge.putAll,List.foldl_append,lastValue_append_singleton]
    change Function.update (m.putAll l).entries e.1 (some e.2) k = _
    by_cases h : e.1 = k
    · rw [if_pos h,← h,Function.update_self]
      rfl
    · rw [if_neg h,Function.update_of_ne (Ne.symm h),ih]

/-- The keys that were not there, in the order of their first occurrences. -/
theorem putAll_names (m : Merge K V) (l : List (K × V)) : (m.putAll l).names =
    m.names ++ firstKeys ((l.map Prod.fst).filter fun k => (m.entries k).isNone) := by
  induction l using List.reverseRecOn with
  | nil => simp [Merge.putAll,firstKeys]
  | append_singleton l e ih =>
    rw [Merge.putAll,List.foldl_append]
    change (if ((m.putAll l).entries e.1).isSome then (m.putAll l).names
      else (m.putAll l).names ++ [e.1]) = _
    rw [ih,putAll_entries,List.map_append,List.filter_append]
    have hk : ((lastValue l e.1).or (m.entries e.1)).isSome ↔
        e.1 ∈ l.map Prod.fst ∨ (m.entries e.1).isSome := by
      rw [← lastValue_isSome]
      cases lastValue l e.1 <;> simp
    have hl : [e].map Prod.fst = [e.1] := rfl
    rw [hl,List.filter_singleton]
    by_cases hold : (m.entries e.1).isSome
    · have hn : (m.entries e.1).isNone = false := by simpa using hold
      rw [if_pos (hk.mpr (.inr hold)),hn,cond_false,List.append_nil]
    · have hn : (m.entries e.1).isNone = true := by simpa using hold
      rw [hn,cond_true,firstKeys_append_singleton]
      by_cases hme : e.1 ∈ l.map Prod.fst
      · rw [if_pos (hk.mpr (.inl hme)),if_pos (List.mem_filter.mpr ⟨hme,hn⟩)]
      · have hno : ¬ ((lastValue l e.1).or (m.entries e.1)).isSome := by
          rw [hk]
          exact not_or.mpr ⟨hme,hold⟩
        have hf : e.1 ∉ (l.map Prod.fst).filter fun k => (m.entries k).isNone := by
          intro h
          exact hme (List.mem_filter.mp h).1
        rw [if_neg hno,if_neg hf,List.append_assoc]

end SingBoxAuth.KeyedMerge
