import SingBoxAuth.DependencyOrder
import SingBoxAuth.ManagedElements

/-! The start of all outbounds with the endpoints, and of all DNS transports: passes over the
list until every element is started, and the search for what is missing when a pass starts none.
-/
namespace SingBoxAuth.Managers
open DependencyOrder

inductive Ended
  | returned (err : Option String)
  | panicked
  deriving DecidableEq

/-- How a start ends, with the elements in the order in which they were started. -/
structure Report where
  result : Ended
  started : List Element

/-- The map of the started tags holds the tags of the elements marked so far. -/
def isStarted (started : List Element) (tag : String) : Bool := started.any (·.tag = tag)

structure Pass where
  started : List Element
  canContinue : Bool
  failure : Option String

variable (w : Wording) (start : Element → Option String)

/-- One pass over the elements. An element is marked before its Start is called. -/
def startPass : List Element → List Element → Bool → Pass
  | [], started, canContinue => ⟨started,canContinue,none⟩
  | e :: rest, started, canContinue =>
    if isStarted started e.tag then
      startPass rest started canContinue
    else if e.dependencies.any (fun d => !isStarted started d) then
      startPass rest started canContinue
    else
      match start e with
      | some err => ⟨started ++ [e],true,some ("start " ++ w.name e ++ ": " ++ err)⟩
      | none => startPass rest (started ++ [e]) true

/-- The explanation of a start that is stuck, from the first element that is not started on. The
result is empty when the calls go deeper than the given bound. -/
def lint (byTag : TagMap Element) (started : List Element) :
    ℕ → List String → Element → Option String
  | 0, _, _ => none
  | fuel + 1, tree, current =>
    let problem := (current.dependencies.find? (fun d => !isStarted started d)).getD ""
    if problem ∈ tree then
      some (w.circular ++ " -> ".intercalate tree ++ " -> " ++ problem)
    else
      match byTag.lookup problem with
      | none =>
        some ("dependency[" ++ problem ++ "] not found for " ++ w.kind ++ "[" ++ current.tag ++ "]")
      | some element => lint byTag started fuel (tree ++ [problem]) element

/-- The loop over the passes. The result is empty when it takes more turns than the bound. -/
def startAll (byTag : TagMap Element) (elements : List Element) :
    ℕ → List Element → Option Report
  | 0, _ => none
  | fuel + 1, started =>
    let pass := startPass w start elements started false
    match pass.failure with
    | some err => some ⟨.returned (some err),pass.started⟩
    | none =>
      if pass.started.length = elements.length then
        some ⟨.returned none,pass.started⟩
      else if pass.canContinue then
        startAll byTag elements fuel pass.started
      else
        -- Without an element left the source reads the tag of nothing.
        match elements.find? (fun e => !isStarted pass.started e.tag) with
        | none => some ⟨.panicked,pass.started⟩
        | some current =>
          (lint w byTag pass.started fuel [current.tag] current).map
            fun err => ⟨.returned (some err),pass.started⟩

def startOutbounds (lifecycle : Lifecycle) (outboundByTag : TagMap Element)
    (outbounds endpoints : List Element) (fuel : ℕ) : Option Report :=
  startAll outboundWording (lifecycle.start · .start) outboundByTag (outbounds ++ endpoints) fuel []

def startTransports (lifecycle : Lifecycle) (transportByTag : TagMap Element)
    (transports : List Element) (fuel : ℕ) : Option Report :=
  startAll transportWording (lifecycle.start · .start) transportByTag transports fuel []

section Passes

@[simp] lemma isStarted_iff {started : List Element} {tag : String} :
    isStarted started tag = true ↔ tag ∈ started.map Element.tag := by
  simp [isStarted]

/-- What the passes keep: the started elements are of the list, each tag once, and each comes
after its dependencies. -/
structure Orderly (elements started : List Element) : Prop where
  subset : started ⊆ elements
  nodup : (started.map Element.tag).Nodup
  inOrder : InOrder Element.tag Element.dependencies started

lemma orderly_nil (elements : List Element) : Orderly elements [] :=
  ⟨List.nil_subset _,List.nodup_nil,inOrder_nil⟩

lemma Orderly.snoc {elements started : List Element} {e : Element} (h : Orderly elements started)
    (he : e ∈ elements) (hn : e.tag ∉ started.map Element.tag)
    (hd : ∀ d ∈ e.dependencies,d ∈ started.map Element.tag) :
    Orderly elements (started ++ [e]) := by
  refine ⟨?_,?_,h.inOrder.snoc hd⟩
  · exact List.append_subset.mpr ⟨h.subset,by simpa using he⟩
  · rw [List.map_append,List.nodup_append]
    exact ⟨h.nodup,List.nodup_singleton _,by
      intro t ht u hu heq
      cases List.mem_singleton.mp hu
      exact hn (heq ▸ ht)⟩

lemma dependencies_started {started : List Element} {e : Element}
    (h : ¬ e.dependencies.any (fun d => !isStarted started d) = true) :
    ∀ d ∈ e.dependencies,d ∈ started.map Element.tag := by
  intro d hd
  by_contra hnot
  refine h (List.any_eq_true.mpr ⟨d,hd,?_⟩)
  rw [Bool.not_eq_true',Bool.eq_false_iff]
  exact mt isStarted_iff.mp hnot

lemma startPass_orderly {elements : List Element} (rest started : List Element) (can : Bool)
    (hr : rest ⊆ elements) (h : Orderly elements started) :
    Orderly elements (startPass w start rest started can).started := by
  fun_induction startPass w start rest started can with
  | case1 => exact h
  | case2 e rest started can _ ih => exact ih (List.subset_of_cons_subset hr) h
  | case3 e rest started can _ _ ih => exact ih (List.subset_of_cons_subset hr) h
  | case4 e rest started can hn hd err he =>
    exact h.snoc (hr List.mem_cons_self) (mt isStarted_iff.mpr hn) (dependencies_started hd)
  | case5 e rest started can hn hd hno ih =>
    exact ih (List.subset_of_cons_subset hr)
      (h.snoc (hr List.mem_cons_self) (mt isStarted_iff.mpr hn) (dependencies_started hd))

lemma startPass_failure (rest started : List Element) (can : Bool)
    (h : (startPass w start rest started can).failure ≠ none) :
    ∃ e ∈ rest,start e ≠ none := by
  fun_induction startPass w start rest started can with
  | case1 => exact absurd rfl h
  | case2 e rest started can _ ih =>
    obtain ⟨f,hf,hfa⟩ := ih h
    exact ⟨f,List.mem_cons_of_mem e hf,hfa⟩
  | case3 e rest started can _ _ ih =>
    obtain ⟨f,hf,hfa⟩ := ih h
    exact ⟨f,List.mem_cons_of_mem e hf,hfa⟩
  | case4 e rest started can _ _ err he =>
    exact ⟨e,List.mem_cons_self,by rw [he]; exact Option.some_ne_none err⟩
  | case5 e rest started can _ _ _ ih =>
    obtain ⟨f,hf,hfa⟩ := ih h
    exact ⟨f,List.mem_cons_of_mem e hf,hfa⟩

/-- What a pass adds to the started elements: it can be continued from exactly if that is something,
or it could before. -/
lemma startPass_added (rest started : List Element) (can : Bool) :
    ∃ added,(startPass w start rest started can).started = started ++ added ∧
      ((startPass w start rest started can).canContinue = true ↔ can = true ∨ added ≠ []) ∧
      ((startPass w start rest started can).failure = none → ∀ e ∈ added,start e = none) := by
  fun_induction startPass w start rest started can with
  | case1 => exact ⟨[],by simp⟩
  | case2 _ _ _ _ _ ih => exact ih
  | case3 _ _ _ _ _ _ ih => exact ih
  | case4 e => exact ⟨[e],rfl,by simp,nofun⟩
  | case5 e rest started can _ _ hn ih =>
    obtain ⟨added,hs,hc,hf⟩ := ih
    refine ⟨e :: added,?_,by simp [hc],fun h => List.forall_mem_cons.mpr ⟨hn,hf h⟩⟩
    rw [hs,List.append_assoc]
    rfl

lemma startPass_stuck (rest started : List Element) (can : Bool)
    (h : (startPass w start rest started can).canContinue = false) :
    (startPass w start rest started can).started = started ∧
      ∀ e ∈ rest,e.tag ∉ started.map Element.tag →
        ∃ d ∈ e.dependencies,d ∉ started.map Element.tag := by
  fun_induction startPass w start rest started can with
  | case1 => exact ⟨rfl,by simp⟩
  | case2 e rest started can hin ih =>
    obtain ⟨hs,hw⟩ := ih h
    refine ⟨hs,?_⟩
    intro f hf hn
    rcases List.mem_cons.mp hf with rfl | hf
    · exact absurd (isStarted_iff.mp hin) hn
    · exact hw f hf hn
  | case3 e rest started can _ hde ih =>
    obtain ⟨hs,hw⟩ := ih h
    refine ⟨hs,?_⟩
    intro f hf hn
    rcases List.mem_cons.mp hf with rfl | hf
    · obtain ⟨d,hd,hno⟩ := List.any_eq_true.mp hde
      exact ⟨d,hd,fun hin => by simp [isStarted_iff.mpr hin] at hno⟩
    · exact hw f hf hn
  | case4 => cases h
  | case5 e rest started can _ _ _ _ =>
    obtain ⟨added,-,hc,-⟩ := startPass_added w start rest (started ++ [e]) true
    rw [hc.mpr (.inl rfl)] at h
    cases h

end Passes

section Lint

variable {w} {byTag : TagMap Element} {started : List Element}

lemma lint_returns (fuel : ℕ) (tree : List String) (current : Element)
    (hfu : (byTag.keys.filter (· ∉ tree)).length < fuel) :
    ∃ err,lint w byTag started fuel tree current = some err := by
  induction fuel generalizing tree current with
  | zero => omega
  | succ fuel ih =>
    rw [lint]
    generalize (current.dependencies.find? (fun d => !isStarted started d)).getD "" = problem
    by_cases hin : problem ∈ tree
    · exact ⟨_,if_pos hin⟩
    · simp only [if_neg hin]
      cases hf : byTag.lookup problem with
      | none => exact ⟨_,rfl⟩
      | some element =>
        have hk : problem ∈ byTag.keys :=
          AList.mem_keys.mpr (AList.lookup_isSome.mp (by rw [hf]; rfl))
        have hs : byTag.keys.filter (· ∉ tree ++ [problem]) =
            (byTag.keys.filter (· ∉ tree)).filter (· ≠ problem) := by
          rw [List.filter_filter]
          refine List.filter_congr fun t _ => ?_
          simp [and_comm]
        have hlt : (byTag.keys.filter (· ∉ tree ++ [problem])).length <
            (byTag.keys.filter (· ∉ tree)).length := by
          rw [hs,List.length_filter_lt_length_iff_exists]
          exact ⟨problem,List.mem_filter.mpr ⟨hk,by simpa using hin⟩,by simp⟩
        exact ih _ _ (by omega)

lemma lint_succ {fuel : ℕ} {tree : List String} {current : Element} {err : String}
    (h : lint w byTag started fuel tree current = some err) :
    lint w byTag started (fuel + 1) tree current = some err := by
  induction fuel generalizing tree current with
  | zero => cases h
  | succ fuel ih =>
    rw [lint] at h ⊢
    generalize (current.dependencies.find? (fun d => !isStarted started d)).getD "" = problem at h ⊢
    by_cases hin : problem ∈ tree
    · simpa only [if_pos hin] using h
    · simp only [if_neg hin] at h ⊢
      cases hf : byTag.lookup problem with
      | none =>
        rw [hf] at h
        exact h
      | some element =>
        rw [hf] at h
        exact ih h

end Lint

section Runs

variable {w start} {byTag : TagMap Element} {elements : List Element}

lemma startAll_succ {fuel : ℕ} {started : List Element} {report : Report}
    (h : startAll w start byTag elements fuel started = some report) :
    startAll w start byTag elements (fuel + 1) started = some report := by
  induction fuel generalizing started with
  | zero => cases h
  | succ fuel ih =>
    rw [startAll] at h ⊢
    generalize startPass w start elements started false = pass at h ⊢
    cases hf : pass.failure with
    | some err => simpa only [hf] using h
    | none =>
      simp only [hf] at h ⊢
      split_ifs at h ⊢ with ha hca
      · exact h
      · exact ih h
      · cases hfi : elements.find? (fun e => !isStarted pass.started e.tag) with
        | none => simpa only [hfi] using h
        | some current =>
          simp only [hfi] at h ⊢
          obtain ⟨err,he,rfl⟩ := Option.map_eq_some_iff.mp h
          rw [lint_succ he]
          rfl

lemma startAll_of_le {fuel more : ℕ} {started : List Element} {report : Report}
    (h : startAll w start byTag elements fuel started = some report) (hle : fuel ≤ more) :
    startAll w start byTag elements more started = some report := by
  induction more,hle using Nat.le_induction with
  | base => exact h
  | succ more _ ih => exact startAll_succ ih

/-- What the report of a start says of the list: no error exactly where the list can be started,
and nothing started twice or too early in any case. -/
structure Settled (start : Element → Option String) (elements : List Element) (report : Report) :
    Prop where
  returns_nil_iff : report.result = .returned none ↔
    Supplied Element.tag Element.dependencies elements ∧
      NoCycle Element.tag Element.dependencies elements ∧ ∀ e ∈ elements, start e = none
  all_started : report.result = .returned none → report.started.Perm elements
  fails : report.result ≠ .returned none → ∃ err, report.result = .returned (some err)
  once : report.started.Nodup
  inOrder : InOrder Element.tag Element.dependencies report.started

lemma Orderly.perm {started : List Element} (h : Orderly elements started)
    (hl : started.length = elements.length) : started.Perm elements :=
  (List.subperm_of_subset (List.Nodup.of_map _ h.nodup) h.subset).perm_of_length_le hl.ge

lemma Orderly.exists_left {started : List Element} (h : Orderly elements started)
    (hn : (elements.map Element.tag).Nodup) (hl : started.length ≠ elements.length) :
    ∃ e ∈ elements,e.tag ∉ started.map Element.tag := by
  by_contra hall
  push Not at hall
  have hs : elements.map Element.tag ⊆ started.map Element.tag := by
    intro t ht
    obtain ⟨e,he,rfl⟩ := List.mem_map.mp ht
    exact hall e he
  have hle := (List.subperm_of_subset hn hs).length_le
  have hge := (List.subperm_of_subset (List.Nodup.of_map _ h.nodup) h.subset).length_le
  simp only [List.length_map] at hle
  omega

lemma settled_of_all {started : List Element} (h : Orderly elements started)
    (hl : started.length = elements.length) (hqu : ∀ e ∈ started,start e = none) :
    Settled start elements ⟨.returned none,started⟩ := by
  have hp := h.perm hl
  refine ⟨⟨fun _ => ⟨h.inOrder.supplied.perm hp,
    (noCycle_of_inOrder h.nodup h.inOrder).perm hp,?_⟩,fun _ => rfl⟩,fun _ => hp,?_,
    List.Nodup.of_map _ h.nodup,h.inOrder⟩
  · intro e he
    exact hqu e (hp.mem_iff.mpr he)
  · intro hne
    exact absurd rfl hne

lemma settled_of_error {started : List Element} (h : Orderly elements started) (err : String)
    (hb : ¬ (Supplied Element.tag Element.dependencies elements ∧
      NoCycle Element.tag Element.dependencies elements ∧ ∀ e ∈ elements,start e = none)) :
    Settled start elements ⟨.returned (some err),started⟩ := by
  refine ⟨⟨?_,fun hok => absurd hok hb⟩,?_,fun _ => ⟨err,rfl⟩,List.Nodup.of_map _ h.nodup,h.inOrder⟩
  · intro heq
    cases heq
  · intro heq
    cases heq

lemma startAll_settled (hno : (elements.map Element.tag).Nodup) (fuel : ℕ)
    (started : List Element) (ho : Orderly elements started)
    (hqu : ∀ e ∈ started,start e = none)
    (hfu : elements.length - started.length + byTag.keys.length + 1 < fuel) :
    ∃ report,startAll w start byTag elements fuel started = some report ∧
      Settled start elements report := by
  induction fuel generalizing started with
  | zero => omega
  | succ fuel ih =>
    rw [startAll]
    have hp := startPass_orderly w start elements started false (List.Subset.refl _) ho
    have hst := startPass_stuck w start elements started false
    obtain ⟨added,had,hco,hqa⟩ := startPass_added w start elements started false
    have hfa := startPass_failure w start elements started false
    generalize startPass w start elements started false = pass at *
    cases hf : pass.failure with
    | some err =>
      refine ⟨_,rfl,settled_of_error hp err ?_⟩
      rintro ⟨-,-,hnn⟩
      obtain ⟨e,he,hne⟩ := hfa (by rw [hf]; exact Option.some_ne_none err)
      exact hne (hnn e he)
    | none =>
      have hse : ∀ e ∈ pass.started,start e = none := by
        rw [had]
        exact List.forall_mem_append.mpr ⟨hqu,hqa hf⟩
      simp only
      split_ifs with ha hca
      · exact ⟨_,rfl,settled_of_all hp ha hse⟩
      · have hle : started.length < pass.started.length := by
          rw [had,List.length_append]
          exact Nat.lt_add_of_pos_right (List.length_pos_of_ne_nil (by simpa using hco.mp hca))
        have hb := (List.subperm_of_subset (List.Nodup.of_map _ hp.nodup) hp.subset).length_le
        exact ih pass.started hp hse (by omega)
      · obtain ⟨hsa,hw⟩ := hst (by simpa using hca)
        obtain ⟨e,he,hl⟩ := hp.exists_left hno ha
        have hfi : (elements.find? (fun e => !isStarted pass.started e.tag)).isSome := by
          rw [List.find?_isSome]
          exact ⟨e,he,by simpa [isStarted] using hl⟩
        obtain ⟨current,hcu⟩ := Option.isSome_iff_exists.mp hfi
        have hln : (byTag.keys.filter (· ∉ [current.tag])).length ≤ byTag.keys.length :=
          List.length_filter_le _ _
        have hli : ∃ err,lint w byTag pass.started fuel [current.tag] current = some err :=
          lint_returns fuel _ _ (by omega)
        obtain ⟨err,her⟩ := hli
        simp only [hcu,her,Option.map_some]
        refine ⟨_,rfl,settled_of_error hp err ?_⟩
        rintro ⟨hs,hcy,-⟩
        rw [hsa] at hl
        obtain ⟨n,hn,hnw,hr⟩ := exists_ready hs hcy (· ∈ started.map Element.tag) ⟨e,he,hl⟩
        obtain ⟨d,hd,hnt⟩ := hw n hn hnw
        exact hnt (hr d hd)

end Runs

/-- A start ends, and its report is the same for every bound from some bound on. -/
def StartsInOrder (lifecycle : Lifecycle) (elements : List Element) (run : ℕ → Option Report) :
    Prop :=
  ∃ report, (∃ bound, ∀ fuel, bound ≤ fuel → run fuel = some report) ∧
    Settled (lifecycle.start · .start) elements report

lemma startAll_startsInOrder (w : Wording) (lifecycle : Lifecycle) (byTag : TagMap Element)
    {elements : List Element} (hn : (elements.map Element.tag).Nodup) :
    StartsInOrder lifecycle elements
      fun fuel => startAll w (lifecycle.start · .start) byTag elements fuel [] := by
  have he : ∃ report,startAll w (lifecycle.start · .start) byTag elements
      (elements.length + byTag.keys.length + 2) [] = some report ∧
        Settled (lifecycle.start · .start) elements report :=
    startAll_settled hn _ [] (orderly_nil elements) (by simp) (by simp)
  obtain ⟨report,hr,hs⟩ := he
  exact ⟨report,⟨_,fun _ hle => startAll_of_le hr hle⟩,hs⟩

/-- The outbounds with the endpoints, and the DNS transports, start in the order of their
dependencies, and a start without an error is one that started them all. -/
theorem elements_start_in_order (lifecycle : Lifecycle) :
    (∀ outboundByTag outbounds endpoints, ((outbounds ++ endpoints).map Element.tag).Nodup →
      StartsInOrder lifecycle (outbounds ++ endpoints)
        (startOutbounds lifecycle outboundByTag outbounds endpoints)) ∧
    ∀ transportByTag transports, (transports.map Element.tag).Nodup →
      StartsInOrder lifecycle transports (startTransports lifecycle transportByTag transports) :=
  ⟨fun outboundByTag _ _ hn => startAll_startsInOrder outboundWording lifecycle outboundByTag hn,
    fun transportByTag _ hn => startAll_startsInOrder transportWording lifecycle transportByTag hn⟩

theorem proxy_starts_after_direct : StartsInOrder ⟨fun _ _ => none,fun _ => none⟩
      ([⟨.made 0,"socks","proxy",["direct"]⟩] ++ [⟨.endpoint 0,"wireguard","direct",[]⟩])
      (startOutbounds ⟨fun _ _ => none,fun _ => none⟩ ∅
        [⟨.made 0,"socks","proxy",["direct"]⟩] [⟨.endpoint 0,"wireguard","direct",[]⟩]) ∧
    StartsInOrder ⟨fun _ _ => none,fun _ => none⟩ [⟨.made 0,"udp","remote",["remote"]⟩]
      (startTransports ⟨fun _ _ => none,fun _ => none⟩ ∅
        [⟨.made 0,"udp","remote",["remote"]⟩]) :=
  ⟨(elements_start_in_order ⟨fun _ _ => none,fun _ => none⟩).1 ∅ _ _ (by decide),
    (elements_start_in_order ⟨fun _ _ => none,fun _ => none⟩).2 ∅ _ (by decide)⟩

section Options

def optionTags (tags : List String) : List String :=
  tags.mapIdx fun i tag => if tag = "" then toString i else tag

def checkSeen : List String → List String → Except String (List String)
  | seen, [] => .ok seen
  | seen, tag :: rest =>
    if tag ∈ seen then .error ("duplicate outbound/endpoint tag: " ++ tag)
    else checkSeen (tag :: seen) rest

def checkOutbounds (outbounds endpoints : List String) : Except String Unit := do
  let seen ← checkSeen [] (optionTags outbounds)
  let _ ← checkSeen seen (optionTags endpoints)
  return ()

lemma checkSeen_ok {seen tags after : List String} (h : checkSeen seen tags = .ok after)
    (hs : seen.Nodup) : after.Nodup ∧ after.Perm (seen ++ tags) := by
  induction tags generalizing seen with
  | nil =>
    cases h
    exact ⟨hs,by simp⟩
  | cons tag rest ih =>
    rw [checkSeen] at h
    split_ifs at h with hin
    obtain ⟨hn,hp⟩ := ih h (List.nodup_cons.mpr ⟨hin,hs⟩)
    refine ⟨hn,hp.trans ?_⟩
    rw [List.cons_append]
    exact List.perm_middle.symm

lemma nodup_of_checkOutbounds {outbounds endpoints : List String}
    (h : checkOutbounds outbounds endpoints = .ok ()) :
    (optionTags outbounds ++ optionTags endpoints).Nodup := by
  unfold checkOutbounds at h
  cases hf : checkSeen [] (optionTags outbounds) with
  | error err => simp [hf,bind,Except.bind] at h
  | ok seen =>
    cases hs : checkSeen seen (optionTags endpoints) with
    | error err => simp [hf,hs,bind,Except.bind] at h
    | ok after =>
      obtain ⟨hse,hp⟩ := checkSeen_ok hf List.nodup_nil
      obtain ⟨ha,hp'⟩ := checkSeen_ok hs hse
      rw [List.nil_append] at hp
      exact (hp'.trans (hp.append_right _)).nodup_iff.mp ha

end Options

end SingBoxAuth.Managers
