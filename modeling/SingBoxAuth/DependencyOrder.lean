import Mathlib.Data.Fintype.Card
import Mathlib.Data.List.Nodup
import Mathlib.Data.Set.Finite.List
import Mathlib.Logic.Relation
import Mathlib.Order.WellFounded

/-! Nodes that name the tags they depend on: orders that respect the dependencies, and why a
graph without a cycle always has a node whose turn it is. -/
namespace SingBoxAuth.DependencyOrder

variable {N T : Type} (tag : N → T) (deps : N → List T)

def Supplied (nodes : List N) : Prop := ∀ n ∈ nodes, ∀ d ∈ deps n, d ∈ nodes.map tag

def DependsOn (nodes : List N) (t u : T) : Prop := ∃ n ∈ nodes, tag n = t ∧ u ∈ deps n

def NoCycle (nodes : List N) : Prop := ∀ t, ¬ Relation.TransGen (DependsOn tag deps nodes) t t

def InOrder (order : List N) : Prop :=
  ∀ before n after, order = before ++ n :: after → ∀ d ∈ deps n, d ∈ before.map tag

variable {tag deps}

lemma inOrder_nil : InOrder tag deps [] := by
  intro before n after h
  simp at h

lemma InOrder.snoc {order : List N} {m : N} (h : InOrder tag deps order)
    (hm : ∀ d ∈ deps m,d ∈ order.map tag) : InOrder tag deps (order ++ [m]) := by
  intro before n after heq d hd
  rcases List.eq_nil_or_concat after with rfl | ⟨rest,last,rfl⟩
  · obtain ⟨rfl,hmn⟩ := List.append_inj' heq rfl
    cases List.singleton_inj.mp hmn
    exact hm d hd
  · rw [List.concat_eq_append,← List.cons_append,← List.append_assoc] at heq
    obtain ⟨ho,-⟩ := List.append_inj' heq rfl
    exact h before n rest ho d hd

/-- Where nothing is left to wait for, some node has its turn: the dependencies that are not done
yet cannot go down for ever. -/
theorem exists_ready {nodes : List N} (hs : Supplied tag deps nodes)
    (hc : NoCycle tag deps nodes) (done : T → Prop) (hl : ∃ n ∈ nodes,¬ done (tag n)) :
    ∃ n ∈ nodes,¬ done (tag n) ∧ ∀ d ∈ deps n,done d := by
  let below : {t // t ∈ nodes.map tag} → {t // t ∈ nodes.map tag} → Prop :=
    fun u t => Relation.TransGen (DependsOn tag deps nodes) t.1 u.1
  have : Finite {t // t ∈ nodes.map tag} := (List.finite_toSet (nodes.map tag)).to_subtype
  have : IsTrans _ below := ⟨fun _ _ _ hab hbc => hbc.trans hab⟩
  have : Std.Irrefl below := ⟨fun t h => hc t.1 h⟩
  have hwf : WellFounded below := Finite.wellFounded_of_trans_of_irrefl below
  obtain ⟨m,hm,hmd⟩ := hl
  obtain ⟨least,hle,hmi⟩ := hwf.has_min {t | ¬ done t.1} ⟨⟨tag m,List.mem_map_of_mem hm⟩,hmd⟩
  obtain ⟨n,hn,ht⟩ := List.mem_map.mp least.2
  refine ⟨n,hn,by rwa [ht],?_⟩
  intro d hd
  by_contra hno
  have hb : DependsOn tag deps nodes least.1 d := ⟨n,hn,ht,hd⟩
  exact hmi ⟨d,hs n hn d hd⟩ hno (Relation.TransGen.single hb)

section

variable [DecidableEq T]

lemma idxOf_lt_of_inOrder {order : List N} (hno : (order.map tag).Nodup)
    (ho : InOrder tag deps order) {t u : T} (h : DependsOn tag deps order t u) :
    (order.map tag).idxOf u < (order.map tag).idxOf t := by
  obtain ⟨n,hn,rfl,hu⟩ := h
  obtain ⟨before,after,rfl⟩ := List.append_of_mem hn
  have hb := ho before n after rfl u hu
  have hnt : tag n ∉ before.map tag := by
    rw [List.map_append,List.map_cons] at hno
    intro hin
    exact List.disjoint_of_nodup_append hno hin List.mem_cons_self
  rw [List.map_append,List.map_cons,List.idxOf_append_of_mem hb,
    List.idxOf_append_of_notMem hnt,List.idxOf_cons_self]
  have := List.idxOf_lt_length_of_mem hb
  omega

/-- Nodes that stand in an order have no cycle. -/
theorem noCycle_of_inOrder {order : List N} (hn : (order.map tag).Nodup)
    (ho : InOrder tag deps order) : NoCycle tag deps order := by
  intro t h
  have hd : ∀ u,Relation.TransGen (DependsOn tag deps order) t u →
      (order.map tag).idxOf u < (order.map tag).idxOf t := by
    intro u hu
    induction hu with
    | single hs => exact idxOf_lt_of_inOrder hn ho hs
    | tail _ hs ih => exact (idxOf_lt_of_inOrder hn ho hs).trans ih
  exact lt_irrefl _ (hd t h)

end

lemma InOrder.supplied {order : List N} (ho : InOrder tag deps order) :
    Supplied tag deps order := by
  intro n hn d hd
  obtain ⟨before,after,rfl⟩ := List.append_of_mem hn
  rw [List.map_append]
  exact List.mem_append_left _ (ho before n after rfl d hd)

lemma Supplied.perm {nodes nodes' : List N} (h : Supplied tag deps nodes)
    (hp : nodes.Perm nodes') : Supplied tag deps nodes' := fun n hn d hd =>
  (hp.map tag).mem_iff.mp (h n (hp.mem_iff.mpr hn) d hd)

lemma NoCycle.perm {nodes nodes' : List N} (h : NoCycle tag deps nodes)
    (hp : nodes.Perm nodes') : NoCycle tag deps nodes' := by
  have hs : DependsOn tag deps nodes' = DependsOn tag deps nodes := by
    funext t u
    simp only [DependsOn,hp.mem_iff]
  intro t
  rw [hs]
  exact h t

end SingBoxAuth.DependencyOrder
