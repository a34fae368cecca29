import Deadwood.Proofs.Graph.Reach
import Deadwood.Proofs.Text.Utf8

/-!
# What a call graph is made of

The graph of a list of calls is determined by which functions call each other, and its parts agree
with each other: ids and numbers of nodes are one to one and in the same order, and the sources of
the nodes are the transposed targets. Searches rely on all of this.

## Main results

* `CallGraph.Represents.idAt_injective`: nodes are told apart by their ids.
* `CallGraph.ofEdges_representation`: the graph of a list of calls.
-/

namespace Deadwood.CallGraph

variable {R : Type} {edges : List (CallEdge R)} {g : CallGraph} {i j : Nat}

theorem Represents.index?_idAt (rep : g.Represents edges) (hi : i < g.size) :
    g.index? (g.idAt i) = some i :=
  (index?_eq_some rep.ascending).mpr ⟨hi, rfl⟩

theorem Represents.idAt_injective (rep : g.Represents edges) (hi : i < g.size) (hj : j < g.size)
    (h : g.idAt i = g.idAt j) : i = j := by
  have hindex := rep.index?_idAt hi
  rw [h, rep.index?_idAt hj] at hindex
  exact (Option.some.inj hindex).symm

theorem isSome_index?_iff (h : g.ids.toList.Pairwise (· < ·)) {id : String} :
    (g.index? id).isSome ↔ id ∈ g.ids.toList := by
  rw [Option.isSome_iff_exists]
  simp only [index?_eq_some h]
  constructor
  · rintro ⟨i, hi, rfl⟩
    exact List.mem_of_getElem? (getElem?_ids hi)
  · exact exists_idAt

/-- Whatever the order of some calls is and however often each of them is listed, the ids of their
graph are in the strict order of their bytes, and they are the further ids and the ends of the calls
inside the code. Numbers and ids of nodes are inverse to each other. Targets and sources of a node
are in strict order and do not hold the node. One node is a target of another if and only if that
one is among its sources, that is, if a call leads from the one id to the other, different one. A
node is marked if and only if a call leads from its id to the same id. -/
theorem ofEdges_representation (edges : List (CallEdge R)) (extra : List String) :
    let g := ofEdges edges extra
    g.ids.toList.Pairwise (fun a b => List.Lex (· < ·) (Text.utf8 a) (Text.utf8 b)) ∧
      (∀ id, id ∈ g.ids.toList ↔
        id ∈ extra ∨ ∃ e ∈ edges, e.isInternal ∧ (e.caller = id ∨ e.callee = id)) ∧
      (∀ id, (g.index? id).isSome ↔ id ∈ g.ids.toList) ∧
      (∀ id i, g.index? id = some i ↔ i < g.size ∧ g.idAt i = id) ∧
      (∀ i, (g.succ i).Pairwise (· < ·) ∧ i ∉ g.succ i) ∧
      (∀ i, (g.pred i).Pairwise (· < ·) ∧ i ∉ g.pred i) ∧
      (∀ i j, j ∈ g.succ i ↔ i ∈ g.pred j) ∧
      (∀ i j, j ∈ g.succ i ↔ i < g.size ∧ j < g.size ∧ g.idAt j ≠ g.idAt i ∧
        ∃ e ∈ edges, e.isInternal ∧ e.caller = g.idAt i ∧ e.callee = g.idAt j) ∧
      ∀ i, g.hasLoop i ↔ i < g.size ∧
        ∃ e ∈ edges, e.isInternal ∧ e.caller = g.idAt i ∧ e.callee = g.idAt i := by
  intro g
  have rep : g.Represents edges := represents_ofEdges edges extra
  have hself : ∀ i, i ∉ g.succ i := fun i hi => ((rep.mem_succ i i).mp hi).1 rfl
  refine ⟨rep.ascending.imp fun {a b} h => (Text.utf8_lex_iff a b).mpr h, fun id => mem_nodeIds,
    fun id => isSome_index?_iff rep.ascending, fun id i => index?_eq_some rep.ascending,
    fun i => ⟨rep.succ_ascending i, hself i⟩, fun i => ⟨rep.pred_ascending i, fun hi => ?_⟩,
    fun i j => (rep.mem_pred j i).symm, fun i j => ?_, rep.hasLoop⟩
  · exact hself i ((rep.mem_pred i i).mp hi)
  · rw [rep.mem_succ]
    constructor
    · rintro ⟨hne, hi, hj, hcalls⟩
      exact ⟨hi, hj, fun h => hne (rep.idAt_injective hj hi h), hcalls⟩
    · rintro ⟨hi, hj, hne, hcalls⟩
      exact ⟨fun h => hne (h ▸ rfl), hi, hj, hcalls⟩

end Deadwood.CallGraph
