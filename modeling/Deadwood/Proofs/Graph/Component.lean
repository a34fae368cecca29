import Deadwood.Proofs.Graph.Reach
import Mathlib.Data.List.Nodup

/-!
# Components

The nodes that belong to a node are those with which it is mutually reachable. This is an
equivalence, so that the components of a graph share no node, and every node is in one of them. They
can be found in any order, with the nodes of each in any order: put in order, the ones of two or
more nodes are always the same list.

## Main definitions

* `CallGraph.Together`: two nodes reach each other.
* `CallGraph.IsComponent`: the nodes that belong together with one of them.
* `CallGraph.Lists`: all components of a graph, in any order.

## Main results

* `CallGraph.Lists.mem_arranged`: what any such listing comes to.
* `CallGraph.Represents.arranged_eq_components`: any such listing comes to the same.
* `CallGraph.Represents.exists_mem_components`: no component of two or more nodes is missing.
* `CallGraph.Represents.mem_components_iff`: the nodes that do not stand alone.
-/

namespace Deadwood.CallGraph

open Relation (ReflTransGen)

variable {R : Type} {edges : List (CallEdge R)} {g : CallGraph} {c c' : List Nat}
  {cs cs' : List (List Nat)} {i j k : Nat}

/-- Each of two nodes reaches the other. -/
def Together (g : CallGraph) (i j : Nat) : Prop :=
  ReflTransGen (fun a b => b ∈ g.succ a) i j ∧ ReflTransGen (fun a b => b ∈ g.succ a) j i

theorem Together.refl (i : Nat) : g.Together i i :=
  ⟨.refl, .refl⟩

@[grind →] theorem Together.symm (h : g.Together i j) : g.Together j i :=
  ⟨h.2, h.1⟩

@[grind →] theorem Together.trans (hij : g.Together i j) (hjk : g.Together j k) : g.Together i k :=
  ⟨hij.1.trans hjk.1, hjk.2.trans hij.2⟩

/-! ## Listings of components -/

/-- A node and all that belong to it, each once, in any order. -/
structure IsComponent (g : CallGraph) (c : List Nat) : Prop where
  nodup : c.Nodup
  exists_mem : ∃ i < g.size, i ∈ c
  mem_iff : ∀ i ∈ c, ∀ j, j ∈ c ↔ g.Together i j

theorem IsComponent.perm (h : g.IsComponent c) (hperm : c.Perm c') : g.IsComponent c' where
  nodup := hperm.nodup h.nodup
  exists_mem := by simpa only [hperm.mem_iff] using h.exists_mem
  mem_iff := by simpa only [hperm.mem_iff] using h.mem_iff

/-- Components that share a node have the same nodes. -/
theorem IsComponent.perm_of_mem (h : g.IsComponent c) (h' : g.IsComponent c') (hi : i ∈ c)
    (hi' : i ∈ c') : c.Perm c' := by
  refine (List.perm_ext_iff_of_nodup h.nodup h'.nodup).mpr fun j => ?_
  rw [h.mem_iff i hi, h'.mem_iff i hi']

/-- All components of a graph, each once, in any order. -/
structure Lists (g : CallGraph) (cs : List (List Nat)) : Prop where
  isComponent : ∀ c ∈ cs, g.IsComponent c
  disjoint : cs.Pairwise List.Disjoint
  covers : ∀ i < g.size, ∃ c ∈ cs, i ∈ c

theorem perm_arranged :
    (arranged cs).Perm ((cs.filter fun c => 2 ≤ c.length).map fun c => c.mergeSort (· ≤ ·)) :=
  List.mergeSort_perm _ _

theorem pairwise_sorted_component (h : g.IsComponent c) :
    (c.mergeSort (· ≤ ·)).Pairwise (· < ·) := by
  have hkeys : (c.map id).Nodup := by simpa using h.nodup
  refine pairwise_mergeSort_of_nodup ?_ ?_ ?_ hkeys
  · intro a b c
    simpa using Nat.le_trans
  · intro a b
    simpa using Nat.le_total a b
  · intro a b hle hne
    exact Nat.lt_of_le_of_ne (of_decide_eq_true hle) hne

namespace Lists

/-- Any listing comes to the components of two or more nodes, with their nodes in ascending
order. -/
theorem mem_arranged (h : g.Lists cs) :
    c ∈ arranged cs ↔ g.IsComponent c ∧ 2 ≤ c.length ∧ c.Pairwise (· < ·) := by
  simp only [perm_arranged.mem_iff, List.mem_map, List.mem_filter, decide_eq_true_eq]
  constructor
  · rintro ⟨c, ⟨hc, hlarge⟩, rfl⟩
    have hcomponent := h.isComponent c hc
    refine ⟨hcomponent.perm (List.mergeSort_perm _ _).symm, ?_,
      pairwise_sorted_component hcomponent⟩
    rwa [List.length_mergeSort]
  · rintro ⟨hcomponent, hlarge, hsorted⟩
    obtain ⟨i, hi, hic⟩ := hcomponent.exists_mem
    obtain ⟨c', hc', hic'⟩ := h.covers i hi
    have hperm := (h.isComponent c' hc').perm_of_mem hcomponent hic' hic
    refine ⟨c', ⟨hc', hperm.length_eq.symm ▸ hlarge⟩, ?_⟩
    refine List.Pairwise.eq_of_mem_iff (pairwise_sorted_component (h.isComponent c' hc')) hsorted ?_
    intro k
    rw [List.mem_mergeSort, hperm.mem_iff]

theorem disjoint_arranged (h : g.Lists cs) : (arranged cs).Pairwise List.Disjoint := by
  rw [perm_arranged.pairwise_iff List.disjoint_symm, List.pairwise_map]
  refine (h.disjoint.filter _).imp fun hdisjoint k hk hk' => ?_
  exact hdisjoint (List.mem_mergeSort.mp hk) (List.mem_mergeSort.mp hk')

/-- The components come in the order of their smallest nodes. -/
theorem pairwise_headD_arranged (h : g.Lists cs) :
    (arranged cs).Pairwise fun c c' => c.headD 0 < c'.headD 0 := by
  have hle : (arranged cs).Pairwise fun c c' => c.headD 0 ≤ c'.headD 0 :=
    pairwise_key_le_mergeSort _
  have hhead : ∀ c ∈ arranged cs, c.headD 0 ∈ c := by
    intro c hc
    obtain ⟨-, hlarge, -⟩ := h.mem_arranged.mp hc
    cases c with
    | nil => simp at hlarge
    | cons i c => exact List.mem_cons_self
  refine (hle.and h.disjoint_arranged).imp_of_mem fun {c c'} hc hc' hboth => ?_
  refine Nat.lt_of_le_of_ne hboth.1 fun heq => ?_
  exact hboth.2 (hhead c hc) (heq ▸ hhead c' hc')

/-- All listings come to the same. -/
theorem arranged_eq (h : g.Lists cs) (h' : g.Lists cs') : arranged cs = arranged cs' := by
  have : Std.Irrefl fun c c' : List Nat => c.headD 0 < c'.headD 0 := ⟨fun _ => Nat.lt_irrefl _⟩
  have : Std.Asymm fun c c' : List Nat => c.headD 0 < c'.headD 0 := ⟨fun _ _ => Nat.lt_asymm⟩
  refine List.Pairwise.eq_of_mem_iff h.pairwise_headD_arranged h'.pairwise_headD_arranged ?_
  intro c
  rw [h.mem_arranged, h'.mem_arranged]

end Lists

/-! ## The components of a graph -/

namespace Represents

theorem mem_componentOf (rep : g.Represents edges) (hi : i < g.size) :
    j ∈ g.componentOf i ↔ g.Together i j := by
  have hstarts : ∀ k ∈ [i], k < g.size := fun k hk => List.mem_singleton.mp hk ▸ hi
  simp only [componentOf, List.mem_filter, List.contains_iff_mem, rep.mem_reachableNodes hstarts,
    rep.mem_reachingNodes hstarts, List.mem_singleton, exists_eq_left]
  rfl

theorem isComponent_componentOf (rep : g.Represents edges) (hi : i < g.size) :
    g.IsComponent (g.componentOf i) where
  nodup := by
    have hstarts : ∀ k ∈ [i], k < g.size := fun k hk => List.mem_singleton.mp hk ▸ hi
    exact ((rep.pairwise_reachableNodes hstarts).imp Nat.ne_of_lt).filter _
  exists_mem := ⟨i, hi, (rep.mem_componentOf hi).mpr (.refl i)⟩
  mem_iff := by
    intro k hk j
    rw [rep.mem_componentOf hi] at hk ⊢
    exact ⟨hk.symm.trans, hk.trans⟩

/-- Going through some nodes keeps what was found, adds only further components, and leaves out no
node. -/
theorem classesFrom_spec (rep : g.Represents edges) {nodes : List Nat} {found : List (List Nat)}
    (hnodes : ∀ i ∈ nodes, i < g.size) (hfound : ∀ c ∈ found, g.IsComponent c)
    (hdisjoint : found.Pairwise List.Disjoint) :
    (∀ c ∈ g.classesFrom nodes found, g.IsComponent c) ∧
      (g.classesFrom nodes found).Pairwise List.Disjoint ∧
      (∀ c ∈ found, c ∈ g.classesFrom nodes found) ∧
      ∀ i ∈ nodes, ∃ c ∈ g.classesFrom nodes found, i ∈ c := by
  induction nodes generalizing found with
  | nil => exact ⟨hfound, hdisjoint, fun _ hc => hc, by simp⟩
  | cons i rest ih =>
    obtain ⟨hi, hrest⟩ := List.forall_mem_cons.mp hnodes
    unfold classesFrom
    split
    · rename_i hany
      obtain ⟨c, hc, hic⟩ := List.any_eq_true.mp hany
      obtain ⟨hsound, hapart, hkeep, hall⟩ := ih hrest hfound hdisjoint
      refine ⟨hsound, hapart, hkeep, List.forall_mem_cons.mpr ⟨?_, hall⟩⟩
      exact ⟨c, hkeep c hc, List.contains_iff_mem.mp hic⟩
    · rename_i hany
      have hnew : ∀ c ∈ found, i ∉ c := by simpa using hany
      have hcomponent := rep.isComponent_componentOf hi
      have hown : i ∈ g.componentOf i := (rep.mem_componentOf hi).mpr (.refl i)
      -- a component that shares a node with that of `i` has `i` in it
      have happ : ∀ c ∈ found, (g.componentOf i).Disjoint c := fun c hc k hk hk' =>
        hnew c hc ((hcomponent.perm_of_mem (hfound c hc) hk hk').mem_iff.mp hown)
      obtain ⟨hsound, hapart, hkeep, hall⟩ := ih hrest
        (List.forall_mem_cons.mpr ⟨hcomponent, hfound⟩) (List.pairwise_cons.mpr ⟨happ, hdisjoint⟩)
      refine ⟨hsound, hapart, fun c hc => hkeep c (List.mem_cons_of_mem _ hc), ?_⟩
      exact List.forall_mem_cons.mpr ⟨⟨_, hkeep _ List.mem_cons_self, hown⟩, hall⟩

theorem lists_classes (rep : g.Represents edges) : g.Lists g.classes := by
  have hnodes : ∀ i ∈ g.nodes, i < g.size := fun _ hi => List.mem_range.mp hi
  have hnone : ∀ c ∈ ([] : List (List Nat)), g.IsComponent c := by simp
  obtain ⟨hsound, hapart, -, hall⟩ := rep.classesFrom_spec hnodes hnone .nil
  exact ⟨hsound, hapart, fun i hi => hall i (List.mem_range.mpr hi)⟩

/-- However the components are found, those of two or more nodes come to the same list. -/
theorem arranged_eq_components (rep : g.Represents edges) (h : g.Lists cs) :
    arranged cs = g.components :=
  h.arranged_eq rep.lists_classes

theorem isComponent_of_mem_components (rep : g.Represents edges) (hc : c ∈ g.components) :
    g.IsComponent c :=
  (rep.lists_classes.mem_arranged.mp hc).1

/-- Two different nodes that reach each other lie in a listed component, with all that belongs to
them. -/
theorem exists_mem_components (rep : g.Represents edges) (hi : i < g.size) (hij : g.Together i j)
    (hne : i ≠ j) : ∃ c ∈ g.components, i ∈ c ∧ ∀ k, k ∈ c ↔ g.Together i k := by
  have hcomponent := rep.isComponent_componentOf hi
  have hlarge : 2 ≤ (g.componentOf i).length := by
    have hsub : [i, j] ⊆ g.componentOf i := by
      intro k hk
      rw [rep.mem_componentOf hi]
      rcases List.mem_pair.mp hk with rfl | rfl
      · exact .refl k
      · exact hij
    have hpair : [i, j].Nodup := by simpa using hne
    exact (hpair.subperm hsub).length_le
  have hperm := List.mergeSort_perm (g.componentOf i) (· ≤ ·)
  refine ⟨(g.componentOf i).mergeSort (· ≤ ·), rep.lists_classes.mem_arranged.mpr ⟨?_, ?_, ?_⟩,
    ?_, fun k => ?_⟩
  · exact hcomponent.perm hperm.symm
  · rwa [hperm.length_eq]
  · exact pairwise_sorted_component hcomponent
  · exact hperm.mem_iff.mpr ((rep.mem_componentOf hi).mpr (.refl i))
  · rw [hperm.mem_iff, rep.mem_componentOf hi]

/-- The listed components hold the nodes that belong together with some other node. -/
theorem mem_components_iff (rep : g.Represents edges) :
    (∃ c ∈ g.components, i ∈ c) ↔ ∃ j, j ≠ i ∧ g.Together i j := by
  constructor
  · rintro ⟨c, hc, hic⟩
    obtain ⟨hcomponent, hlarge, -⟩ := rep.lists_classes.mem_arranged.mp hc
    by_contra! halone
    have hsub : c ⊆ [i] := by
      intro j hj
      by_contra hne
      exact halone j (fun h => hne (List.mem_singleton.mpr h)) ((hcomponent.mem_iff i hic j).mp hj)
    have hsmall := (hcomponent.nodup.subperm hsub).length_le
    rw [List.length_singleton] at hsmall
    omega
  · rintro ⟨j, hne, hij⟩
    have hi : i < g.size := by
      rcases hij.1.cases_head with heq | ⟨k, hik, -⟩
      · exact absurd heq.symm hne
      · exact ((rep.mem_succ i k).mp hik).2.1
    obtain ⟨c, hc, hic, -⟩ := rep.exists_mem_components hi hij hne.symm
    exact ⟨c, hc, hic⟩

end Represents

end Deadwood.CallGraph
