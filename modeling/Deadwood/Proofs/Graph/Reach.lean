import Deadwood.Graph.Component
import Deadwood.Proofs.Graph.Arrows
import Mathlib.Data.List.Perm.Subperm
import Mathlib.Logic.Relation

/-!
# Call graphs and what they reach

A call graph stands for the calls that stay inside the analysed code. A queue of nodes that are
still to be looked at finds exactly those to which a path leads: a node is in the queue at most
once, so there are enough rounds to look at all of them, and the targets of every node that was
looked at are in the queue.

## Main definitions

* `Calls`: one function calls another.
* `Sweep.Searches`: what a search has found while it works through its queue.
* `CallGraph.Represents`: a graph that stands for a list of calls.

## Main results

* `drain_spec`: what every node of a queue keeps holds when the queue is done.
* `Sweep.Searches.handle`, `Sweep.mem_visited_run`: one node of the queue, and a whole search.
* `CallGraph.represents_ofEdges`: the graph of a list of calls stands for it.
* `CallGraph.mem_reachable`, `CallGraph.pairwise_reachable`: the ids that some ids reach.
-/

namespace Deadwood

open Relation (ReflTransGen)

/-! ## Queues -/

section Queue

variable {σ : Type} {queue : σ → List Nat} {handle : Nat → σ → σ} {Inv : Nat → σ → Prop}

/-- What holds of a queue, and is kept when its next node is handled, holds in the end. The rounds
are used up then, or no node is left. -/
theorem exists_drain
    (hstep : ∀ head s i, Inv head s → (queue s)[head]? = some i → Inv (head + 1) (handle i s))
    (rounds : Nat) {head : Nat} {s : σ} (h : Inv head s) :
    ∃ done, Inv done (drain queue handle rounds head s) ∧
      (done = head + rounds ∨ (queue (drain queue handle rounds head s)).length ≤ done) := by
  induction rounds generalizing head s with
  | zero => exact ⟨head, h, .inl rfl⟩
  | succ rounds ih =>
    unfold drain
    split
    · rename_i hnone
      exact ⟨head, h, .inr (List.getElem?_eq_none_iff.mp hnone)⟩
    · rename_i i hi
      obtain ⟨done, hdone, hend⟩ := ih (hstep head s i h hi)
      exact ⟨done, hdone, hend.imp_left (by omega)⟩

variable (Inv) in
/-- If a queue never holds more nodes than there are rounds, all its nodes are handled. -/
theorem drain_spec
    (hstep : ∀ head s i, Inv head s → (queue s)[head]? = some i → Inv (head + 1) (handle i s))
    {rounds : Nat} (hshort : ∀ head s, Inv head s → (queue s).length ≤ rounds) {s : σ}
    (h : Inv 0 s) :
    ∃ done, Inv done (drain queue handle rounds 0 s) ∧
      (queue (drain queue handle rounds 0 s)).length ≤ done := by
  obtain ⟨done, hdone, rfl | hend⟩ := exists_drain hstep rounds h
  · exact ⟨_, hdone, by simpa using hshort _ _ hdone⟩
  · exact ⟨done, hdone, hend⟩

/-- The next node of a queue is the last one among those that are handled then. -/
theorem mem_take_succ {q : List Nat} {head i k : Nat} (hi : q[head]? = some i) (more : List Nat) :
    k ∈ (q ++ more).take (head + 1) ↔ k ∈ q.take head ∨ k = i := by
  have hlt : head < q.length := (List.getElem?_eq_some_iff.mp hi).1
  rw [List.take_append_of_le_length hlt, List.take_add_one, hi]
  simp

end Queue

theorem length_le_of_nodup {is : List Nat} {n : Nat} (hnodup : is.Nodup) (h : ∀ i ∈ is, i < n) :
    is.length ≤ n := by
  have hsub : is ⊆ List.range n := fun i hi => List.mem_range.mpr (h i hi)
  simpa using (hnodup.subperm hsub).length_le

/-! ## Nodes that are found -/

namespace Sweep

variable {step : Nat → List Nat} {starts : List Nat} {s : Sweep} {n i j head : Nat}

/-- The queue holds every visited node once. -/
structure Marks (s : Sweep) : Prop where
  ascending : s.visited.Pairwise (· < ·)
  mem_visited : ∀ i, i ∈ s.visited ↔ i ∈ s.queue
  nodup : s.queue.Nodup

theorem Marks.visit (h : s.Marks) (i : Nat) : (s.visit i).Marks := by
  unfold Sweep.visit
  split_ifs with hseen
  · exact h
  · have hnew : i ∉ s.queue := by simpa [h.mem_visited] using hseen
    refine ⟨pairwise_insertNat h.ascending, fun k => ?_, ?_⟩
    · simp only [mem_insertNat, h.mem_visited, List.mem_append, List.mem_singleton, or_comm]
    · refine List.nodup_append.mpr ⟨h.nodup, List.nodup_singleton i, ?_⟩
      rintro a ha b hb rfl
      exact hnew (List.mem_singleton.mp hb ▸ ha)

/-- The queue only grows, by the nodes that are new. -/
theorem exists_foldl_visit (h : s.Marks) (js : List Nat) :
    (js.foldl visit s).Marks ∧ ∃ more, (js.foldl visit s).queue = s.queue ++ more ∧
      ∀ k, k ∈ s.queue ++ more ↔ k ∈ s.queue ∨ k ∈ js := by
  induction js generalizing s with
  | nil => exact ⟨h, [], by simp⟩
  | cons j js ih =>
    obtain ⟨hmarks, more, hqueue, hmem⟩ := ih (h.visit j)
    rw [List.foldl_cons]
    refine ⟨hmarks, ?_⟩
    by_cases hseen : s.visited.contains j
    · have hsame : s.visit j = s := if_pos hseen
      have hj : j ∈ s.queue := (h.mem_visited j).mp (List.contains_iff_mem.mp hseen)
      rw [hsame] at hqueue hmem ⊢
      refine ⟨more, hqueue, fun k => (hmem k).trans ?_⟩
      grind
    · have hnew : (s.visit j).queue = s.queue ++ [j] := by
        rw [Sweep.visit, if_neg hseen]
      rw [hnew] at hqueue hmem
      refine ⟨j :: more, by simpa using hqueue, fun k => ?_⟩
      have := hmem k
      simp only [List.append_assoc, List.singleton_append] at this
      grind

/-- What a search from some starts among `n` nodes knows when it has handled the first nodes of its
queue: only nodes that are reached were found, and all targets of the handled nodes. -/
structure Searches (step : Nat → List Nat) (starts : List Nat) (n head : Nat) (s : Sweep) :
    Prop where
  marks : s.Marks
  lt : ∀ i ∈ s.queue, i < n
  reached : ∀ j ∈ s.queue, ∃ i ∈ starts, ReflTransGen (fun a b => b ∈ step a) i j
  mem_starts : ∀ i ∈ starts, i ∈ s.queue
  closed : ∀ i ∈ s.queue.take head, ∀ j ∈ step i, j ∈ s.queue

theorem searches_starts (step : Nat → List Nat) (hstarts : ∀ i ∈ starts, i < n) :
    Searches step starts n 0 (starts.foldl visit {}) := by
  have hempty : ({} : Sweep).Marks := ⟨.nil, by simp, .nil⟩
  obtain ⟨hmarks, more, hqueue, hmem⟩ := exists_foldl_visit hempty starts
  have hmem' : ∀ k, k ∈ (starts.foldl visit {}).queue ↔ k ∈ starts := by
    intro k
    rw [hqueue, hmem]
    simp
  exact ⟨hmarks, fun i hi => hstarts i ((hmem' i).mp hi),
    fun j hj => ⟨j, (hmem' j).mp hj, .refl⟩, fun i hi => (hmem' i).mpr hi, by simp⟩

/-- Handling the next node of the queue. -/
theorem Searches.handle (hstep : ∀ i < n, ∀ j ∈ step i, j < n)
    (h : Searches step starts n head s) (hi : s.queue[head]? = some i) :
    Searches step starts n (head + 1) (s.handle step i) := by
  have hmemi : i ∈ s.queue := List.mem_of_getElem? hi
  obtain ⟨hmarks, more, hqueue, hmem⟩ := exists_foldl_visit h.marks (step i)
  have hnow : ∀ k, k ∈ (s.handle step i).queue ↔ k ∈ s.queue ∨ k ∈ step i := by
    intro k
    rw [Sweep.handle, hqueue, hmem]
  refine ⟨hmarks, fun k hk => ?_, fun k hk => ?_, fun k hk => ?_, fun k hk j hj => ?_⟩
  · rcases (hnow k).mp hk with hk | hk
    · exact h.lt k hk
    · exact hstep i (h.lt i hmemi) k hk
  · rcases (hnow k).mp hk with hk | hk
    · exact h.reached k hk
    · obtain ⟨start, hstart, hpath⟩ := h.reached i hmemi
      exact ⟨start, hstart, hpath.tail hk⟩
  · exact (hnow k).mpr (.inl (h.mem_starts k hk))
  · rw [Sweep.handle, hqueue, mem_take_succ hi more] at hk
    rw [hnow]
    rcases hk with hk | rfl
    · exact .inl (h.closed k hk j hj)
    · exact .inr hj

theorem exists_searches_run (hstarts : ∀ i ∈ starts, i < n)
    (hstep : ∀ i < n, ∀ j ∈ step i, j < n) :
    ∃ done, Searches step starts n done (run step n starts) ∧
      (run step n starts).queue.length ≤ done :=
  drain_spec (Searches step starts n) (fun _ _ _ h hi => h.handle hstep hi)
    (fun _ _ h => length_le_of_nodup h.marks.nodup h.lt) (searches_starts step hstarts)

theorem pairwise_visited_run (hstarts : ∀ i ∈ starts, i < n)
    (hstep : ∀ i < n, ∀ j ∈ step i, j < n) : (run step n starts).visited.Pairwise (· < ·) := by
  obtain ⟨done, h, -⟩ := exists_searches_run hstarts hstep
  exact h.marks.ascending

/-- A search finds exactly what its starts reach. -/
theorem mem_visited_run (hstarts : ∀ i ∈ starts, i < n) (hstep : ∀ i < n, ∀ j ∈ step i, j < n) :
    j ∈ (run step n starts).visited ↔
      ∃ i ∈ starts, ReflTransGen (fun a b => b ∈ step a) i j := by
  obtain ⟨done, h, hdone⟩ := exists_searches_run hstarts hstep
  rw [h.marks.mem_visited]
  refine ⟨h.reached j, ?_⟩
  rintro ⟨i, hi, hpath⟩
  have hclosed := h.closed
  rw [List.take_of_length_le hdone] at hclosed
  induction hpath with
  | refl => exact h.mem_starts i hi
  | tail _ hlast ih => exact hclosed _ ih _ hlast

end Sweep

/-! ## Graphs of calls -/

variable {R : Type} {edges : List (CallEdge R)} {extra : List String}

/-- One of the calls leads from a function to a function. -/
def Calls (edges : List (CallEdge R)) (a b : String) : Prop :=
  ∃ e ∈ edges, e.isInternal ∧ e.caller = a ∧ e.callee = b

namespace CallGraph

/-- A graph that stands for a list of calls. -/
structure Represents (g : CallGraph) (edges : List (CallEdge R)) : Prop where
  ascending : g.ids.toList.Pairwise (· < ·)
  covers : ∀ a b, Calls edges a b → a ∈ g.ids.toList ∧ b ∈ g.ids.toList
  succ_ascending : ∀ i, (g.succ i).Pairwise (· < ·)
  mem_succ : ∀ i j, j ∈ g.succ i ↔
    j ≠ i ∧ i < g.size ∧ j < g.size ∧ Calls edges (g.idAt i) (g.idAt j)
  pred_ascending : ∀ i, (g.pred i).Pairwise (· < ·)
  mem_pred : ∀ i j, j ∈ g.pred i ↔ i ∈ g.succ j
  hasLoop : ∀ i, g.hasLoop i ↔ i < g.size ∧ Calls edges (g.idAt i) (g.idAt i)
  loops_nodup : g.loops.Nodup

theorem idxOf?_eq_some_of_ascending {ids : List String} (h : ids.Pairwise (· < ·)) {id : String}
    {i : Nat} : ids.idxOf? id = some i ↔ ids[i]? = some id := by
  rw [List.idxOf?_eq_some_iff, List.getElem?_eq_some_iff]
  constructor
  · rintro ⟨hi, hid, -⟩
    exact ⟨hi, hid⟩
  · rintro ⟨hi, hid⟩
    refine ⟨hi, hid, fun j hj heq => ?_⟩
    have hlt := List.pairwise_iff_getElem.mp h j i (by omega) hi hj
    exact String.ne_of_lt hlt (heq.trans hid.symm)

theorem mem_arrows {ids : List String} (h : ids.Pairwise (· < ·)) {a b : Nat} :
    (a, b) ∈ arrows ids edges ↔
      ∃ x y, ids[a]? = some x ∧ ids[b]? = some y ∧ Calls edges x y := by
  simp only [arrows, List.mem_filterMap, Option.ite_none_right_eq_some]
  constructor
  · rintro ⟨e, he, hinternal, hpair⟩
    split at hpair
    · rename_i a' b' hcaller hcallee
      obtain ⟨rfl, rfl⟩ : a' = a ∧ b' = b := by simpa using hpair
      rw [idxOf?_eq_some_of_ascending h] at hcaller hcallee
      exact ⟨_, _, hcaller, hcallee, e, he, hinternal, rfl, rfl⟩
    · simp at hpair
  · rintro ⟨x, y, hx, hy, e, he, hinternal, rfl, rfl⟩
    rw [← idxOf?_eq_some_of_ascending h] at hx hy
    exact ⟨e, he, hinternal, by simp [hx, hy]⟩

/-- The ids of the nodes are those of the calls and the further ones. -/
@[grind =] theorem mem_nodeIds {id : String} :
    id ∈ nodeIds edges extra ↔ id ∈ extra ∨ ∃ e ∈ edges, e.isInternal ∧
      (e.caller = id ∨ e.callee = id) := by
  simp only [nodeIds, mem_distinctTexts, List.mem_append, List.mem_flatMap]
  refine or_congr .rfl (exists_congr fun e => and_congr .rfl ?_)
  split
  · rename_i h
    simp only [h, true_and, List.mem_cons, List.not_mem_nil, or_false, eq_comm]
  · rename_i h
    simp [h]

section Numbering

variable {g : CallGraph} {i : Nat} {id : String}

theorem getElem?_ids (h : i < g.size) : g.ids.toList[i]? = some (g.idAt i) := by
  have hi : i < g.ids.size := h
  simp [idAt, hi]

theorem index?_eq_some (h : g.ids.toList.Pairwise (· < ·)) :
    g.index? id = some i ↔ i < g.size ∧ g.idAt i = id := by
  rw [index?, idxOf?_eq_some_of_ascending h]
  by_cases hi : i < g.size
  · simp [getElem?_ids hi, hi]
  · have hlen : g.ids.toList.length ≤ i := Nat.le_of_not_lt hi
    simp [hi, List.getElem?_eq_none hlen]

theorem exists_idAt (h : id ∈ g.ids.toList) : ∃ i < g.size, g.idAt i = id := by
  obtain ⟨i, hi, hid⟩ := List.getElem_of_mem h
  have hsome := getElem?_ids (g := g) hi
  rw [List.getElem?_eq_getElem hi, hid] at hsome
  exact ⟨i, hi, (Option.some.inj hsome).symm⟩

theorem idAt_lt_idAt (h : g.ids.toList.Pairwise (· < ·)) {j : Nat} (hij : i < j)
    (hj : j < g.size) : g.idAt i < g.idAt j := by
  have hi : i < g.size := Nat.lt_trans hij hj
  obtain ⟨hi', hx⟩ := List.getElem?_eq_some_iff.mp (getElem?_ids hi)
  obtain ⟨hj', hy⟩ := List.getElem?_eq_some_iff.mp (getElem?_ids hj)
  rw [← hx, ← hy]
  exact List.pairwise_iff_getElem.mp h i j hi' hj' hij

end Numbering

/-- Calls are read as arrows between nodes. -/
theorem reads_arrows {ids : List String} (h : ids.Pairwise (· < ·)) :
    (Arrows.read ids.length (arrows ids edges)).Reads ids.length (arrows ids edges) := by
  refine Arrows.reads_read fun p hp => ?_
  obtain ⟨x, y, hx, hy, -⟩ := (mem_arrows h).mp hp
  exact ⟨(List.getElem?_eq_some_iff.mp hx).1, (List.getElem?_eq_some_iff.mp hy).1⟩

/-- The graph of a list of calls stands for it. -/
theorem represents_ofEdges (edges : List (CallEdge R)) (extra : List String) :
    (ofEdges edges extra).Represents edges := by
  have hsorted : (nodeIds edges extra).Pairwise (· < ·) := pairwise_distinctTexts _
  let g := ofEdges edges extra
  have harrow : ∀ a b, (a, b) ∈ arrows (nodeIds edges extra) edges ↔
      a < g.size ∧ b < g.size ∧ Calls edges (g.idAt a) (g.idAt b) := by
    intro a b
    have hid : ∀ i x, (nodeIds edges extra)[i]? = some x ↔ i < g.size ∧ g.idAt i = x := by
      intro i x
      rw [← idxOf?_eq_some_of_ascending hsorted]
      exact index?_eq_some (g := g) hsorted
    simp only [mem_arrows hsorted, hid]
    constructor
    · rintro ⟨_, _, ⟨ha, rfl⟩, ⟨hb, rfl⟩, hcalls⟩
      exact ⟨ha, hb, hcalls⟩
    · rintro ⟨ha, hb, hcalls⟩
      exact ⟨_, _, ⟨ha, rfl⟩, ⟨hb, rfl⟩, hcalls⟩
  let read := Arrows.read (nodeIds edges extra).length (arrows (nodeIds edges extra) edges)
  have reads : read.Reads _ (arrows (nodeIds edges extra) edges) := reads_arrows hsorted
  have hsucc : ∀ i, g.succ i = Arrows.row read.targets i := by
    intro i
    simp only [g, read, succ, ofEdges, Arrows.row, List.getElem?_toArray]
  have hpred : ∀ i, g.pred i = Arrows.row (read.sources.map (·.mergeSort (· ≤ ·))) i := by
    intro i
    simp only [g, read, pred, ofEdges, Arrows.row, List.getElem?_toArray]
  refine ⟨hsorted, fun a b hcalls => ?_, fun i => ?_, fun i j => ?_, fun i => ?_, fun i j => ?_,
    fun i => ?_, reads.loops_ascending.imp Nat.ne_of_lt⟩
  · obtain ⟨e, he, hinternal, rfl, rfl⟩ := hcalls
    have hnode : ∀ id, e.caller = id ∨ e.callee = id → id ∈ nodeIds edges extra :=
      fun id h => mem_nodeIds.mpr (.inr ⟨e, he, hinternal, h⟩)
    exact ⟨hnode _ (.inl rfl), hnode _ (.inr rfl)⟩
  · rw [hsucc]
    exact reads.targets_ascending i
  · rw [hsucc, reads.mem_targets, harrow]
    tauto
  · rw [hpred]
    exact reads.pairwise_sources i
  · rw [hpred, hsucc]
    exact reads.mem_sorted_sources i j
  · refine List.contains_iff_mem.trans ((reads.mem_loops i).trans ?_)
    rw [harrow]
    tauto

/-! ## What a graph reaches -/

namespace Represents

variable {g : CallGraph} {i j : Nat}

/-- A path of calls between ids is a path between their nodes. -/
theorem reflTransGen_iff (rep : g.Represents edges) (hi : i < g.size) {b : String} :
    ReflTransGen (Calls edges) (g.idAt i) b ↔
      ∃ j < g.size, g.idAt j = b ∧ ReflTransGen (fun a b => b ∈ g.succ a) i j := by
  constructor
  · intro hpath
    induction hpath with
    | refl => exact ⟨i, hi, rfl, .refl⟩
    | @tail b c _ hcalls ih =>
      obtain ⟨j, hj, rfl, hpath⟩ := ih
      obtain ⟨k, hk, rfl⟩ := exists_idAt (rep.covers _ _ hcalls).2
      by_cases hkj : k = j
      · exact ⟨k, hk, rfl, hkj ▸ hpath⟩
      · exact ⟨k, hk, rfl, hpath.tail ((rep.mem_succ j k).mpr ⟨hkj, hj, hk, hcalls⟩)⟩
  · rintro ⟨j, -, rfl, hpath⟩
    induction hpath with
    | refl => exact .refl
    | tail _ hstep ih => exact ih.tail ((rep.mem_succ _ _).mp hstep).2.2.2

theorem lt_of_mem_succ (rep : g.Represents edges) (i : Nat) (_ : i < g.size) (j : Nat)
    (hj : j ∈ g.succ i) : j < g.size :=
  ((rep.mem_succ i j).mp hj).2.2.1

theorem lt_of_mem_pred (rep : g.Represents edges) (i : Nat) (_ : i < g.size) (j : Nat)
    (hj : j ∈ g.pred i) : j < g.size :=
  ((rep.mem_succ j i).mp ((rep.mem_pred i j).mp hj)).2.1

theorem mem_reachableNodes (rep : g.Represents edges) {starts : List Nat}
    (hstarts : ∀ i ∈ starts, i < g.size) :
    j ∈ g.reachableNodes starts ↔ ∃ i ∈ starts, ReflTransGen (fun a b => b ∈ g.succ a) i j :=
  Sweep.mem_visited_run hstarts rep.lt_of_mem_succ

theorem pairwise_reachableNodes (rep : g.Represents edges) {starts : List Nat}
    (hstarts : ∀ i ∈ starts, i < g.size) : (g.reachableNodes starts).Pairwise (· < ·) :=
  Sweep.pairwise_visited_run hstarts rep.lt_of_mem_succ

theorem lt_size_of_mem_reachableNodes (rep : g.Represents edges) {starts : List Nat}
    (hstarts : ∀ i ∈ starts, i < g.size) (hj : j ∈ g.reachableNodes starts) : j < g.size := by
  obtain ⟨i, hi, hpath⟩ := (rep.mem_reachableNodes hstarts).mp hj
  rcases hpath.cases_tail with rfl | ⟨k, -, hkj⟩
  · exact hstarts _ hi
  · exact ((rep.mem_succ k j).mp hkj).2.2.1

theorem mem_reachingNodes (rep : g.Represents edges) {starts : List Nat}
    (hstarts : ∀ i ∈ starts, i < g.size) :
    j ∈ g.reachingNodes starts ↔ ∃ i ∈ starts, ReflTransGen (fun a b => b ∈ g.succ a) j i := by
  rw [reachingNodes, Sweep.mem_visited_run hstarts rep.lt_of_mem_pred]
  simp only [rep.mem_pred, ← Relation.reflTransGen_swap (r := fun a b => b ∈ g.succ a)]

theorem mem_indices (rep : g.Represents edges) {ids : List String} :
    i ∈ g.indices ids ↔ i < g.size ∧ g.idAt i ∈ ids := by
  simp only [indices, List.mem_filterMap, index?_eq_some rep.ascending]
  constructor
  · rintro ⟨_, hid, hi, rfl⟩
    exact ⟨hi, hid⟩
  · rintro ⟨hi, hid⟩
    exact ⟨_, hid, hi, rfl⟩

end Represents

/-- The graph reaches from some ids exactly what a path of calls leads to. -/
theorem mem_reachable {entries : List String} {id : String} :
    id ∈ (ofEdges edges entries).reachable entries ↔
      ∃ r ∈ entries, ReflTransGen (Calls edges) r id := by
  have rep := represents_ofEdges edges entries
  have hnode : ∀ r ∈ entries, r ∈ (ofEdges edges entries).ids.toList :=
    fun r hr => mem_nodeIds.mpr (.inl hr)
  generalize ofEdges edges entries = g at rep hnode
  have hstarts : ∀ i ∈ g.indices entries, i < g.size := fun i hi => (rep.mem_indices.mp hi).1
  simp only [reachable, List.mem_map, rep.mem_reachableNodes hstarts]
  constructor
  · rintro ⟨j, ⟨i, hi, hpath⟩, rfl⟩
    have hj : j < g.size :=
      rep.lt_size_of_mem_reachableNodes hstarts
        ((rep.mem_reachableNodes hstarts).mpr ⟨i, hi, hpath⟩)
    obtain ⟨hi, hentry⟩ := rep.mem_indices.mp hi
    exact ⟨g.idAt i, hentry, (rep.reflTransGen_iff hi).mpr ⟨j, hj, rfl, hpath⟩⟩
  · rintro ⟨r, hr, hpath⟩
    obtain ⟨i, hi, rfl⟩ := exists_idAt (hnode r hr)
    obtain ⟨j, -, rfl, hnodes⟩ := (rep.reflTransGen_iff hi).mp hpath
    exact ⟨j, ⟨i, rep.mem_indices.mpr ⟨hi, hr⟩, hnodes⟩, rfl⟩

/-- The ids that are reached are listed in ascending order, each once. -/
theorem pairwise_reachable (edges : List (CallEdge R)) (extra starts : List String) :
    ((ofEdges edges extra).reachable starts).Pairwise (· < ·) := by
  have rep := represents_ofEdges edges extra
  generalize ofEdges edges extra = g at rep
  have hstarts : ∀ i ∈ g.indices starts, i < g.size := fun i hi => (rep.mem_indices.mp hi).1
  rw [reachable, List.pairwise_map]
  refine (rep.pairwise_reachableNodes hstarts).imp_of_mem fun {i j} _ hj hij => ?_
  exact idAt_lt_idAt rep.ascending hij (rep.lt_size_of_mem_reachableNodes hstarts hj)

end CallGraph

end Deadwood
