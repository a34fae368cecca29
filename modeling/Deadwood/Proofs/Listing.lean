import Deadwood.Cycle.Overview
import Deadwood.Proofs.Graph.Survey
import Deadwood.Proofs.Keyed
import Deadwood.Proofs.Pruning.Select

/-!
# The listing of a code base does not matter

Calls may be listed in any order, more than once, and with any calls out of the code between them.
Only the pairs of functions that call each other count, since nodes, targets and sources are kept in
ascending order without repetitions. So the graph is the same, and with it all that is read off it,
also where bounds cut off the search for cycles. The functions are only looked up by their ids.

## Main definitions

* `SameCalls`: two listings of the same calls.

## Main results

* `CallGraph.ofEdges_congr`: the graph of a listing.
* `CallGraph.reachable_congr`, `CallGraph.distances_congr`: searches from some ids.
* `FunctionIndex.get?_ofList_perm`: the functions of a listing.
* `listing_irrelevant`: graphs, reachable functions and cycles of two listings.
-/

namespace Deadwood

/-- The same functions call the same functions. -/
def SameCalls {R R' : Type} (edges : List (CallEdge R)) (edges' : List (CallEdge R')) : Prop :=
  ∀ a b, Calls edges a b ↔ Calls edges' a b

variable {R R' : Type} {edges : List (CallEdge R)} {edges' : List (CallEdge R')}

/-! ## Graphs -/

namespace CallGraph

variable {extra extra' : List String}

theorem mem_nodeIds_iff_calls {id : String} :
    id ∈ nodeIds edges extra ↔
      id ∈ extra ∨ ∃ other, Calls edges id other ∨ Calls edges other id := by
  rw [mem_nodeIds]
  refine or_congr .rfl ?_
  constructor
  · rintro ⟨e, he, hinternal, rfl | rfl⟩
    · exact ⟨e.callee, .inl ⟨e, he, hinternal, rfl, rfl⟩⟩
    · exact ⟨e.caller, .inr ⟨e, he, hinternal, rfl, rfl⟩⟩
  · rintro ⟨other, ⟨e, he, hinternal, hcaller, -⟩ | ⟨e, he, hinternal, -, hcallee⟩⟩
    · exact ⟨e, he, hinternal, .inl hcaller⟩
    · exact ⟨e, he, hinternal, .inr hcallee⟩

theorem nodeIds_congr (hcalls : SameCalls edges edges')
    (hextra : ∀ id, id ∈ extra ↔ id ∈ extra') : nodeIds edges extra = nodeIds edges' extra' := by
  refine List.Pairwise.eq_of_mem_iff (pairwise_distinctTexts _) (pairwise_distinctTexts _) ?_
  intro id
  simp only [mem_nodeIds_iff_calls, hextra, hcalls _ _]

theorem ofEdges_congr (hcalls : SameCalls edges edges') (hextra : ∀ id, id ∈ extra ↔ id ∈ extra') :
    ofEdges edges extra = ofEdges edges' extra' := by
  have hids := nodeIds_congr hcalls hextra
  have hsorted : (nodeIds edges' extra').Pairwise (· < ·) := pairwise_distinctTexts _
  have harrows : ∀ p, p ∈ arrows (nodeIds edges' extra') edges ↔
      p ∈ arrows (nodeIds edges' extra') edges' := by
    rintro ⟨a, b⟩
    simp only [mem_arrows hsorted, hcalls _ _]
  obtain ⟨htargets, hsources, hloops⟩ :=
    (reads_arrows hsorted).congr (reads_arrows hsorted) harrows
  unfold ofEdges
  simp only [hids, htargets, hsources, hloops]

section Starts

variable {g : CallGraph} {ids ids' : List String}

/-- Which ids are given matters, not how they are listed. -/
theorem mem_indices_congr (h : ∀ id, id ∈ ids ↔ id ∈ ids') (i : Nat) :
    i ∈ g.indices ids ↔ i ∈ g.indices ids' := by
  simp only [indices, List.mem_filterMap, h]

theorem reachable_congr (rep : g.Represents edges) (h : ∀ id, id ∈ ids ↔ id ∈ ids') :
    g.reachable ids = g.reachable ids' := by
  have hlt : ∀ ids, ∀ i ∈ g.indices ids, i < g.size := fun _ i hi => (rep.mem_indices.mp hi).1
  refine congrArg (List.map g.idAt) ?_
  refine List.Pairwise.eq_of_mem_iff (rep.pairwise_reachableNodes (hlt ids))
    (rep.pairwise_reachableNodes (hlt ids')) fun j => ?_
  simp only [rep.mem_reachableNodes (hlt _), mem_indices_congr h]

/-- A search may meet the starts in another order, but finds every node at the same distance. -/
theorem distances_congr (rep : g.Represents edges) (h : ∀ id, id ∈ ids ↔ id ∈ ids') :
    g.distances ids = g.distances ids' := by
  have hreached : ∀ m j, ReachedIn g.succ (g.indices ids) m j ↔
      ReachedIn g.succ (g.indices ids') m j := by
    intro m
    induction m with
    | zero => exact mem_indices_congr h
    | succ m ih => simp only [ReachedIn, ih, implies_true]
  have hsame : ∀ j d, j ∈ (Survey.run g.succ g.size (g.indices ids)).queue ∧
        (Survey.run g.succ g.size (g.indices ids)).distance j = d ↔
      j ∈ (Survey.run g.succ g.size (g.indices ids')).queue ∧
        (Survey.run g.succ g.size (g.indices ids')).distance j = d := by
    intro j d
    rw [← rep.isLeast_survey_iff, ← rep.isLeast_survey_iff]
    simp only [hreached]
  have hqueue : distinctNats (Survey.run g.succ g.size (g.indices ids)).queue =
      distinctNats (Survey.run g.succ g.size (g.indices ids')).queue :=
    distinctNats_congr fun j =>
      ⟨fun hj => ((hsame j _).mp ⟨hj, rfl⟩).1, fun hj => ((hsame j _).mpr ⟨hj, rfl⟩).1⟩
  unfold distances
  dsimp only
  rw [hqueue]
  refine List.map_congr_left fun j hj => ?_
  rw [((hsame j _).mpr ⟨mem_distinctNats.mp hj, rfl⟩).2]

end Starts

end CallGraph

theorem reachableFrom_congr (hcalls : SameCalls edges edges') {entries entries' : List String}
    (h : ∀ id, id ∈ entries ↔ id ∈ entries') :
    reachableFrom entries edges = reachableFrom entries' edges' := by
  rw [reachableFrom, reachableFrom, CallGraph.ofEdges_congr hcalls h,
    CallGraph.reachable_congr (CallGraph.represents_ofEdges edges' entries') h]

theorem findCycles_congr (hcalls : SameCalls edges edges') (limits : CycleLimits) :
    findCycles limits edges = findCycles limits edges' := by
  rw [findCycles, findCycles, CallGraph.ofEdges_congr hcalls fun _ => .rfl]

/-! ## Functions -/

/-- Functions with distinct ids are looked up alike in any order. -/
theorem FunctionIndex.get?_ofList_perm {fs fs' : List FunctionRecord} (hfs : fs.Perm fs')
    (hids : (fs.map (·.id)).Nodup) :
    (FunctionIndex.ofList fs).get? = (FunctionIndex.ofList fs').get? := by
  funext id
  rw [FunctionIndex.get?_ofList, FunctionIndex.get?_ofList]
  exact find?_key_perm hfs hids id

theorem calls_validEdges {fs : List FunctionRecord} {a b : String} :
    Calls ((FunctionIndex.ofList fs).validEdges edges) a b ↔
      Calls edges a b ∧ (∃ f ∈ fs, f.id = a) ∧ ∃ f ∈ fs, f.id = b := by
  simp only [Calls, mem_validEdges, IsValidCall]
  constructor
  · rintro ⟨e, ⟨he, hcaller, hcallee⟩, hinternal, rfl, rfl⟩
    exact ⟨⟨e, he, hinternal, rfl, rfl⟩, hcaller, hcallee hinternal⟩
  · rintro ⟨⟨e, he, hinternal, rfl, rfl⟩, hcaller, hcallee⟩
    exact ⟨e, ⟨he, hcaller, fun _ => hcallee⟩, hinternal, rfl, rfl⟩

theorem SameCalls.validEdges (hcalls : SameCalls edges edges') {fs fs' : List FunctionRecord}
    (hfs : fs.Perm fs') :
    SameCalls ((FunctionIndex.ofList fs).validEdges edges)
      ((FunctionIndex.ofList fs').validEdges edges') := by
  intro a b
  simp only [calls_validEdges, hcalls a b, hfs.mem_iff]

/-! ## Classified cycles -/

section Lookup

variable {idx idx' : FunctionIndex}

theorem ClassifiedCycle.ofCycle_congr (h : idx.get? = idx'.get?) :
    ClassifiedCycle.ofCycle idx = ClassifiedCycle.ofCycle idx' := by
  funext b c
  rw [ofCycle, ofCycle, h]

theorem CycleOptions.rejectedBy?_congr (h : idx.get? = idx'.get?) (o : CycleOptions) :
    o.rejectedBy? idx = o.rejectedBy? idx' := by
  have hrejects : o.rejects idx = o.rejects idx' := by
    funext c f
    cases f <;> simp only [rejects, h]
  funext c
  rw [rejectedBy?, rejectedBy?, hrejects]

end Lookup

theorem cycleOverview_congr {fs fs' : List FunctionRecord} (hfs : fs.Perm fs')
    (hids : (fs.map (·.id)).Nodup) (hcalls : SameCalls edges edges') (o : CycleOptions) :
    cycleOverview o fs edges = cycleOverview o fs' edges' := by
  have hget := FunctionIndex.get?_ofList_perm hfs hids
  unfold cycleOverview
  dsimp only
  rw [findCycles_congr (hcalls.validEdges hfs), ClassifiedCycle.ofCycle_congr hget,
    CycleOptions.rejectedBy?_congr hget]

/-- Two listings of the same calls have the same graph, and with it the same targets, sources, loops
and components. The same is reached at the same distances, and the same cycles are found under any
bounds. With any order of the functions, the cycles are classified, filtered and ranked alike. -/
theorem listing_irrelevant {fs fs' : List FunctionRecord} (hfs : fs.Perm fs')
    (hids : (fs.map (·.id)).Nodup) (hcalls : SameCalls edges edges') :
    (∀ ids ids' : List String, (∀ id, id ∈ ids ↔ id ∈ ids') →
      let g := CallGraph.ofEdges edges ids
      let g' := CallGraph.ofEdges edges' ids'
      g = g' ∧ g.components = g'.components ∧ reachableFrom ids edges = reachableFrom ids' edges' ∧
        ∀ starts starts' : List String, (∀ id, id ∈ starts ↔ id ∈ starts') →
          g.reachable starts = g'.reachable starts' ∧ g.distances starts = g'.distances starts') ∧
      (∀ limits, findCycles limits edges = findCycles limits edges') ∧
      ∀ o, cycleOverview o fs edges = cycleOverview o fs' edges' := by
  refine ⟨fun ids ids' h => ?_, findCycles_congr hcalls, cycleOverview_congr hfs hids hcalls⟩
  have hgraph := CallGraph.ofEdges_congr hcalls h
  refine ⟨hgraph, by rw [hgraph], reachableFrom_congr hcalls h, fun starts starts' hstarts => ?_⟩
  rw [hgraph]
  have rep := CallGraph.represents_ofEdges edges' ids'
  exact ⟨CallGraph.reachable_congr rep hstarts, CallGraph.distances_congr rep hstarts⟩

/-- Two functions call each other and a third calls itself. The second listing has another order,
one call twice, and no call out of the code. -/
theorem listing_irrelevant_repeated :
    let a : FunctionRecord :=
      { id := "a", name := "load", filePath := "x/a.go", startLine := 1, endLine := 2 }
    let b : FunctionRecord :=
      { id := "b", name := "store", filePath := "y/b.go", startLine := 1, endLine := 2 }
    let edges : List (CallEdge Rat) :=
      [{ caller := "a", callee := "b" }, { caller := "a", calleeName := "print" },
        { caller := "b", callee := "a" }, { caller := "c", callee := "c" }]
    let edges' : List (CallEdge Rat) :=
      [{ caller := "c", callee := "c" }, { caller := "b", callee := "a", confidence := some 0.5 },
        { caller := "a", callee := "b" }, { caller := "b", callee := "a", kind := .virtual }]
    let limits : CycleLimits := { maxCycles := 1, maxSteps := 2 }
    let o : CycleOptions := { maxCycles := 1, rootDir := "x" }
    [a, b].Perm [b, a] ∧ ([a, b].map (·.id)).Nodup ∧ SameCalls edges edges' ∧
      (CallGraph.ofEdges edges ["b"]).distances ["a", "d"] =
        (CallGraph.ofEdges edges' ["b", "b"]).distances ["d", "a"] ∧
      findCycles limits edges = findCycles limits edges' ∧
      cycleOverview o [a, b] edges = cycleOverview o [b, a] edges' := by
  intro a b edges edges' limits o
  have hperm : [a, b].Perm [b, a] := .swap b a []
  have hids : ([a, b].map (·.id)).Nodup := by decide
  have hcalls : SameCalls edges edges' := by
    intro x y
    simp [Calls, CallEdge.isInternal, edges, edges']
    tauto
  obtain ⟨hgraph, hcycles, hoverview⟩ := listing_irrelevant hperm hids hcalls
  obtain ⟨-, -, -, hstarts⟩ := hgraph ["b"] ["b", "b"] (by simp)
  obtain ⟨-, hdistances⟩ := hstarts ["a", "d"] ["d", "a"] (by simp [or_comm])
  exact ⟨hperm, hids, hcalls, hdistances, hcycles limits, hoverview o⟩

end Deadwood
