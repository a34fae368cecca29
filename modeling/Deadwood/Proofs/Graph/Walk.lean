import Deadwood.Proofs.Cycle.Marked
import Deadwood.Reachability

/-!
# Walks along calls

A walk is a list of recorded calls, each of which starts where the one before ends. It may repeat
calls, and it may be empty. A function lies on a cycle if a walk that is not empty leads from it to
itself, and it is reached if a walk leads to it from an entry.

## Main definitions

* `IsWalk`: a walk from one function to another.

## Main results

* `exists_isWalk_iff`, `exists_ne_nil_isWalk_iff`: walks and closures of the calls.
* `isWalk_validEdges`: walks between known functions.
* `mem_cyclicIds_iff_closed_walk`: the ids on cycles, under any bounds of a search.
* `mem_unreachableFunctions`: the functions that are not reached.
* `reachability_splits_functions`: what a pass over a snapshot finds.
-/

namespace Deadwood

open Relation (ReflTransGen TransGen)

variable {R : Type} {edges : List (CallEdge R)} {walk : List (CallEdge R)} {a b : String}

/-- Some recorded calls inside the code, each from where the last one leads. -/
def IsWalk (edges : List (CallEdge R)) : String → List (CallEdge R) → String → Prop
  | a, [], b => a = b
  | a, e :: walk, b => e ∈ edges ∧ e.isInternal ∧ e.caller = a ∧ IsWalk edges e.callee walk b

theorem IsWalk.reflTransGen (h : IsWalk edges a walk b) : ReflTransGen (Calls edges) a b := by
  induction walk generalizing a with
  | nil =>
    obtain rfl : a = b := h
    exact .refl
  | cons e walk ih =>
    obtain ⟨he, hinternal, rfl, hrest⟩ := h
    exact .head ⟨e, he, hinternal, rfl, rfl⟩ (ih hrest)

theorem exists_isWalk_iff : (∃ walk, IsWalk edges a walk b) ↔ ReflTransGen (Calls edges) a b := by
  constructor
  · rintro ⟨walk, h⟩
    exact h.reflTransGen
  · intro h
    induction h using ReflTransGen.head_induction_on with
    | refl => exact ⟨[], rfl⟩
    | head hcall _ ih =>
      obtain ⟨e, he, hinternal, rfl, rfl⟩ := hcall
      obtain ⟨walk, hrest⟩ := ih
      exact ⟨e :: walk, he, hinternal, rfl, hrest⟩

theorem exists_ne_nil_isWalk_iff :
    (∃ walk, walk ≠ [] ∧ IsWalk edges a walk b) ↔ TransGen (Calls edges) a b := by
  rw [TransGen.head'_iff]
  constructor
  · rintro ⟨walk, hne, h⟩
    cases walk with
    | nil => exact absurd rfl hne
    | cons e walk =>
      obtain ⟨he, hinternal, rfl, hrest⟩ := h
      exact ⟨e.callee, ⟨e, he, hinternal, rfl, rfl⟩, hrest.reflTransGen⟩
  · rintro ⟨c, ⟨e, he, hinternal, rfl, rfl⟩, hrest⟩
    obtain ⟨walk, hwalk⟩ := exists_isWalk_iff.mpr hrest
    exact ⟨e :: walk, List.cons_ne_nil e walk, he, hinternal, rfl, hwalk⟩

/-- A walk along valid calls has known functions at the ends of all its calls. -/
theorem isWalk_validEdges {fs : List FunctionRecord} :
    IsWalk ((FunctionIndex.ofList fs).validEdges edges) a walk b ↔
      IsWalk edges a walk b ∧
        ∀ e ∈ walk, e.caller ∈ fs.map (·.id) ∧ e.callee ∈ fs.map (·.id) := by
  induction walk generalizing a with
  | nil => simp [IsWalk]
  | cons e walk ih =>
    simp only [IsWalk, ih, mem_validEdges, IsValidCall, List.forall_mem_cons, List.mem_map]
    constructor
    · rintro ⟨⟨he, hcaller, hcallee⟩, hinternal, ha, hrest, hknown⟩
      exact ⟨⟨he, hinternal, ha, hrest⟩, ⟨hcaller, hcallee hinternal⟩, hknown⟩
    · rintro ⟨⟨he, hinternal, ha, hrest⟩, ⟨hcaller, hcallee⟩, hknown⟩
      exact ⟨⟨he, hcaller, fun _ => hcallee⟩, hinternal, ha, hrest, hknown⟩

/-! ## Closed walks -/

/-- Marked nodes call some node, so they are nodes of the graph, and these are in ascending
order. -/
theorem CallGraph.pairwise_cyclicIds (edges : List (CallEdge R)) (extra : List String) :
    (ofEdges edges extra).cyclicIds.Pairwise (· < ·) := by
  have rep := represents_ofEdges edges extra
  generalize ofEdges edges extra = g at rep
  have hnode : ∀ i, i ∈ distinctNats (g.loops ++ g.components.flatten) → i < g.size := by
    intro i hi
    rw [mem_distinctNats, List.mem_append, List.mem_flatten, rep.mem_components_iff] at hi
    rcases hi with hloop | ⟨j, hne, hij⟩
    · exact ((rep.hasLoop i).mp (List.contains_iff_mem.mpr hloop)).1
    · obtain ⟨k, hk, -⟩ := TransGen.head'_iff.mp (hij.transGen hne)
      exact ((rep.mem_succ i k).mp hk).2.1
  rw [cyclicIds, List.pairwise_map]
  exact (pairwise_distinctNats _).imp_of_mem fun _ hj hij =>
    idAt_lt_idAt rep.ascending hij (hnode _ hj)

/-- A search for cycles names exactly the ids from which a walk leads back, in ascending order and
whatever its bounds are. Those of the cycles that it lists are among them; the bounds cut short
only this list. -/
theorem mem_cyclicIds_iff_closed_walk (maxCycles maxLength maxSteps minSize : Int)
    (edges : List (CallEdge R)) :
    let report := findCycles (.ofBounds maxCycles maxLength maxSteps minSize) edges
    report.cyclicIds.Pairwise (· < ·) ∧
      (∀ id, id ∈ report.cyclicIds ↔ ∃ walk, walk ≠ [] ∧ IsWalk edges id walk id) ∧
      ∀ c ∈ report.cycles, ∀ id ∈ c, id ∈ report.cyclicIds := by
  intro report
  have hmem : ∀ id, id ∈ report.cyclicIds ↔ OnCycle (Calls edges) id :=
    fun id => CallGraph.mem_cyclicIds []
  refine ⟨CallGraph.pairwise_cyclicIds edges [], fun id => ?_, fun c hc id hid => ?_⟩
  · rw [hmem, onCycle_iff_transGen, exists_ne_nil_isWalk_iff]
  · have hmax := CycleLimits.one_le_maxLength maxCycles maxLength maxSteps minSize
    exact (hmem id).mpr ⟨c, (isSimpleCycle_of_mem_findCycles hmax hc).1, hid⟩

/-- Only one cycle may be listed, and it is that of a function that calls itself. Two functions that
call each other are named all the same. -/
theorem mem_cyclicIds_iff_closed_walk_truncated :
    let there : CallEdge Rat := { caller := "a", callee := "b" }
    let back : CallEdge Rat := { caller := "b", callee := "a" }
    let edges := [there, back, { caller := "c", callee := "c" }]
    let report := findCycles (.ofBounds 1 0 0 0) edges
    report.truncated = true ∧ report.cycles = [["c"]] ∧ "c" ∈ report.cyclicIds ∧
      IsWalk edges "a" [there, back] "a" ∧ "a" ∈ report.cyclicIds := by
  intro there back edges report
  have htruncated : report.truncated = true := by cbv
  have hcycles : report.cycles = [["c"]] := by cbv
  have hwalk : IsWalk edges "a" [there, back] "a" := by
    simp [IsWalk, CallEdge.isInternal, there, back, edges]
  obtain ⟨-, hclosed, hlisted⟩ := mem_cyclicIds_iff_closed_walk 1 0 0 0 edges
  exact ⟨htruncated, hcycles, hlisted ["c"] (hcycles ▸ List.mem_cons_self) "c" List.mem_cons_self,
    hwalk, (hclosed "a").mpr ⟨_, List.cons_ne_nil _ _, hwalk⟩⟩

/-! ## Reachable and unreachable functions -/

theorem mem_unreachableFunctions {fs : List FunctionRecord} {reachable : List String}
    {f : FunctionRecord} :
    f ∈ unreachableFunctions fs reachable ↔
      fs.find? (·.id = f.id) = some f ∧ f.id ∉ reachable := by
  rw [unreachableFunctions, List.mem_mergeSort]
  have hfind := find?_key_eq_some (a := f) (k := f.id)
    (nodup_keys_keepFirst (·.id) (fs.filter fun f => !reachable.contains f.id))
  simp only [and_true] at hfind
  rw [← hfind, find?_keepFirst, List.find?_filter]
  by_cases hf : f.id ∈ reachable
  · simp only [hf, not_true_eq_false, and_false, iff_false]
    intro hsome
    have hkept := List.find?_some hsome
    simp [hf] at hkept
  · have hsame : ∀ g : FunctionRecord,
        decide ((!reachable.contains g.id) = true ∧ decide (g.id = f.id) = true) =
          decide (g.id = f.id) := by
      intro g
      by_cases hg : g.id = f.id <;> simp [hg, hf]
    simp only [hsame, hf, not_false_eq_true, and_true]

theorem pairwise_unreachableFunctions (fs : List FunctionRecord) (reachable : List String) :
    (unreachableFunctions fs reachable).Pairwise fun f g => f.id < g.id :=
  pairwise_mergeSort_key (nodup_keys_keepFirst _ _)

theorem mem_reachableFrom {entries : List String} {id : String} :
    id ∈ reachableFrom entries edges ↔ ∃ entry ∈ entries, ∃ walk, IsWalk edges entry walk id := by
  simp only [exists_isWalk_iff]
  exact CallGraph.mem_reachable

theorem mem_ids_unreachableFunctions {fs : List FunctionRecord} {reachable : List String}
    {id : String} :
    id ∈ (unreachableFunctions fs reachable).map (·.id) ↔
      id ∈ fs.map (·.id) ∧ id ∉ reachable := by
  simp only [List.mem_map, mem_unreachableFunctions]
  constructor
  · rintro ⟨f, ⟨hfirst, hleft⟩, rfl⟩
    exact ⟨⟨f, List.mem_of_find?_eq_some hfirst, rfl⟩, hleft⟩
  · rintro ⟨⟨f, hf, rfl⟩, hleft⟩
    obtain ⟨g, hfirst⟩ : ∃ g, fs.find? (·.id = f.id) = some g :=
      Option.isSome_iff_exists.mp (List.find?_isSome.mpr ⟨f, hf, by simp⟩)
    have hid : g.id = f.id := by simpa using List.find?_some hfirst
    exact ⟨g, ⟨hid ▸ hfirst, hid ▸ hleft⟩, hid⟩

/-- A pass over a snapshot reaches exactly the ids to which a walk between known functions leads
from an entry, the entries themselves by the empty walk, in ascending order. It leaves the first
function of every other id of the snapshot, in ascending order as well. So each id of the snapshot
is on one of the two sides and not on both. -/
theorem reachability_splits_functions (limits : CycleLimits) (fs : List FunctionRecord)
    (edges : List (CallEdge R)) (entries : List String) :
    let found := Reachability.analyze limits fs edges entries
    found.reachable.Pairwise (· < ·) ∧
      (∀ id, id ∈ found.reachable ↔ ∃ entry ∈ entries, ∃ walk, IsWalk edges entry walk id ∧
        ∀ e ∈ walk, e.caller ∈ fs.map (·.id) ∧ e.callee ∈ fs.map (·.id)) ∧
      found.unreachable.Pairwise (fun f g => f.id < g.id) ∧
      (∀ f, f ∈ found.unreachable ↔
        fs.find? (·.id = f.id) = some f ∧ f.id ∉ found.reachable) ∧
      ∀ id ∈ fs.map (·.id),
        Xor (id ∈ found.reachable) (id ∈ found.unreachable.map (·.id)) := by
  intro found
  refine ⟨CallGraph.pairwise_reachable _ entries entries, fun id => ?_,
    pairwise_unreachableFunctions fs found.reachable, fun f => mem_unreachableFunctions, ?_⟩
  · simp only [← isWalk_validEdges]
    exact mem_reachableFrom
  · intro id hid
    have hleft : id ∈ found.unreachable.map (·.id) ↔ id ∈ fs.map (·.id) ∧ id ∉ found.reachable :=
      mem_ids_unreachableFunctions
    by_cases hreached : id ∈ found.reachable
    · exact .inl ⟨hreached, fun h => (hleft.mp h).2 hreached⟩
    · exact .inr ⟨hleft.mpr ⟨hid, hreached⟩, hreached⟩

/-- Two functions call each other, one calls itself, and one is called by an unknown function only;
two of them are recorded twice. An entry without calls is reached as well. -/
theorem reachability_splits_functions_repeated :
    let a : FunctionRecord := { id := "a", startLine := 1 }
    let b : FunctionRecord := { id := "b", startLine := 2 }
    let c : FunctionRecord := { id := "c", startLine := 3 }
    let d : FunctionRecord := { id := "d", startLine := 4 }
    let fs := [d, b, a, c, { b with startLine := 5 }, { d with startLine := 6 }]
    let edges : List (CallEdge Rat) :=
      [{ caller := "a", callee := "b" }, { caller := "b", callee := "a" },
        { caller := "c", callee := "c" }, { caller := "b", callee := "ghost" },
        { caller := "ghost", callee := "d" }]
    let found := Reachability.analyze {} fs edges ["a", "other"]
    "d" ∈ fs.map (·.id) ∧ Xor ("d" ∈ found.reachable) ("d" ∈ found.unreachable.map (·.id)) ∧
      found.reachable = ["a", "b", "other"] ∧ found.unreachable = [c, d] := by
  intro a b c d fs edges found
  have hreachable : found.reachable = ["a", "b", "other"] := by
    have hvalid : (FunctionIndex.ofList fs).validEdges edges = edges.take 3 := rfl
    change reachableFrom ["a", "other"] ((FunctionIndex.ofList fs).validEdges edges) = _
    rw [hvalid]
    cbv
  have hunreachable : found.unreachable = [c, d] := by
    change unreachableFunctions fs found.reachable = _
    rw [hreachable]
    cbv
  obtain ⟨-, -, -, -, hsplit⟩ := reachability_splits_functions {} fs edges ["a", "other"]
  have hd : "d" ∈ fs.map (·.id) := by decide
  exact ⟨hd, hsplit "d" hd, hreachable, hunreachable⟩

end Deadwood
