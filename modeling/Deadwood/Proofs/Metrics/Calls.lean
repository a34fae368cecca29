import Deadwood.Proofs.Cycle.Filter
import Deadwood.Proofs.Graph.Distance
import Mathlib.Algebra.BigOperators.Ring.Finset

/-!
# Metrics, calls and reachable functions

Each call is counted at its ends, if they are known functions: the fan-outs of all functions add up
to the calls that start at a known function, and the fan-ins to the calls between known functions.
The metrics leave out unknown entries and calls with unknown ends before they measure depths, while
a pass over a snapshot keeps the entries. Unknown entries call nothing, so both find the same
functions.

## Main results

* `sum_fanOut`, `sum_fanIn`: the calls by their ends.
* `callDepths_nonempty_iff`: a function has a depth if it is reached.
* `metrics_agree_with_reachability`: what metrics and reachability say of the same calls.
-/

namespace Deadwood

variable {R : Type} {fs : List FunctionRecord} {edges : List (CallEdge R)}
  {entries cyclic : List String} {m : FunctionMetrics} {id : String}

/-! ## Calls by their ends -/

@[simp] theorem functionIds_dependencyMetrics (fs : List FunctionRecord) (edges : List (CallEdge R))
    (entries cyclic : List String) :
    (dependencyMetrics fs edges entries cyclic).map (·.functionId) = fs.map (·.id) := by
  simp [dependencyMetrics]

/-- If calls are counted at ends that are known functions, the counts of all functions add up to the
number of the calls. -/
theorem sum_count_ends (hids : (fs.map (·.id)).Nodup) {p : CallEdge R → Bool}
    (endOf : CallEdge R → String) (h : ∀ e ∈ edges, p e → endOf e ∈ fs.map (·.id)) :
    (fs.map fun f => (((edges.filter p).map endOf).count f.id : Int)).sum = edges.countP p := by
  have hcount : ∀ f : FunctionRecord,
      ((edges.filter p).map endOf).count f.id = (edges.filter p).countP (endOf · = f.id) := by
    intro f
    rw [List.count_eq_countP, List.countP_map]
    rfl
  have hsum := sum_countP_key hids fun e he =>
    h e (List.mem_of_mem_filter he) (List.of_mem_filter he)
  rw [List.map_map, ← List.countP_eq_length_filter] at hsum
  simp only [hcount]
  rw [← hsum, Nat.cast_list_sum, List.map_map]
  rfl

@[simp, grind =] theorem startsKnown_iff {known : List String} {e : CallEdge R} :
    startsKnown known e ↔ e.caller ∈ known := by
  simp [startsKnown]

@[simp, grind =] theorem staysKnown_iff {known : List String} {e : CallEdge R} :
    staysKnown known e ↔ e.caller ∈ known ∧ e.callee ∈ known ∧ e.callee ≠ "" := by
  simp only [staysKnown, startsKnown_iff, CallEdge.isInternal, Bool.and_eq_true,
    decide_eq_true_eq, List.contains_iff_mem]
  tauto

theorem sum_fanOut (hids : (fs.map (·.id)).Nodup) (edges : List (CallEdge R))
    (entries cyclic : List String) :
    ((dependencyMetrics fs edges entries cyclic).map (·.fanOut)).sum =
      edges.countP fun e => e.caller ∈ fs.map (·.id) := by
  have hstarts : ∀ e ∈ edges, startsKnown (fs.map (·.id)) e → e.caller ∈ fs.map (·.id) :=
    fun e _ => startsKnown_iff.mp
  simp only [dependencyMetrics, List.map_map, Function.comp_def]
  rw [sum_count_ends hids CallEdge.caller hstarts]
  exact congrArg _ (List.countP_congr fun e _ => by simp)

theorem sum_fanIn (hids : (fs.map (·.id)).Nodup) (edges : List (CallEdge R))
    (entries cyclic : List String) :
    ((dependencyMetrics fs edges entries cyclic).map (·.fanIn)).sum =
      edges.countP fun e =>
        e.caller ∈ fs.map (·.id) ∧ e.callee ∈ fs.map (·.id) ∧ e.callee ≠ "" := by
  have hstays : ∀ e ∈ edges, staysKnown (fs.map (·.id)) e → e.callee ∈ fs.map (·.id) :=
    fun e _ h => (staysKnown_iff.mp h).2.1
  simp only [dependencyMetrics, List.map_map, Function.comp_def]
  rw [sum_count_ends hids CallEdge.callee hstays]
  exact congrArg _ (List.countP_congr fun e _ => by simp)

/-! ## Reachable functions -/

/-- A known function can be called from a known entry along known functions exactly if a pass over
the snapshot reaches it: a walk of valid calls can only start at a known function, and a walk
without calls ends where it starts. -/
theorem callDepths_nonempty_iff (hid : id ∈ fs.map (·.id)) :
    (callDepths fs edges entries id).Nonempty ↔
      id ∈ reachableFrom entries ((FunctionIndex.ofList fs).validEdges edges) := by
  simp only [mem_reachableFrom, isWalk_validEdges]
  constructor
  · rintro ⟨n, entry, hentry, -, walk, hwalk, hknown, -⟩
    exact ⟨entry, hentry, walk, hwalk, hknown⟩
  · rintro ⟨entry, hentry, walk, hwalk, hknown⟩
    refine ⟨walk.length, entry, hentry, ?_, walk, hwalk, hknown, rfl⟩
    cases walk with
    | nil =>
      obtain rfl : entry = id := hwalk
      exact hid
    | cons e walk =>
      obtain ⟨-, -, rfl, -⟩ := hwalk
      exact (hknown e List.mem_cons_self).1

theorem depth_nonneg_iff (h : m ∈ dependencyMetrics fs edges entries cyclic) :
    0 ≤ m.depth ↔ (callDepths fs edges entries m.functionId).Nonempty := by
  obtain ⟨f, -, rfl⟩ := List.mem_map.mp h
  have hfound := @lookup_depths R fs edges entries f.id
  dsimp only at hfound ⊢
  generalize List.lookup f.id _ = found at hfound ⊢
  cases found with
  | none =>
    refine iff_of_false (by decide) fun hdepths => ?_
    obtain ⟨d, hd⟩ := exists_isLeast hdepths
    exact absurd (hfound.mpr hd) (by simp)
  | some d => exact iff_of_true (Int.natCast_nonneg d) ⟨d, (hfound.mp rfl).1⟩

/-- With distinct ids, every id that is not reached is that of one function left over. -/
theorem length_unreachableFunctions (hids : (fs.map (·.id)).Nodup) (reachable : List String) :
    (unreachableFunctions fs reachable).length = (fs.map (·.id)).countP (· ∉ reachable) := by
  have hperm : ((unreachableFunctions fs reachable).map (·.id)).Perm
      ((fs.map (·.id)).filter (· ∉ reachable)) := by
    refine (List.perm_ext_iff_of_nodup ?_ (hids.filter _)).mpr fun id => ?_
    · exact List.pairwise_map.mpr
        ((pairwise_unreachableFunctions fs reachable).imp fun h => String.ne_of_lt h)
    · rw [mem_ids_unreachableFunctions, List.mem_filter, decide_eq_true_eq]
  rw [List.countP_eq_length_filter, ← hperm.length_eq, List.length_map]

/-- There are metrics for every function, in the order of the functions. If these have distinct ids,
the fan-outs add up to the calls from known functions and the fan-ins to the calls between known
functions. A function has a depth exactly if a pass over the same functions, calls and entries
reaches it, and the functions without one are as many as the pass leaves over. -/
theorem metrics_agree_with_reachability (limits : CycleLimits) (o : StatsOptions)
    (fs : List FunctionRecord) (edges : List (CallEdge R)) (entries cyclic : List String)
    (hids : (fs.map (·.id)).Nodup) :
    let known := fs.map (·.id)
    let ms := dependencyMetrics fs edges entries cyclic
    let found := Reachability.analyze limits fs edges entries
    ms.map (·.functionId) = known ∧
      (ms.map (·.fanOut)).sum = edges.countP (fun e => e.caller ∈ known) ∧
      (ms.map (·.fanIn)).sum =
        edges.countP (fun e => e.caller ∈ known ∧ e.callee ∈ known ∧ e.callee ≠ "") ∧
      (∀ m ∈ ms, 0 ≤ m.depth ↔ m.functionId ∈ found.reachable) ∧
      (DependencyStats.of o ms).unreachable = found.unreachable.length := by
  intro known ms found
  have hnames : ms.map (·.functionId) = known :=
    functionIds_dependencyMetrics fs edges entries cyclic
  have hreached : ∀ m ∈ ms, 0 ≤ m.depth ↔ m.functionId ∈ found.reachable := by
    intro m hm
    have hknown : m.functionId ∈ known := hnames ▸ List.mem_map.mpr ⟨m, hm, rfl⟩
    exact (depth_nonneg_iff hm).trans (callDepths_nonempty_iff hknown)
  refine ⟨hnames, sum_fanOut hids edges entries cyclic, sum_fanIn hids edges entries cyclic,
    hreached, ?_⟩
  calc (DependencyStats.of o ms).unreachable
      = ms.countP fun m => m.functionId ∉ found.reachable :=
        List.countP_congr fun m hm => by simp [FunctionMetrics.isReachable, ← hreached m hm]
    _ = known.countP (· ∉ found.reachable) := by
        rw [← hnames, List.countP_map]
        rfl
    _ = found.unreachable.length := (length_unreachableFunctions hids found.reachable).symm

/-- One function calls itself, another one and something outside. An unknown function is an entry,
calls a function and is called. -/
theorem metrics_agree_with_reachability_ghost :
    let fs : List FunctionRecord := [{ id := "c" }, { id := "a" }, { id := "b" }]
    let edges : List (CallEdge Rat) :=
      [{ caller := "a", callee := "a" }, { caller := "a", callee := "b" }, { caller := "a" },
        { caller := "b", callee := "x" }, { caller := "x", callee := "c" },
        { caller := "c", callee := "b" }]
    let ms := dependencyMetrics fs edges ["x", "a"] []
    let found := Reachability.analyze {} fs edges ["x", "a"]
    (fs.map (·.id)).Nodup ∧ (ms.map (·.fanOut)).sum = 5 ∧ (ms.map (·.fanIn)).sum = 3 ∧
      found.reachable = ["a", "b", "x"] ∧ (∀ m ∈ ms, 0 ≤ m.depth ↔ m.functionId ∈ found.reachable) ∧
      (DependencyStats.of {} ms).unreachable = found.unreachable.length := by
  intro fs edges ms found
  have hids : (fs.map (·.id)).Nodup := by decide
  have hreachable : found.reachable = ["a", "b", "x"] := by
    have hvalid : (FunctionIndex.ofList fs).validEdges edges = edges.take 3 ++ edges.drop 5 := rfl
    change reachableFrom ["x", "a"] ((FunctionIndex.ofList fs).validEdges edges) = _
    rw [hvalid]
    cbv
  obtain ⟨-, hout, hin, hreached, hleft⟩ :=
    metrics_agree_with_reachability {} {} fs edges ["x", "a"] [] hids
  exact ⟨hids, hout.trans (by decide), hin.trans (by decide), hreachable, hreached, hleft⟩

end Deadwood
