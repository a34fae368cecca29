import Deadwood.Proofs.Cycle.Search
import Deadwood.Proofs.Listing
import Mathlib.Data.List.Permutation

/-!
# Complete overviews

An overview without filters lists what the search found. It passes on whether the search was cut off
by the number of cycles or of steps, but not whether paths were too long. So an overview that is not
truncated still lacks the cycles that are longer than the bound on their lengths, and only these.

## Main definitions

* `CycleOptions.IsUnfiltered`: options that leave out no cycle.
* `KnownCalls`: the calls between known functions.

## Main results

* `cycleOverview_nodes`: the cycles of an overview.
* `untruncated_overview_lists_iff`: the cycles that an overview lacks.
-/

namespace Deadwood

variable {R : Type}

/-- No filter is set, and the list is not cut. -/
structure CycleOptions.IsUnfiltered (o : CycleOptions) : Prop where
  excludeRecursive : o.excludeRecursive = false
  excludeClear : o.excludeClear = false
  minComplexity : o.minComplexity ≤ 0
  crossLayerOnly : o.crossLayerOnly = false
  recursiveOnly : o.recursiveOnly = false
  limit : o.limit ≤ 0

/-- A function calls another one, and both are known. -/
def KnownCalls (fs : List FunctionRecord) (edges : List (CallEdge R)) (a b : String) : Prop :=
  Calls edges a b ∧ (∃ f ∈ fs, f.id = a) ∧ ∃ f ∈ fs, f.id = b

theorem calls_validEdges_eq (fs : List FunctionRecord) (edges : List (CallEdge R)) :
    Calls ((FunctionIndex.ofList fs).validEdges edges) = KnownCalls fs edges := by
  funext a b
  exact propext calls_validEdges

namespace CycleOptions.IsUnfiltered

variable {o : CycleOptions}

theorem rejectedBy?_eq_none (ho : o.IsUnfiltered) (idx : FunctionIndex) (c : ClassifiedCycle) :
    o.rejectedBy? idx c = none := by
  have hcomplexity : ¬ 0 < o.minComplexity := Int.not_lt.mpr ho.minComplexity
  simp [rejectedBy?, rejects, ho.excludeRecursive, ho.excludeClear, hcomplexity, ho.crossLayerOnly,
    ho.recursiveOnly]

theorem shorten_eq (ho : o.IsUnfiltered) (cs : List ClassifiedCycle) : o.shorten cs = cs :=
  if_neg (Int.not_lt.mpr ho.limit)

/-- An overview without filters has exactly the cycles of the search. -/
theorem cycleOverview_nodes (ho : o.IsUnfiltered) (fs : List FunctionRecord)
    (edges : List (CallEdge R)) :
    ((cycleOverview o fs edges).cycles.map (·.nodes)).Perm
      (findCycles o.limits ((FunctionIndex.ofList fs).validEdges edges)).cycles := by
  have hnodes : ∀ cs : List Cycle,
      (cs.map (ClassifiedCycle.ofCycle (.ofList fs) o.boundaries)).map (·.nodes) = cs := by
    intro cs
    rw [List.map_map]
    exact List.map_id cs
  simp only [cycleOverview, ho.shorten_eq, ho.rejectedBy?_eq_none, Option.isNone_none,
    List.filter_true]
  refine ((List.mergeSort_perm _ _).map _).trans ?_
  rw [hnodes]

end CycleOptions.IsUnfiltered

/-- An overview without filters lists simple cycles of known functions, none of them twice. If it is
not truncated, a simple cycle is listed exactly if it is not longer than the bound. So it is
complete if the search, in addition, met no path that was too long. -/
theorem untruncated_overview_lists_iff {o : CycleOptions} (ho : o.IsUnfiltered)
    (fs : List FunctionRecord) (edges : List (CallEdge R)) :
    let overview := cycleOverview o fs edges
    let listed := overview.cycles.map (·.nodes)
    let search := findCycles o.limits ((FunctionIndex.ofList fs).validEdges edges)
    listed.Pairwise (fun c d => ¬ c ~r d) ∧
    (∀ c ∈ listed, IsSimpleCycle (KnownCalls fs edges) c ∧
      o.limits.minSize ≤ c.length ∧ c.length ≤ o.limits.maxLength) ∧
    (overview.truncated = false → ∀ d, IsSimpleCycle (KnownCalls fs edges) d →
      o.limits.minSize ≤ d.length →
        ((∃ c ∈ listed, c ~r d) ↔ d.length ≤ o.limits.maxLength) ∧
        (search.lengthLimited = false → ∃ c ∈ listed, c ~r d)) := by
  intro overview listed search
  have hmax : 1 ≤ o.limits.maxLength := CycleLimits.one_le_maxLength _ _ _ _
  have hperm : listed.Perm search.cycles := ho.cycleOverview_nodes fs edges
  have hfound : ∀ c ∈ listed, IsSimpleCycle (KnownCalls fs edges) c ∧ StartsLeast c ∧
      o.limits.minSize ≤ c.length ∧ c.length ≤ o.limits.maxLength := by
    intro c hc
    rw [← calls_validEdges_eq]
    exact isSimpleCycle_of_mem_findCycles hmax (hperm.mem_iff.mp hc)
  have hlisted : overview.truncated = false → ∀ d, IsSimpleCycle (KnownCalls fs edges) d →
      o.limits.minSize ≤ d.length → d.length ≤ o.limits.maxLength → ∃ c ∈ listed, c ~r d := by
    intro htruncated d hd hmin hlen
    rw [← calls_validEdges_eq] at hd
    obtain ⟨c, ⟨hc, hrotated⟩, -⟩ := existsUnique_mem_findCycles hmax htruncated hd hmin hlen
    exact ⟨c, hperm.mem_iff.mpr hc, hrotated⟩
  refine ⟨?_, fun c hc => ⟨(hfound c hc).1, (hfound c hc).2.2⟩, ?_⟩
  · have hnodup : listed.Nodup := hperm.symm.nodup (nodup_findCycles hmax)
    refine hnodup.imp_of_mem fun hc hd hne hrotated => hne ?_
    -- both start with their smallest id
    obtain ⟨hcycle, hleast, -⟩ := hfound _ hc
    exact hleast.eq_of_isRotated (hfound _ hd).2.1 hcycle.nodup hrotated
  · intro htruncated d hd hmin
    refine ⟨⟨?_, hlisted htruncated d hd hmin⟩, ?_⟩
    · rintro ⟨c, hc, hrotated⟩
      rw [← hrotated.perm.length_eq]
      exact (hfound c hc).2.2.2
    · intro hlimited
      have hd' := hd
      rw [← calls_validEdges_eq] at hd'
      exact hlisted htruncated d hd hmin (length_le_of_not_limited hmax htruncated hlimited hd')

/-- Two functions that call each other, where cycles may have one function only. -/
theorem untruncated_overview_lists_iff_too_long :
    let o : CycleOptions := { maxLength := 1 }
    let fs : List FunctionRecord := [{ id := "a" }, { id := "b" }]
    let edges : List (CallEdge Rat) :=
      [{ caller := "a", callee := "b" }, { caller := "b", callee := "a" }]
    let overview := cycleOverview o fs edges
    o.IsUnfiltered ∧ overview.truncated = false ∧ IsSimpleCycle (KnownCalls fs edges) ["a", "b"] ∧
      ¬ ∃ c ∈ overview.cycles.map (·.nodes), c ~r ["a", "b"] := by
  intro o fs edges overview
  have ho : o.IsUnfiltered := ⟨rfl, rfl, Int.le_refl 0, rfl, rfl, Int.le_refl 0⟩
  have hvalid : (FunctionIndex.ofList fs).validEdges edges = edges :=
    List.filter_eq_self.mpr (by decide)
  have hsearch : (findCycles o.limits edges).truncated = false := by cbv
  have htruncated : overview.truncated = false :=
    (congrArg (fun es => (findCycles o.limits es).truncated) hvalid).trans hsearch
  have hcalls : KnownCalls fs edges "a" "b" ∧ KnownCalls fs edges "b" "a" := by
    simp [KnownCalls, Calls, CallEdge.isInternal, fs, edges]
  have hcycle : IsSimpleCycle (KnownCalls fs edges) ["a", "b"] :=
    ⟨List.cons_ne_nil _ _, by decide, by simpa using hcalls.1, hcalls.2⟩
  obtain ⟨-, -, hlists⟩ := untruncated_overview_lists_iff ho fs edges
  have hiff := (hlists htruncated ["a", "b"] hcycle (by decide)).1
  exact ⟨ho, htruncated, hcycle, hiff.not.mpr (by decide)⟩

end Deadwood
