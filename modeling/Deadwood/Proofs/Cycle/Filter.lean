import Deadwood.Proofs.Cycle.Bounds
import Deadwood.Proofs.Cycle.Overview

/-!
# Filters and statistics of an overview

An overview is a list of enumerated cycles that is filtered, ranked, cut and counted. Every
enumerated cycle is listed, or left out by the first filter that rejects it, or cut off, and the
statistics count it there. Cycles that are too small may be left out by the search or by a filter:
unless the search is truncated, the overview is the same.

## Main definitions

* `enumeratedCycles`: the cycles of an overview before any filter.
* `CycleOptions.Passes`, `CycleOptions.FirstRejects`: whether filters reject a cycle.
* `keptCycles`: the cycles of an overview before the list is cut.

## Main results

* `sum_countP_key`: counting the items of a list by their keys.
* `statistics_balance`: where the enumerated cycles are counted.
* `findCycles_minSize`: a search that ignores small cycles.
* `size_filter_early_eq_late`: small cycles ignored by the search or by a filter.
-/

namespace Deadwood

variable {R : Type} {o : CycleOptions} {idx : FunctionIndex} {c : ClassifiedCycle} {f : CycleFilter}

/-! ## Filters -/

theorem CycleFilter.mem_order (f : CycleFilter) :
    f ∈ [.recursive, .clear, .minComplexity, .crossLayerOnly, .recursiveOnly] := by
  cases f <;> decide

namespace CycleOptions

/-- No filter rejects the cycle. -/
def Passes (o : CycleOptions) (idx : FunctionIndex) (c : ClassifiedCycle) : Prop :=
  ∀ f, o.rejects idx c f = false

/-- A filter rejects the cycle, and none of those that are declared before it does. -/
def FirstRejects (o : CycleOptions) (idx : FunctionIndex) (c : ClassifiedCycle) (f : CycleFilter) :
    Prop :=
  o.rejects idx c f = true ∧ ∀ f', f'.ctorIdx < f.ctorIdx → o.rejects idx c f' = false

@[simp] theorem rejectedBy?_eq_none_iff : o.rejectedBy? idx c = none ↔ o.Passes idx c := by
  simp only [rejectedBy?, List.find?_eq_none, Bool.not_eq_true]
  exact ⟨fun h f => h f f.mem_order, fun h f _ => h f⟩

/-- Filters are tried in the order of their declaration. -/
@[simp] theorem rejectedBy?_eq_some_iff :
    o.rejectedBy? idx c = some f ↔ o.FirstRejects idx c f := by
  have hordered : [.recursive, .clear, .minComplexity, .crossLayerOnly, .recursiveOnly].Pairwise
      fun f f' : CycleFilter => f.ctorIdx < f'.ctorIdx := by decide
  rw [rejectedBy?, List.find?_eq_some_iff_append, FirstRejects]
  refine and_congr .rfl ⟨?_, fun hbefore => ?_⟩
  · rintro ⟨before, after, hsplit, hbefore⟩ f' hlt
    have hmem := f'.mem_order
    rw [hsplit] at hordered hmem
    rcases List.mem_append.mp hmem with h | h
    · simpa using hbefore f' h
    · -- what is declared earlier does not stand behind `f`
      rcases List.mem_cons.mp h with rfl | h
      · exact absurd hlt (Nat.lt_irrefl _)
      · have hgt := (List.pairwise_cons.mp (List.pairwise_append.mp hordered).2.1).1 f' h
        exact absurd hlt (Nat.lt_asymm hgt)
  · obtain ⟨before, after, hsplit⟩ := List.append_of_mem f.mem_order
    refine ⟨before, after, hsplit, fun f' hf' => ?_⟩
    rw [hsplit] at hordered
    have hlt := (List.pairwise_append.mp hordered).2.2 f' hf' f List.mem_cons_self
    simp [hbefore f' hlt]

instance (o : CycleOptions) (idx : FunctionIndex) : DecidablePred (o.Passes idx) := fun _ =>
  decidable_of_iff _ rejectedBy?_eq_none_iff

instance (o : CycleOptions) (idx : FunctionIndex) (f : CycleFilter) :
    DecidablePred (o.FirstRejects idx · f) := fun _ =>
  decidable_of_iff _ rejectedBy?_eq_some_iff

end CycleOptions

/-! ## The list of an overview -/

section Lists

variable (o : CycleOptions) (fs : List FunctionRecord) (edges : List (CallEdge R))

/-- The cycles of a code base with their classification, before any filter. -/
def enumeratedCycles : List ClassifiedCycle :=
  (findCycles o.limits ((FunctionIndex.ofList fs).validEdges edges)).cycles.map
    (ClassifiedCycle.ofCycle (.ofList fs) o.boundaries)

/-- The cycles that pass all filters, by their scores. -/
def keptCycles : List ClassifiedCycle :=
  ClassifiedCycle.ranked ((enumeratedCycles o fs edges).filter (o.Passes (.ofList fs)))

theorem keptCycles_perm :
    (keptCycles o fs edges).Perm ((enumeratedCycles o fs edges).filter (o.Passes (.ofList fs))) :=
  List.mergeSort_perm _ _

/-- What is listed, counted and cut off depends on the cycles that pass all filters. -/
theorem cycleOverview_eq :
    let overview := cycleOverview o fs edges
    let listed := o.shorten (keptCycles o fs edges)
    overview.cycles = listed ∧ overview.counts = .of listed ∧
      overview.stats.listed = listed.length ∧
      overview.stats.limitedOut = (keptCycles o fs edges).length - listed.length := by
  have hpasses : (fun c => (o.rejectedBy? (.ofList fs) c).isNone) =
      fun c => decide (o.Passes (.ofList fs) c) := by
    funext c
    rw [Bool.eq_iff_iff, Option.isNone_iff_eq_none, CycleOptions.rejectedBy?_eq_none_iff,
      decide_eq_true_iff]
  simp only [cycleOverview, keptCycles, enumeratedCycles, hpasses, and_self]

theorem CycleOptions.length_shorten_le (cs : List ClassifiedCycle) :
    (o.shorten cs).length ≤ cs.length := by
  unfold shorten
  split
  · exact List.length_take_le' _ _
  · exact Nat.le_refl _

theorem CycleOptions.shorten_subset (cs : List ClassifiedCycle) : o.shorten cs ⊆ cs := by
  unfold shorten
  split
  · exact List.take_subset _ _
  · exact List.Subset.refl _

end Lists

/-! ## Statistics -/

/-- If the keys of all items are known, counting the items key by key counts all of them. -/
theorem sum_countP_key {α κ : Type} [DecidableEq κ] {key : α → κ} {as : List α} {keys : List κ}
    (hkeys : keys.Nodup) (h : ∀ a ∈ as, key a ∈ keys) :
    (keys.map fun k => as.countP (key · = k)).sum = as.length := by
  have hcount : ∀ k, as.countP (key · = k) = (as.map key).count k := by
    intro k
    rw [List.count_eq_countP, List.countP_map]
    rfl
  have hmem : ∀ k ∈ (as.map key : Multiset κ), k ∈ keys.toFinset := by
    simpa using h
  calc (keys.map fun k => as.countP (key · = k)).sum
      = ∑ k ∈ keys.toFinset, (as.map key : Multiset κ).count k := by
        rw [List.sum_toFinset _ hkeys]
        simp only [hcount, Multiset.coe_count]
    _ = as.length := by
        rw [Multiset.sum_count_eq_card hmem]
        simp

namespace ClassifiedCycle

variable {b : Boundaries} {nodes : Cycle}

theorem importance_ofCycle_mem :
    (ofCycle idx b nodes).importance ∈ [.critical, .high, .medium, .low] := by
  simp only [ofCycle, importanceOf]
  split_ifs <;> decide

theorem type_ofCycle_mem :
    (ofCycle idx b nodes).type ∈ [.recursive, .mutualCalls, .complex] := by
  simp only [ofCycle, CycleType.ofLength]
  split_ifs <;> decide

end ClassifiedCycle

/-- How many cycles a filter left out. -/
def FilterStats.excludedBy (s : FilterStats) : CycleFilter → Nat
  | .recursive => s.byRecursive
  | .clear => s.byClear
  | .minComplexity => s.byMinComplexity
  | .crossLayerOnly => s.byCrossLayerOnly
  | .recursiveOnly => s.byRecursiveOnly

section Statistics

variable (o : CycleOptions) (fs : List FunctionRecord) (edges : List (CallEdge R))

theorem excludedBy_cycleOverview (f : CycleFilter) :
    (cycleOverview o fs edges).stats.excludedBy f =
      (enumeratedCycles o fs edges).countP (o.rejectedBy? (.ofList fs) · = some f) := by
  cases f <;> rfl

/-- Every enumerated cycle is kept or left out by one filter. -/
theorem length_enumeratedCycles :
    (enumeratedCycles o fs edges).length = (keptCycles o fs edges).length +
      ([.recursive, .clear, .minComplexity, .crossLayerOnly, .recursiveOnly].map
        (cycleOverview o fs edges).stats.excludedBy).sum := by
  let reason := o.rejectedBy? (.ofList fs)
  have hkept : (keptCycles o fs edges).length =
      (enumeratedCycles o fs edges).countP (reason · = none) := by
    rw [(keptCycles_perm o fs edges).length_eq, ← List.countP_eq_length_filter]
    simp only [← CycleOptions.rejectedBy?_eq_none_iff, reason]
  have hreasons : ([none, some .recursive, some .clear, some .minComplexity, some .crossLayerOnly,
      some .recursiveOnly] : List (Option CycleFilter)).Nodup := by decide
  have hall : ∀ c ∈ enumeratedCycles o fs edges, reason c ∈ [none, some .recursive, some .clear,
      some .minComplexity, some .crossLayerOnly, some .recursiveOnly] := by
    intro c _
    cases reason c with
    | none => exact List.mem_cons_self
    | some f => exact List.mem_cons_of_mem _ (List.mem_map_of_mem f.mem_order)
  rw [hkept, ← sum_countP_key hreasons hall]
  simp only [List.map_cons, List.map_nil, excludedBy_cycleOverview, List.sum_cons, reason]

theorem ofCycle_of_mem_keptCycles (h : c ∈ keptCycles o fs edges) :
    ∃ nodes, c = .ofCycle (.ofList fs) o.boundaries nodes := by
  have henumerated := List.mem_of_mem_filter ((keptCycles_perm o fs edges).mem_iff.mp h)
  obtain ⟨nodes, -, rfl⟩ := List.mem_map.mp henumerated
  exact ⟨nodes, rfl⟩

end Statistics

/-- Every listed cycle has one of the importances and one of the types that are counted. -/
theorem CycleCounts.of_sums {cs : List ClassifiedCycle} {b : Boundaries}
    (h : ∀ c ∈ cs, ∃ nodes, c = .ofCycle idx b nodes) :
    let counts := CycleCounts.of cs
    counts.critical + counts.high + counts.medium + counts.low = cs.length ∧
      counts.recursive + counts.mutualCalls + counts.complex = cs.length := by
  have himportances : ∀ c ∈ cs, c.importance ∈ [.critical, .high, .medium, .low] := by
    intro c hc
    obtain ⟨nodes, rfl⟩ := h c hc
    exact ClassifiedCycle.importance_ofCycle_mem
  have htypes : ∀ c ∈ cs, c.type ∈ [.recursive, .mutualCalls, .complex] := by
    intro c hc
    obtain ⟨nodes, rfl⟩ := h c hc
    exact ClassifiedCycle.type_ofCycle_mem
  have hbyImportance := sum_countP_key (by decide) himportances
  have hbyType := sum_countP_key (by decide) htypes
  simp only [List.map_cons, List.map_nil, List.sum_cons, List.sum_nil] at hbyImportance hbyType
  refine ⟨?_, ?_⟩
  · rw [← hbyImportance]
    simp only [CycleCounts.of]
    omega
  · rw [← hbyType]
    simp only [CycleCounts.of]
    omega

/-- The enumerated cycles are those that are listed, those that were cut off and those that the
filters left out. The counts per importance and per type both add up to the listed ones. Before the
list is cut, it holds exactly the enumerated cycles that no filter rejects; a cycle that is left out
is counted for the first filter, in the order of declaration, that rejects it. The list is cut to
its limit, if there is one. -/
theorem statistics_balance (o : CycleOptions) (fs : List FunctionRecord)
    (edges : List (CallEdge R)) :
    let overview := cycleOverview o fs edges
    let stats := overview.stats
    let counts := overview.counts
    let uncut := cycleOverview { o with limit := 0 } fs edges
    let enumerated := enumeratedCycles o fs edges
    stats.total = enumerated.length ∧
    stats.total = stats.listed + stats.limitedOut + (stats.byRecursive + stats.byClear +
      stats.byMinComplexity + stats.byCrossLayerOnly + stats.byRecursiveOnly) ∧
    stats.listed = overview.cycles.length ∧
    stats.listed = counts.critical + counts.high + counts.medium + counts.low ∧
    stats.listed = counts.recursive + counts.mutualCalls + counts.complex ∧
    uncut.cycles.Perm (enumerated.filter (o.Passes (.ofList fs))) ∧
    (∀ f, stats.excludedBy f = enumerated.countP (o.FirstRejects (.ofList fs) · f)) ∧
    (0 < o.limit → overview.cycles = uncut.cycles.take o.limit.toNat ∧
      (overview.cycles.length : Int) ≤ o.limit) ∧
    (o.limit ≤ 0 → overview.cycles = uncut.cycles) := by
  intro overview stats counts uncut enumerated
  obtain ⟨hcycles, hcounts, hlisted, hlimited⟩ := cycleOverview_eq o fs edges
  have huncut : uncut.cycles = keptCycles o fs edges :=
    (cycleOverview_eq { o with limit := 0 } fs edges).1
  obtain ⟨himportances, htypes⟩ := CycleCounts.of_sums fun c hc =>
    ofCycle_of_mem_keptCycles o fs edges (o.shorten_subset _ hc)
  refine ⟨rfl, ?_, hlisted.trans (congrArg _ hcycles.symm), ?_, ?_, ?_, fun f => ?_, fun h => ?_,
    fun h => ?_⟩
  · have hlength := length_enumeratedCycles o fs edges
    have hle := o.length_shorten_le (keptCycles o fs edges)
    simp only [List.map_cons, List.map_nil, List.sum_cons, List.sum_nil,
      FilterStats.excludedBy] at hlength
    change (enumeratedCycles o fs edges).length = _
    simp only [stats, overview]
    omega
  · rw [hlisted, ← himportances, ← hcounts]
  · rw [hlisted, ← htypes, ← hcounts]
  · rw [huncut]
    exact keptCycles_perm o fs edges
  · rw [excludedBy_cycleOverview]
    simp only [CycleOptions.rejectedBy?_eq_some_iff, enumerated]
  · have htake : overview.cycles = uncut.cycles.take o.limit.toNat := by
      rw [hcycles, huncut, CycleOptions.shorten, if_pos h]
    refine ⟨htake, ?_⟩
    rw [htake, List.length_take]
    omega
  · rw [hcycles, huncut, CycleOptions.shorten, if_neg (Int.not_lt.mpr h)]

/-! ## Small cycles -/

instance : Std.Asymm Cycle.Precedes where
  asymm c d := by
    rintro (hlt | ⟨heq, hlex⟩) (hlt' | ⟨heq', hlex'⟩)
    · exact Nat.lt_asymm hlt hlt'
    · exact Nat.ne_of_lt hlt heq'.symm
    · exact Nat.ne_of_lt hlt' heq.symm
    · exact Std.Asymm.asymm c d hlex hlex'

section MinSize

variable {limits : CycleLimits} {edges : List (CallEdge R)} {least : Nat}

/-- A search that ignores more of the small cycles is not truncated either. -/
theorem not_truncated_minSize {g : CallGraph} (hleast : limits.minSize ≤ least)
    (hs : (g.searchCycles limits).truncated = false) :
    (g.searchCycles { limits with minSize := least }).truncated = false := by
  rw [← Bool.not_eq_true, g.truncated_searchCycles, not_or, Nat.not_lt, Nat.not_lt] at hs ⊢
  refine ⟨Nat.le_trans ?_ hs.1, hs.2⟩
  rw [reportedCycles, reportedCycles, ← List.countP_eq_length_filter,
    ← List.countP_eq_length_filter]
  refine List.countP_mono_left fun c _ hc => ?_
  exact decide_eq_true (hleast.trans (of_decide_eq_true hc))

/-- Without the bounds on their number, cycles that are too small can be ignored in the search or
left out afterwards. -/
theorem findCycles_minSize (hmax : 1 ≤ limits.maxLength) (hleast : limits.minSize ≤ least)
    (hs : (findCycles limits edges).truncated = false) :
    (findCycles { limits with minSize := least } edges).cycles =
      (findCycles limits edges).cycles.filter (least ≤ ·.length) := by
  have hmax' : 1 ≤ ({ limits with minSize := least } : CycleLimits).maxLength := hmax
  have hs' : (findCycles { limits with minSize := least } edges).truncated = false :=
    not_truncated_minSize hleast hs
  -- both lists are sorted, so it suffices that they have the same members
  refine List.Pairwise.eq_of_mem_iff (pairwise_findCycles hmax')
    ((pairwise_findCycles hmax).filter _) fun c => ?_
  rw [mem_findCycles_iff hmax' hs', List.mem_filter, mem_findCycles_iff hmax hs,
    decide_eq_true_iff]
  constructor
  · rintro ⟨hcycle, hstart, hmin, hlen⟩
    exact ⟨⟨hcycle, hstart, hleast.trans hmin, hlen⟩, hmin⟩
  · rintro ⟨⟨hcycle, hstart, -, hlen⟩, hmin⟩
    exact ⟨hcycle, hstart, hmin, hlen⟩

end MinSize

section SizeFilter

variable {n : Int}

theorem CycleOptions.passes_minComplexity (hn : 1 ≤ n) :
    { o with minSize := 1, minComplexity := n }.Passes idx c ↔
      { o with minSize := n, minComplexity := 0 }.Passes idx c ∧ n.toNat ≤ c.size := by
  have hsize : { o with minSize := 1, minComplexity := n }.rejects idx c .minComplexity = false ↔
      n.toNat ≤ c.size := by
    simp only [rejects, Bool.and_eq_false_iff, decide_eq_false_iff_not]
    omega
  constructor
  · intro h
    refine ⟨fun f => ?_, hsize.mp (h .minComplexity)⟩
    cases f with
    | minComplexity => rfl
    | recursive => exact h .recursive
    | clear => exact h .clear
    | crossLayerOnly => exact h .crossLayerOnly
    | recursiveOnly => exact h .recursiveOnly
  · rintro ⟨h, hle⟩ f
    cases f with
    | minComplexity => exact hsize.mpr hle
    | recursive => exact h .recursive
    | clear => exact h .clear
    | crossLayerOnly => exact h .crossLayerOnly
    | recursiveOnly => exact h .recursiveOnly

theorem CycleLimits.ofBounds_minSize (maxCycles maxLength maxSteps : Int) (hn : 1 ≤ n) :
    ofBounds maxCycles maxLength maxSteps n =
      { ofBounds maxCycles maxLength maxSteps 1 with minSize := n.toNat } := by
  have hpos : 0 < n := hn
  simp only [ofBounds, if_pos hpos]

section Overviews

variable (o : CycleOptions) (hn : 1 ≤ n) (fs : List FunctionRecord) (edges : List (CallEdge R))
  (hs : (cycleOverview { o with minSize := 1, minComplexity := n } fs edges).truncated = false)

include hn hs

theorem not_truncated_cycleOverview :
    (cycleOverview { o with minSize := n, minComplexity := 0 } fs edges).truncated = false := by
  change ((CallGraph.ofEdges _ []).searchCycles (.ofBounds o.maxCycles o.maxLength 0 n)).truncated =
    false
  rw [CycleLimits.ofBounds_minSize _ _ _ hn]
  exact not_truncated_minSize (Int.toNat_le_toNat hn) hs

/-- Unless the search is truncated, it does not matter whether it ignores small cycles or they are
left out afterwards. -/
theorem keptCycles_minSize :
    keptCycles { o with minSize := n, minComplexity := 0 } fs edges =
      keptCycles { o with minSize := 1, minComplexity := n } fs edges := by
  have henumerated : enumeratedCycles { o with minSize := n, minComplexity := 0 } fs edges =
      (enumeratedCycles { o with minSize := 1, minComplexity := n } fs edges).filter
        (n.toNat ≤ ·.size) := by
    have hmax := CycleLimits.one_le_maxLength o.maxCycles o.maxLength 0 1
    have hsearch := findCycles_minSize hmax (Int.toNat_le_toNat hn) hs
    rw [← CycleLimits.ofBounds_minSize _ _ _ hn] at hsearch
    rw [enumeratedCycles, enumeratedCycles, List.filter_map]
    exact congrArg _ hsearch
  rw [keptCycles, keptCycles, henumerated, List.filter_filter]
  refine congrArg _ (List.filter_congr fun c _ => ?_)
  rw [← Bool.decide_and]
  exact decide_eq_decide.mpr (CycleOptions.passes_minComplexity hn).symm

end Overviews

end SizeFilter

/-- Small cycles can be ignored in the search or left out by a filter. Unless the latter search is
truncated, the former is not truncated either, and both overviews list the same cycles in the same
order, with the same counts. -/
theorem size_filter_early_eq_late (o : CycleOptions) {n : Int} (hn : 1 ≤ n)
    (fs : List FunctionRecord) (edges : List (CallEdge R)) :
    let late := cycleOverview { o with minSize := 1, minComplexity := n } fs edges
    let early := cycleOverview { o with minSize := n, minComplexity := 0 } fs edges
    late.truncated = false →
      early.truncated = false ∧ early.cycles = late.cycles ∧ early.counts = late.counts ∧
        early.stats.limitedOut = late.stats.limitedOut ∧
        early.stats.listed = late.stats.listed := by
  intro late early hs
  have hkept := keptCycles_minSize o hn fs edges hs
  obtain ⟨hcycles, hcounts, hlisted, hlimited⟩ :=
    cycleOverview_eq { o with minSize := 1, minComplexity := n } fs edges
  obtain ⟨hcycles', hcounts', hlisted', hlimited'⟩ :=
    cycleOverview_eq { o with minSize := n, minComplexity := 0 } fs edges
  rw [hkept] at hcycles' hcounts' hlisted' hlimited'
  exact ⟨not_truncated_cycleOverview o hn fs edges hs, hcycles'.trans hcycles.symm,
    hcounts'.trans hcounts.symm, hlimited'.trans hlimited.symm, hlisted'.trans hlisted.symm⟩

/-- One function calls itself, and two others call each other. The first cycle is too small. -/
theorem size_filter_early_eq_late_loop :
    let fs : List FunctionRecord := [{ id := "a" }, { id := "b" }, { id := "c" }]
    let edges : List (CallEdge Rat) :=
      [{ caller := "a", callee := "a" }, { caller := "b", callee := "c" },
        { caller := "c", callee := "b" }]
    let late := cycleOverview { minComplexity := 2 } fs edges
    let early := cycleOverview { minSize := 2 } fs edges
    late.truncated = false ∧ late.stats.total = 2 ∧ early.stats.total = 1 ∧
      early.cycles = late.cycles ∧ early.stats.listed = late.stats.listed := by
  intro fs edges late early
  have hvalid : (FunctionIndex.ofList fs).validEdges edges = edges :=
    List.filter_eq_self.mpr (by decide)
  have hsearch : (findCycles (.ofBounds 1000 20 0 1) edges).truncated = false := by cbv
  have htruncated : late.truncated = false :=
    (congrArg (fun es => (findCycles (.ofBounds 1000 20 0 1) es).truncated) hvalid).trans hsearch
  obtain ⟨-, hcycles, -, -, hlisted⟩ :=
    size_filter_early_eq_late {} (show (1 : Int) ≤ 2 by decide) fs edges htruncated
  have htotal : ∀ o : CycleOptions, (cycleOverview o fs edges).stats.total =
      (findCycles o.limits edges).cycles.length := fun o =>
    (List.length_map _).trans (congrArg (fun es => (findCycles o.limits es).cycles.length) hvalid)
  exact ⟨htruncated, (htotal _).trans (by cbv), (htotal _).trans (by cbv), hcycles, hlisted⟩

end Deadwood
