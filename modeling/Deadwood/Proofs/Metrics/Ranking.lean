import Deadwood.Metrics
import Deadwood.Proofs.Keyed
import Mathlib.Data.List.Permutation
import Mathlib.Tactic.SplitIfs

/-!
# Rankings of functions

A summary of metrics lists the functions with the largest counts. If no two functions have the same
id, the ids decide between equal counts. So there is only one ranking of the functions, and a
summary does not depend on the order in which the metrics are given.

## Main definitions

* `orUsual`: an option, or its usual value.
* `RanksBefore`: the order of a ranking.
* `IsTop`: the first functions of a ranking.

## Main results

* `DependencyStats.isTop_take_byCount`: the first functions of a sorted list.
* `DependencyStats.of_perm`: a summary of the same metrics in another order.
* `stats_rank_functions`: what a summary lists.
-/

namespace Deadwood

/-- An option, or its usual value if it is not positive. -/
def orUsual (given usual : Int) : Int :=
  if 0 < given then given else usual

theorem orUsual_nonneg {given usual : Int} (h : 0 ≤ usual) : 0 ≤ orUsual given usual := by
  unfold orUsual
  split_ifs <;> omega

theorem StatsOptions.effective_eq (o : StatsOptions) :
    o.effective = ⟨orUsual o.hubThreshold 5, orUsual o.utilityThreshold 5, orUsual o.maxHubs 10,
      orUsual o.maxUtilities 10⟩ := by
  have hpick : ∀ given usual : Int, (if given ≤ 0 then usual else given) = orUsual given usual := by
    intro given usual
    unfold orUsual
    split_ifs <;> omega
  simp only [effective, hpick]

/-- One function comes before another one: it has the larger count, or the same count and the
smaller id. -/
def RanksBefore (count : FunctionMetrics → Int) (a b : FunctionMetrics) : Prop :=
  count b < count a ∨ count a = count b ∧ a.functionId < b.functionId

/-- The first functions of a ranking of those whose count reaches a threshold: as many as there are,
up to a limit, in the order of the ranking, and all before those that are not listed. -/
structure IsTop (count : FunctionMetrics → Int) (threshold limit : Int)
    (ms top : List FunctionMetrics) : Prop where
  length_eq : (top.length : Int) = min ↑(ms.countP (threshold ≤ count ·)) limit
  ranked : top.Pairwise (RanksBefore count)
  qualified : ∀ m ∈ top, m ∈ ms ∧ threshold ≤ count m
  first : ∀ m ∈ ms, threshold ≤ count m → m ∉ top → ∀ listed ∈ top, RanksBefore count listed m

variable {count : FunctionMetrics → Int} {ms ms' : List FunctionMetrics}

/-! ## Rankings -/

theorem RanksBefore.asymm {a b : FunctionMetrics} (h : RanksBefore count a b) :
    ¬ RanksBefore count b a := by
  intro h'
  rcases h with hab | ⟨heq, hab⟩ <;> rcases h' with hba | ⟨heq', hba⟩
  · omega
  · omega
  · omega
  · exact String.lt_asymm hab hba

namespace DependencyStats

/-- The order by which functions are sorted. -/
theorem byCount_le_iff {a b : FunctionMetrics} :
    (if count a = count b then decide (a.functionId ≤ b.functionId)
      else decide (count b < count a)) = true ↔
      count b < count a ∨ count a = count b ∧ a.functionId ≤ b.functionId := by
  split_ifs with heq
  · simp [heq]
  · simp [heq]

/-- Functions with different ids are sorted into a ranking. -/
theorem pairwise_byCount (hids : (ms.map (·.functionId)).Nodup) :
    (byCount count ms).Pairwise (RanksBefore count) := by
  refine pairwise_mergeSort_of_nodup ?_ ?_ ?_ hids
  · intro a b c
    simp only [byCount_le_iff]
    rintro (hab | ⟨hab, hids⟩) (hbc | ⟨hbc, hids'⟩)
    · exact .inl (by omega)
    · exact .inl (by omega)
    · exact .inl (by omega)
    · exact .inr ⟨hab.trans hbc, String.le_trans hids hids'⟩
  · intro a b
    rw [Bool.or_eq_true, byCount_le_iff, byCount_le_iff]
    rcases lt_trichotomy (count a) (count b) with hlt | heq | hlt
    · exact .inr (.inl hlt)
    · exact (String.le_total a.functionId b.functionId).imp (.inr ⟨heq, ·⟩) (.inr ⟨heq.symm, ·⟩)
    · exact .inl (.inl hlt)
  · intro a b hle hne
    exact (byCount_le_iff.mp hle).imp_right fun h => ⟨h.1, Std.lt_of_le_of_ne h.2 hne⟩

/-- There is only one ranking of functions with different ids. -/
theorem byCount_congr (hids : (ms.map (·.functionId)).Nodup) (h : ms.Perm ms') :
    byCount count ms = byCount count ms' := by
  have hids' : (ms'.map (·.functionId)).Nodup := (h.map _).nodup hids
  have hperm : (byCount count ms).Perm (byCount count ms') :=
    (List.mergeSort_perm ..).trans (h.trans (List.mergeSort_perm ..).symm)
  exact hperm.eq_of_pairwise (fun _ _ _ _ hab hba => absurd hba hab.asymm)
    (pairwise_byCount hids) (pairwise_byCount hids')

theorem nodup_ids_filter (hids : (ms.map (·.functionId)).Nodup) (p : FunctionMetrics → Bool) :
    ((ms.filter p).map (·.functionId)).Nodup :=
  hids.sublist (List.filter_sublist.map _)

theorem length_byCount_filter (count : FunctionMetrics → Int) (threshold : Int)
    (ms : List FunctionMetrics) :
    (byCount count (ms.filter fun m => threshold ≤ count m)).length =
      ms.countP fun m => threshold ≤ count m := by
  rw [byCount, List.length_mergeSort, List.countP_eq_length_filter]

/-- The first functions of a sorted list are the first ones of the ranking. -/
theorem isTop_take_byCount (hids : (ms.map (·.functionId)).Nodup) {threshold limit : Int}
    (hlimit : 0 ≤ limit) :
    IsTop count threshold limit ms
      ((byCount count (ms.filter fun m => threshold ≤ count m)).take limit.toNat) := by
  have hranked : (byCount count (ms.filter fun m => threshold ≤ count m)).Pairwise
      (RanksBefore count) := pairwise_byCount (nodup_ids_filter hids _)
  have hmem : ∀ m, m ∈ byCount count (ms.filter fun m => threshold ≤ count m) ↔
      m ∈ ms ∧ threshold ≤ count m := by
    simp [byCount]
  have hlength := length_byCount_filter count threshold ms
  generalize byCount count (ms.filter fun m => threshold ≤ count m) = sorted at *
  refine ⟨?_, hranked.take, fun m hm => (hmem m).mp (List.mem_of_mem_take hm), ?_⟩
  · rw [List.length_take, hlength]
    omega
  · intro m hm hcount hleft listed hlisted
    -- what is not among the first ones stands behind all of them
    rw [← List.take_append_drop limit.toNat sorted] at hranked
    have hrest : m ∈ sorted.drop limit.toNat := by
      have hm : m ∈ sorted.take limit.toNat ++ sorted.drop limit.toNat := by
        rw [List.take_append_drop]
        exact (hmem m).mpr ⟨hm, hcount⟩
      exact (List.mem_append.mp hm).resolve_left hleft
    exact (List.pairwise_append.mp hranked).2.2 listed hlisted m hrest

/-! ## Totals -/

theorem total64_congr {ns ns' : List Int} (h : ns.Perm ns') : total64 ns = total64 ns' := by
  refine h.foldl_eq' (fun x _ y _ sum => ?_) 0
  simp only [Word.wrap, Int.bmod_add_bmod, Int.add_right_comm]

theorem largest_congr {ns ns' : List Int} (h : ns.Perm ns') : largest ns = largest ns' :=
  h.foldl_eq' (fun x _ y _ most => by omega) 0

theorem mean_congr {ns ns' : List Int} (h : ns.Perm ns') : mean ns = mean ns' := by
  rw [mean, mean, total64_congr h, h.length_eq, h.isEmpty_eq]

/-- The order of the metrics says nothing. -/
theorem of_perm (o : StatsOptions) (hids : (ms.map (·.functionId)).Nodup) (h : ms.Perm ms') :
    of o ms = of o ms' := by
  have hranking : ∀ (count : FunctionMetrics → Int) (p : FunctionMetrics → Bool),
      byCount count (ms.filter p) = byCount count (ms'.filter p) :=
    fun count p => byCount_congr (nodup_ids_filter hids p) (h.filter p)
  have hisolated :=
    sortedBy_key_perm (nodup_ids_filter hids (·.isIsolated)) (h.filter (·.isIsolated))
  simp only [of, hranking, hisolated, h.length_eq, h.countP_eq, mean_congr (h.map _),
    largest_congr (h.map _)]

end DependencyStats

/-- If no two metrics have the same id, their order does not change the summary. The hubs are the
first functions of the ranking by fan-in of those that reach the threshold, and the utilities those
of the ranking by fan-out; the totals count all that reach it. The isolated functions are listed
once each, in the order of their ids. Options that are not positive have their usual values. -/
theorem stats_rank_functions (o : StatsOptions) (ms : List FunctionMetrics)
    (hids : (ms.map (·.functionId)).Nodup) :
    let s := DependencyStats.of o ms
    (∀ ms', ms.Perm ms' → DependencyStats.of o ms' = s) ∧
      s.totalHubs = ms.countP (orUsual o.hubThreshold 5 ≤ ·.fanIn) ∧
      s.totalUtilities = ms.countP (orUsual o.utilityThreshold 5 ≤ ·.fanOut) ∧
      IsTop (·.fanIn) (orUsual o.hubThreshold 5) (orUsual o.maxHubs 10) ms s.hubs ∧
      IsTop (·.fanOut) (orUsual o.utilityThreshold 5) (orUsual o.maxUtilities 10) ms s.utilities ∧
      s.isolated.Pairwise (fun a b => a.functionId < b.functionId) ∧
      ∀ m, m ∈ s.isolated ↔
        m ∈ ms ∧ m.fanIn = 0 ∧ m.fanOut = 0 ∧ m.isEntryPoint = false := by
  intro s
  refine ⟨fun ms' h => (DependencyStats.of_perm o hids h).symm, ?_⟩
  simp only [s, DependencyStats.of, StatsOptions.effective_eq,
    DependencyStats.length_byCount_filter, true_and]
  have hisolated := DependencyStats.nodup_ids_filter hids (·.isIsolated)
  refine ⟨?_, ?_, ?_, fun m => ?_⟩
  · exact DependencyStats.isTop_take_byCount hids (orUsual_nonneg (by decide))
  · exact DependencyStats.isTop_take_byCount hids (orUsual_nonneg (by decide))
  · rw [sortedBy_key hisolated]
    exact pairwise_mergeSort_key hisolated
  · simp [FunctionMetrics.isIsolated, and_assoc]

/-- Two of four functions reach the threshold for hubs with the same fan-in, but only one hub is
listed: the one with the smaller id. -/
theorem stats_rank_functions_tie :
    let a : FunctionMetrics := { functionId := "a", fanIn := 2 }
    let b : FunctionMetrics := { functionId := "b", fanIn := 2 }
    let c : FunctionMetrics := { functionId := "c", fanOut := 1 }
    let d : FunctionMetrics := { functionId := "d" }
    let s := DependencyStats.of { hubThreshold := 2, maxHubs := 1 } [d, b, a, c]
    ([d, b, a, c].map (·.functionId)).Nodup ∧
      DependencyStats.of { hubThreshold := 2, maxHubs := 1 } [a, b, c, d] = s ∧
      s.totalHubs = 2 ∧ s.hubs = [a] ∧ RanksBefore (·.fanIn) a b ∧ s.isolated = [d] := by
  intro a b c d s
  have hids : ([d, b, a, c].map (·.functionId)).Nodup := by decide
  have hhubs : s.hubs = [a] := by cbv
  have hisolated : s.isolated = [d] := by cbv
  obtain ⟨hperm, htotal, -, htop, -, -, -⟩ :=
    stats_rank_functions { hubThreshold := 2, maxHubs := 1 } [d, b, a, c] hids
  have hbefore : RanksBefore (·.fanIn) a b :=
    htop.first b (by decide) (by decide) (hhubs ▸ by decide) a (hhubs ▸ List.mem_cons_self)
  exact ⟨hids, hperm _ (by decide), htotal.trans (by decide), hhubs, hbefore, hisolated⟩

end Deadwood
