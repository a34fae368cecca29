import Deadwood.Proofs.Cycle.Search
import Mathlib.Data.List.Permutation
import Mathlib.Data.Set.Card

/-!
# The bounds of a search for cycles

A search meets the cycles of its trace in an order that does not depend on how many of them it may
keep and how many calls it may follow. It plays the first events of its trace, as many as its budget
allows, and keeps the first cycles among them, as many as it may. So larger bounds only add cycles,
and a search that is not truncated is the same under all larger bounds.

## Main definitions

* `cyclesWithin`: the cycles whose lengths are within the bounds.
* `CallGraph.ExhaustsBudget`: a search would have followed more calls than it may.
* `Played`: what a search knows after some events if the budget allows for them.
* `CycleLimits.Widens`: larger bounds on the numbers of cycles and calls.

## Main results

* `CallGraph.found_searchCycles`: the cycles that a search finds.
* `CallGraph.truncated_searchCycles`: when a search is truncated.
* `mem_findCycles_iff`: what a search lists that is not truncated.
* `raised_bounds_add_cycles`: two searches with different bounds.
-/

namespace Deadwood

variable {R : Type}

/-- The simple cycles of the internal calls whose lengths are within the bounds, each from its
smallest id on. -/
def cyclesWithin (limits : CycleLimits) (edges : List (CallEdge R)) : Set Cycle :=
  {c | IsSimpleCycle (Calls edges) c ∧ StartsLeast c ∧
    limits.minSize ≤ c.length ∧ c.length ≤ limits.maxLength}

namespace CallGraph

/-- The functions that call themselves, as far as they are reported. -/
def loopSearch (g : CallGraph) (limits : CycleLimits) : CycleSearch :=
  g.loops.foldl (fun s i => s.report limits [i]) {}

/-- What a search leaves of a budget. -/
def budgetLeft (g : CallGraph) (limits : CycleLimits) (budget : Nat) : Nat :=
  (g.components.foldl (fun st members => searchComponent g limits members st)
    (g.loopSearch limits, budget)).2

/-- There are more calls to follow than the budget allows: one call more would be used up, too. -/
def ExhaustsBudget (g : CallGraph) (limits : CycleLimits) : Prop :=
  g.budgetLeft limits (limits.maxSteps + 1) = 0

end CallGraph

/-! ## Events within the budget -/

/-- What a search knows after some events if the budget allows for them: it keeps the first cycles,
as many as it may, and is truncated if there are more. -/
structure Played (limits : CycleLimits) (events : List CallEvent) (s : CycleSearch) : Prop where
  found_eq : s.found.reverse = (reportedCycles limits events).take limits.maxCycles
  count_eq : s.count = s.found.length
  truncated_iff : s.truncated = true ↔ limits.maxCycles < (reportedCycles limits events).length

namespace Played

variable {limits : CycleLimits} {events : List CallEvent} {s : CycleSearch}

theorem count_eq_min (h : Played limits events s) :
    s.count = min limits.maxCycles (reportedCycles limits events).length := by
  rw [h.count_eq, ← List.length_reverse, h.found_eq, List.length_take]

theorem report (h : Played limits events s) (c : List Nat) :
    Played limits (events ++ [.closed c]) (s.report limits c) := by
  have hcount := h.count_eq_min
  have hlast : reportedCycles limits [.closed c] =
      if limits.minSize ≤ c.length then [c] else [] := by
    simp [reportedCycles, closedCycles, CallEvent.cycle?, List.filter_cons]
  unfold CycleSearch.report
  split
  · rename_i hsmall
    have hsame : reportedCycles limits (events ++ [.closed c]) = reportedCycles limits events := by
      rw [reportedCycles_append, hlast, if_neg (Nat.not_le.mpr hsmall), List.append_nil]
    exact ⟨hsame ▸ h.found_eq, h.count_eq, hsame ▸ h.truncated_iff⟩
  · rename_i hsmall
    have hmore : reportedCycles limits (events ++ [.closed c]) =
        reportedCycles limits events ++ [c] := by
      rw [reportedCycles_append, hlast, if_pos (Nat.not_lt.mp hsmall)]
    split
    · rename_i hfull
      have hfull' : limits.maxCycles ≤ (reportedCycles limits events).length := by omega
      refine ⟨?_, h.count_eq, iff_of_true rfl ?_⟩
      · rw [hmore, List.take_append_of_le_length hfull']
        exact h.found_eq
      · rw [hmore, List.length_append]
        exact Nat.lt_succ_of_le hfull'
    · rename_i hfull
      have hroom : (reportedCycles limits events).length < limits.maxCycles := by omega
      have hlength : (reportedCycles limits events ++ [c]).length ≤ limits.maxCycles := by
        rw [List.length_append]
        exact hroom
      refine ⟨?_, congrArg Nat.succ h.count_eq, ?_⟩
      · rw [hmore, List.take_of_length_le hlength, List.reverse_cons, h.found_eq,
          List.take_of_length_le (Nat.le_of_lt hroom)]
      · rw [hmore]
        refine iff_of_false (fun hs => ?_) (Nat.not_lt.mpr hlength)
        exact Nat.lt_asymm hroom (h.truncated_iff.mp hs)

theorem record (h : Played limits events s) (e : CallEvent) :
    Played limits (events ++ [e]) (s.record limits e) := by
  have hsame (hcycle : e.cycle? = none) :
      reportedCycles limits (events ++ [e]) = reportedCycles limits events := by
    simp [reportedCycles, closedCycles, hcycle]
  cases e with
  | closed c => exact h.report c
  | tooLong => exact ⟨hsame rfl ▸ h.found_eq, h.count_eq, hsame rfl ▸ h.truncated_iff⟩
  | passed => exact ⟨hsame rfl ▸ h.found_eq, h.count_eq, hsame rfl ▸ h.truncated_iff⟩

/-- Nothing that happens to a truncated search changes what it keeps. -/
theorem append_of_truncated (h : Played limits events s) (hs : s.truncated = true)
    (es : List CallEvent) : Played limits (events ++ es) s := by
  have hfull := h.truncated_iff.mp hs
  refine ⟨?_, h.count_eq, iff_of_true hs ?_⟩
  · rw [reportedCycles_append, List.take_append_of_le_length (Nat.le_of_lt hfull)]
    exact h.found_eq
  · rw [reportedCycles_append, List.length_append]
    exact Nat.lt_add_right _ hfull

theorem foldl_report (h : Played limits events s) (loops : List Nat) :
    Played limits (events ++ loops.map fun i => .closed [i])
      (loops.foldl (fun s i => s.report limits [i]) s) := by
  induction loops generalizing events s with
  | nil => simpa using h
  | cons i loops ih =>
    rw [List.map_cons, List.append_cons, List.foldl_cons]
    exact ih (h.report [i])

/-- A run plays as many events as the budget allows, and is also truncated if there are more. -/
theorem replay (h : Played limits events s) (es : List CallEvent) (budget : Nat) :
    ∃ played, Played limits (events ++ es.take budget) played ∧
      (replay limits es (s, budget)).1.found = played.found ∧
      ((replay limits es (s, budget)).1.truncated = true ↔
        played.truncated = true ∨ budget < es.length) := by
  induction es generalizing events s budget with
  | nil => exact ⟨s, by simpa using h, rfl, by simp [Deadwood.replay]⟩
  | cons e es ih =>
    cases hs : s.truncated with
    | true =>
      rw [replay_of_truncated hs]
      exact ⟨s, h.append_of_truncated hs _, rfl, iff_of_true hs (.inl hs)⟩
    | false =>
      cases budget with
      | zero =>
        rw [replay_zero hs]
        exact ⟨s, by simpa using h, rfl, iff_of_true rfl (.inr (Nat.zero_lt_succ _))⟩
      | succ budget =>
        rw [replay_succ hs, List.take_succ_cons, List.append_cons, List.length_cons,
          Nat.add_lt_add_iff_right]
        exact ih (h.record e) budget

/-- A run would use up one unit more than its budget if it is not truncated before the budget is
spent and there are further events. -/
theorem replay_succ_snd (h : Played limits events s) (es : List CallEvent) (budget : Nat) :
    (Deadwood.replay limits es (s, budget + 1)).2 = 0 ↔ budget < es.length ∧
      (reportedCycles limits (events ++ es.take budget)).length ≤ limits.maxCycles := by
  induction es generalizing events s budget with
  | nil => simp [Deadwood.replay]
  | cons e es ih =>
    cases hs : s.truncated with
    | true =>
      rw [replay_of_truncated hs]
      refine iff_of_false (Nat.succ_ne_zero _) fun hlength => ?_
      have hfull := (h.append_of_truncated hs ((e :: es).take budget)).truncated_iff.mp hs
      exact Nat.not_lt.mpr hlength.2 hfull
    | false =>
      rw [replay_succ hs]
      cases budget with
      | zero =>
        have hspent : (Deadwood.replay limits es (s.record limits e, 0)).2 = 0 := by
          cases es with
          | nil => rfl
          | cons e' es => simp only [Deadwood.replay]; split <;> rfl
        have hroom : (reportedCycles limits events).length ≤ limits.maxCycles :=
          Nat.not_lt.mp fun hfull => by simp [h.truncated_iff.mpr hfull] at hs
        exact iff_of_true hspent ⟨Nat.zero_lt_succ _, by simpa using hroom⟩
      | succ budget =>
        rw [ih (h.record e) budget, List.take_succ_cons, List.length_cons,
          Nat.add_lt_add_iff_right, List.append_cons events e (es.take budget)]

end Played

/-! ## Whole searches -/

namespace CallGraph

variable {g : CallGraph} {limits : CycleLimits}

/-- The functions that call themselves are closed cycles. -/
def loopEvents (g : CallGraph) : List CallEvent :=
  g.loops.map fun i => .closed [i]

theorem played_loopSearch (g : CallGraph) (limits : CycleLimits) :
    Played limits g.loopEvents (g.loopSearch limits) := by
  have hempty : Played limits [] {} := ⟨by simp [reportedCycles, closedCycles], rfl, by
    simp [reportedCycles, closedCycles]⟩
  exact hempty.foldl_report g.loops

/-- The first cycles are found, as many as the budget and the bound on their number allow. -/
theorem found_searchCycles (g : CallGraph) (limits : CycleLimits) :
    (g.searchCycles limits).found.reverse =
      (reportedCycles limits (g.loopEvents ++ (g.trace limits).take limits.maxSteps)).take
        limits.maxCycles := by
  obtain ⟨s, hs, hfound, -⟩ := (g.played_loopSearch limits).replay (g.trace limits) limits.maxSteps
  rw [searchCycles_eq, ← hs.found_eq, ← hfound]
  rfl

/-- A search is truncated if there are more cycles than it may keep, or more calls than it may
follow. -/
theorem truncated_searchCycles (g : CallGraph) (limits : CycleLimits) :
    (g.searchCycles limits).truncated = true ↔
      limits.maxCycles < (reportedCycles limits (g.loopEvents ++ g.trace limits)).length ∨
        limits.maxSteps < (g.trace limits).length := by
  obtain ⟨s, hs, -, htruncated⟩ :=
    (g.played_loopSearch limits).replay (g.trace limits) limits.maxSteps
  have hsearch : (g.searchCycles limits).truncated = true ↔
      s.truncated = true ∨ limits.maxSteps < (g.trace limits).length := by
    rw [searchCycles_eq]
    exact htruncated
  rw [hsearch, hs.truncated_iff]
  by_cases hsteps : limits.maxSteps < (g.trace limits).length
  · exact iff_of_true (.inr hsteps) (.inr hsteps)
  · rw [List.take_of_length_le (Nat.not_lt.mp hsteps)]

theorem exhaustsBudget_iff : g.ExhaustsBudget limits ↔ limits.maxSteps < (g.trace limits).length ∧
    (reportedCycles limits (g.loopEvents ++ (g.trace limits).take limits.maxSteps)).length ≤
      limits.maxCycles := by
  rw [ExhaustsBudget, budgetLeft, foldl_searchComponent]
  exact (g.played_loopSearch limits).replay_succ_snd (g.trace limits) limits.maxSteps

theorem truncated_of_exhaustsBudget (h : g.ExhaustsBudget limits) :
    (g.searchCycles limits).truncated = true :=
  (g.truncated_searchCycles limits).mpr (.inr (exhaustsBudget_iff.mp h).1)

/-- A search that has calls left is truncated only by the number of cycles. -/
theorem truncated_iff_of_not_exhaustsBudget (h : ¬ g.ExhaustsBudget limits) :
    (g.searchCycles limits).truncated = true ↔
      limits.maxCycles < (reportedCycles limits (g.loopEvents ++ g.trace limits)).length := by
  rw [truncated_searchCycles, or_iff_left_iff_imp]
  intro hsteps
  rw [exhaustsBudget_iff, not_and, Nat.not_le] at h
  refine Nat.lt_of_lt_of_le (h hsteps) ?_
  have hevents := (List.take_sublist limits.maxSteps (g.trace limits)).append_left g.loopEvents
  exact ((hevents.filterMap _).filter _).length_le

end CallGraph

/-! ## What is listed -/

section Listed

variable {limits : CycleLimits} {edges : List (CallEdge R)} {c : Cycle}

theorem mem_findCycles_iff (hmax : 1 ≤ limits.maxLength)
    (hs : (findCycles limits edges).truncated = false) :
    c ∈ (findCycles limits edges).cycles ↔ c ∈ cyclesWithin limits edges := by
  refine ⟨isSimpleCycle_of_mem_findCycles hmax, fun ⟨hcycle, hleast, hmin, hlen⟩ => ?_⟩
  obtain ⟨d, ⟨hd, hrotated⟩, -⟩ := existsUnique_mem_findCycles hmax hs hcycle hmin hlen
  obtain ⟨hdcycle, hdleast, -⟩ := isSimpleCycle_of_mem_findCycles hmax hd
  exact hdleast.eq_of_isRotated hleast hdcycle.nodup hrotated ▸ hd

theorem encard_of_not_truncated (hmax : 1 ≤ limits.maxLength)
    (hs : (findCycles limits edges).truncated = false) :
    (cyclesWithin limits edges).encard = (findCycles limits edges).cycles.length := by
  have hset : cyclesWithin limits edges = ↑(findCycles limits edges).cycles.toFinset := by
    ext c
    rw [List.coe_toFinset, ← mem_findCycles_iff hmax hs]
    rfl
  rw [hset, Set.encard_coe_eq_coe_finsetCard, List.toFinset_card_of_nodup (nodup_findCycles hmax)]

theorem encard_cyclesWithin (hmax : 1 ≤ limits.maxLength) :
    let g := CallGraph.ofEdges edges []
    (cyclesWithin limits edges).encard =
      (reportedCycles limits (g.loopEvents ++ g.trace limits)).length := by
  intro g
  -- a search whose bounds are as large as need be lists them all
  let ample : CycleLimits :=
    { limits with
      maxCycles := (reportedCycles limits (g.loopEvents ++ g.trace limits)).length
      maxSteps := (g.trace limits).length }
  have hample : (findCycles ample edges).truncated = false := by
    rw [← Bool.not_eq_true]
    refine (g.truncated_searchCycles ample).not.mpr ?_
    exact not_or.mpr ⟨Nat.lt_irrefl _, Nat.lt_irrefl _⟩
  have hfound := (g.tally_searchCycles ample).complete hample
  have hlength : (findCycles ample edges).cycles.length =
      (reportedCycles limits (g.loopEvents ++ g.trace limits)).length := by
    simp only [findCycles, List.length_mergeSort, List.length_map]
    exact congrArg List.length hfound
  have hmax' : 1 ≤ ample.maxLength := hmax
  exact (encard_of_not_truncated hmax' hample).trans (congrArg _ hlength)

end Listed

/-- The same cycles are looked for, and at least as many cycles may be kept and calls followed. -/
structure CycleLimits.Widens (narrow wide : CycleLimits) : Prop where
  minSize : wide.minSize = narrow.minSize
  maxLength : wide.maxLength = narrow.maxLength
  maxCycles : narrow.maxCycles ≤ wide.maxCycles
  maxSteps : narrow.maxSteps ≤ wide.maxSteps

namespace CycleLimits.Widens

variable {narrow wide : CycleLimits}

theorem trace_eq (h : narrow.Widens wide) (g : CallGraph) : g.trace wide = g.trace narrow := by
  have hstart : startEvents g wide = startEvents g narrow := by
    funext inside start
    rw [startEvents, startEvents, h.maxLength]
  rw [CallGraph.trace, CallGraph.trace, hstart]

theorem reportedCycles_eq (h : narrow.Widens wide) (events : List CallEvent) :
    reportedCycles wide events = reportedCycles narrow events := by
  rw [reportedCycles, reportedCycles, h.minSize]

/-- Larger bounds cut off a later part of the same list. -/
theorem isPrefix_found (h : narrow.Widens wide) (g : CallGraph) :
    (g.searchCycles narrow).found.reverse <+: (g.searchCycles wide).found.reverse := by
  rw [g.found_searchCycles, g.found_searchCycles, h.trace_eq, h.reportedCycles_eq]
  have hevents : (g.trace narrow).take narrow.maxSteps <+: (g.trace narrow).take wide.maxSteps :=
    List.take_prefix_take_left h.maxSteps
  have hreported := (((List.prefix_append_right_inj g.loopEvents).mpr hevents).filterMap
    CallEvent.cycle?).filter (narrow.minSize ≤ ·.length)
  exact (hreported.take _).trans (List.take_prefix_take_left h.maxCycles)

variable {edges : List (CallEdge R)}

theorem mem_findCycles (h : narrow.Widens wide) {c : Cycle}
    (hc : c ∈ (findCycles narrow edges).cycles) : c ∈ (findCycles wide edges).cycles := by
  obtain ⟨p, hp, rfl⟩ := Deadwood.mem_findCycles.mp hc
  have hfound := (h.isPrefix_found (CallGraph.ofEdges edges [])).subset (List.mem_reverse.mpr hp)
  exact Deadwood.mem_findCycles.mpr ⟨p, List.mem_reverse.mp hfound, rfl⟩

theorem not_truncated (h : narrow.Widens wide) {g : CallGraph}
    (hs : (g.searchCycles narrow).truncated = false) : (g.searchCycles wide).truncated = false := by
  rw [← Bool.not_eq_true, g.truncated_searchCycles, not_or, Nat.not_lt, Nat.not_lt] at hs ⊢
  rw [h.trace_eq, h.reportedCycles_eq]
  exact ⟨hs.1.trans h.maxCycles, hs.2.trans h.maxSteps⟩

/-- Larger bounds do not matter to a search that is not truncated. -/
theorem findCycles_eq (h : narrow.Widens wide) (hs : (findCycles narrow edges).truncated = false) :
    findCycles wide edges = findCycles narrow edges := by
  unfold findCycles at hs ⊢
  generalize CallGraph.ofEdges edges [] = g at hs ⊢
  have hs' : (g.searchCycles wide).truncated = false := h.not_truncated hs
  have tally := g.tally_searchCycles narrow
  have tally' := g.tally_searchCycles wide
  rw [h.trace_eq] at tally'
  have hfound : (g.searchCycles wide).found.reverse = (g.searchCycles narrow).found.reverse := by
    rw [tally.complete hs, tally'.complete hs', h.reportedCycles_eq]
  have hlimited : (g.searchCycles wide).lengthLimited = (g.searchCycles narrow).lengthLimited :=
    Bool.eq_iff_iff.mpr ⟨fun hwide => tally.limited_complete hs (tally'.limited hwide),
      fun hnarrow => tally'.limited_complete hs' (tally.limited hnarrow)⟩
  dsimp only
  rw [hfound, hs', hlimited, ← hs]

end CycleLimits.Widens

/-- With larger bounds on the numbers of cycles and calls, a search lists every cycle that it lists
with smaller ones, and the same report if the smaller ones do not truncate it. It never lists more
cycles than it may. A search that exhausts its budget is truncated, and any other one is truncated
exactly if there are more cycles within the bounds on their lengths than it may list. -/
theorem raised_bounds_add_cycles (maxCycles maxCycles' maxLength maxSteps maxSteps' minSize : Int)
    (edges : List (CallEdge R)) :
    let narrow := CycleLimits.ofBounds maxCycles maxLength maxSteps minSize
    let wide := CycleLimits.ofBounds maxCycles' maxLength maxSteps' minSize
    narrow.maxCycles ≤ wide.maxCycles → narrow.maxSteps ≤ wide.maxSteps →
      let report := findCycles narrow edges
      let exhausted := (CallGraph.ofEdges edges []).ExhaustsBudget narrow
      (∀ c ∈ report.cycles, c ∈ (findCycles wide edges).cycles) ∧
      (report.truncated = false → findCycles wide edges = report) ∧
      report.cycles.length ≤ narrow.maxCycles ∧
      (¬ exhausted → (report.truncated = true ↔
        (narrow.maxCycles : ℕ∞) < (cyclesWithin narrow edges).encard)) ∧
      (exhausted → report.truncated = true) := by
  intro narrow wide hcycles hsteps report exhausted
  have hwidens : narrow.Widens wide := ⟨rfl, rfl, hcycles, hsteps⟩
  have hmax : 1 ≤ narrow.maxLength := CycleLimits.one_le_maxLength _ _ _ _
  refine ⟨fun c hc => hwidens.mem_findCycles hc, hwidens.findCycles_eq, ?_, fun hleft => ?_, ?_⟩
  · rw [length_findCycles]
    exact ((CallGraph.ofEdges edges []).tally_searchCycles narrow).count_le
  · rw [encard_cyclesWithin hmax, Nat.cast_lt]
    exact CallGraph.truncated_iff_of_not_exhaustsBudget hleft
  · exact CallGraph.truncated_of_exhaustsBudget

/-- Two cycles share a function. A search that may list one of them has calls left and is truncated,
and a search that may list two still lists the first one. -/
theorem raised_bounds_add_cycles_shared :
    let edges : List (CallEdge Rat) :=
      [{ caller := "a", callee := "b" }, { caller := "b", callee := "a" },
        { caller := "b", callee := "c" }, { caller := "c", callee := "b" }]
    let narrow := CycleLimits.ofBounds 1 20 9 2
    let wide := CycleLimits.ofBounds 2 20 10 2
    narrow.maxCycles ≤ wide.maxCycles ∧ narrow.maxSteps ≤ wide.maxSteps ∧
      ¬ (CallGraph.ofEdges edges []).ExhaustsBudget narrow ∧
      (findCycles narrow edges).cycles = [["a", "b"]] ∧
      (findCycles narrow edges).truncated = true ∧
      ["a", "b"] ∈ (findCycles wide edges).cycles ∧ 1 < (cyclesWithin narrow edges).encard := by
  intro edges narrow wide
  have hleft : (CallGraph.ofEdges edges []).budgetLeft narrow (narrow.maxSteps + 1) = 3 := by cbv
  have hexhausted : ¬ (CallGraph.ofEdges edges []).ExhaustsBudget narrow := by
    rw [CallGraph.ExhaustsBudget, hleft]
    decide
  have hcycles : (findCycles narrow edges).cycles = [["a", "b"]] := by cbv
  have htruncated : (findCycles narrow edges).truncated = true := by cbv
  have hmax : narrow.maxCycles ≤ wide.maxCycles := by decide
  have hsteps : narrow.maxSteps ≤ wide.maxSteps := by decide
  obtain ⟨hmem, -, -, hiff, -⟩ := raised_bounds_add_cycles 1 2 20 9 10 2 edges hmax hsteps
  have hkept : ["a", "b"] ∈ (findCycles narrow edges).cycles :=
    hcycles ▸ List.mem_singleton_self _
  exact ⟨hmax, hsteps, hexhausted, hcycles, htruncated, hmem _ hkept,
    (hiff hexhausted).mp htruncated⟩

end Deadwood
