import Deadwood.Cycle.Search
import Mathlib.Data.List.Basic

/-!
# The events of a search for cycles

Following a call either closes a cycle, or finds that the path may not grow, or does nothing but
use up the budget. These events, in the order in which a search without bounds on their number would
meet them, are the trace of a search. A search replays its trace until the budget is spent or one
cycle too many is found.

## Main definitions

* `CallEvent`, `callEvents`: what following a call leads to, without an explicit stack.
* `replay`: play some events with a budget.
* `CallGraph.trace`: the events of a whole search.
* `Tally`: what a search knows after some events.

## Main results

* `followCalls_eq`: the loop over the stack replays the events of the stack.
* `CallGraph.tally_searchCycles`: what a search knows after its trace.
* `CallGraph.full_of_truncated_searchCycles`: what truncates a search.
-/

namespace Deadwood

/-- What following one call amounts to. -/
inductive CallEvent where
  /-- The call leads back to the start of the path. -/
  | closed (cycle : List Nat)
  /-- The path would grow but for its length. -/
  | tooLong
  /-- The call is skipped, or the path grows. -/
  | passed

/-- Is a call not followed any further, unless it leads back to the start? -/
def isSkipped (inside : Nat → Bool) (start : Nat) (path : List Nat) (w : Nat) : Bool :=
  w < start || !inside w || path.any (· = w)

/-- The events of a call from the last node of a path to `w`, and of all that is followed from there
as long as the path grows by no more than `room` nodes. The path is given last node first. -/
def callEvents (g : CallGraph) (inside : Nat → Bool) (start room : Nat) (path : List Nat)
    (w : Nat) : List CallEvent :=
  if w = start then [.closed path.reverse]
  else if isSkipped inside start path w then [.passed]
  else match room with
    | 0 => [.tooLong]
    | room + 1 =>
      .passed :: (g.succ w).flatMap fun x => callEvents g inside start room (w :: path) x

/-- The events of the calls that are still to be followed from the nodes of a path. -/
def stackEvents (g : CallGraph) (limits : CycleLimits) (inside : Nat → Bool) (start : Nat) :
    List PathStep → List CallEvent
  | [] => []
  | p :: ps =>
    p.rest.flatMap (callEvents g inside start (limits.maxLength - (ps.length + 1))
      (p.node :: ps.map (·.node))) ++ stackEvents g limits inside start ps

namespace CycleSearch

/-- Take note of an event. -/
def record (limits : CycleLimits) (s : CycleSearch) : CallEvent → CycleSearch
  | .closed c => s.report limits c
  | .tooLong => { s with lengthLimited := true }
  | .passed => s

end CycleSearch

/-- Play some events, each for one unit of the budget, until the search is truncated. -/
def replay (limits : CycleLimits) : List CallEvent → CycleSearch × Nat → CycleSearch × Nat
  | [], st => st
  | e :: es, (s, budget) =>
    if s.truncated then (s, budget)
    else match budget with
      | 0 => ({ s with truncated := true }, 0)
      | budget + 1 => replay limits es (s.record limits e, budget)

section Replay

variable {limits : CycleLimits} {s : CycleSearch} {budget : Nat} {e : CallEvent}
  {es fs : List CallEvent}

theorem replay_of_truncated (h : s.truncated = true) :
    replay limits es (s, budget) = (s, budget) := by
  cases es with
  | nil => rfl
  | cons e es => simp [replay, h]

theorem replay_zero (h : s.truncated = false) :
    replay limits (e :: es) (s, 0) = ({ s with truncated := true }, 0) := by
  simp [replay, h]

theorem replay_succ (h : s.truncated = false) :
    replay limits (e :: es) (s, budget + 1) = replay limits es (s.record limits e, budget) := by
  simp [replay, h]

@[simp] theorem replay_append (st : CycleSearch × Nat) :
    replay limits (es ++ fs) st = replay limits fs (replay limits es st) := by
  induction es generalizing st with
  | nil => rfl
  | cons e es ih =>
    obtain ⟨s, budget⟩ := st
    cases h : s.truncated with
    | true => simp only [replay_of_truncated h]
    | false =>
      cases budget with
      | zero => rw [List.cons_append, replay_zero h, replay_zero h, replay_of_truncated rfl]
      | succ budget => rw [List.cons_append, replay_succ h, replay_succ h, ih]

end Replay

/-! ## The stack -/

section Stack

variable {g : CallGraph} {limits : CycleLimits} {inside : Nat → Bool} {start budget : Nat}
  {s : CycleSearch}

section CallEvents

variable {room w : Nat} {path : List Nat}

@[simp] theorem callEvents_start (room : Nat) (path : List Nat) :
    callEvents g inside start room path start = [.closed path.reverse] := by
  unfold callEvents
  rw [if_pos rfl]

theorem callEvents_of_isSkipped (hw : w ≠ start) (h : isSkipped inside start path w = true) :
    callEvents g inside start room path w = [.passed] := by
  unfold callEvents
  rw [if_neg hw, if_pos h]

theorem callEvents_zero (hw : w ≠ start) (h : isSkipped inside start path w = false) :
    callEvents g inside start 0 path w = [.tooLong] := by
  rw [callEvents, if_neg hw, h]
  rfl

theorem callEvents_succ (hw : w ≠ start) (h : isSkipped inside start path w = false) :
    callEvents g inside start (room + 1) path w =
      .passed :: (g.succ w).flatMap (callEvents g inside start room (w :: path)) := by
  rw [callEvents, if_neg hw, h]
  rfl

theorem callEvents_ne_nil (room : Nat) (path : List Nat) (w : Nat) :
    callEvents g inside start room path w ≠ [] := by
  fun_induction callEvents g inside start room path w <;> simp

end CallEvents

theorem dropFinished_cases (path : List PathStep) :
    dropFinished path = [] ∨ ∃ v w ws ps, dropFinished path = ⟨v, w :: ws⟩ :: ps := by
  induction path with
  | nil => exact .inl rfl
  | cons p ps ih =>
    obtain ⟨v, rest⟩ := p
    cases rest with
    | nil => exact ih
    | cons w ws => exact .inr ⟨v, w, ws, ps, rfl⟩

@[simp] theorem stackEvents_dropFinished (path : List PathStep) :
    stackEvents g limits inside start (dropFinished path) =
      stackEvents g limits inside start path := by
  induction path with
  | nil => rfl
  | cons p ps ih =>
    obtain ⟨v, rest⟩ := p
    cases rest with
    | nil => exact ih
    | cons w ws => rfl

theorem stackEvents_cons_cons (v w : Nat) (ws : List Nat) (ps : List PathStep) :
    stackEvents g limits inside start (⟨v, w :: ws⟩ :: ps) =
      callEvents g inside start (limits.maxLength - (ps.length + 1)) (v :: ps.map (·.node)) w ++
        stackEvents g limits inside start (⟨v, ws⟩ :: ps) := by
  simp [stackEvents]

theorem followCalls_eq (path : List PathStep) (hs : s.truncated = false) :
    followCalls g limits inside start budget path s =
      replay limits (stackEvents g limits inside start path) (s, budget) := by
  -- each call that is followed is one event and uses up one unit of the budget
  induction budget generalizing path s with
  | zero =>
    rw [followCalls, ← stackEvents_dropFinished]
    rcases dropFinished_cases path with h | ⟨v, w, ws, ps, h⟩
    · rw [h, hs]
      cases s
      cases hs
      rfl
    · obtain ⟨e, es, hevents⟩ := List.exists_cons_of_ne_nil (@callEvents_ne_nil g inside start
        (limits.maxLength - (ps.length + 1)) (v :: ps.map (·.node)) w)
      rw [h, stackEvents_cons_cons, hevents, List.cons_append, replay_zero hs]
      simp
  | succ budget ih =>
    rw [followCalls, ← stackEvents_dropFinished]
    rcases dropFinished_cases path with h | ⟨v, w, ws, ps, h⟩
    · rw [h]
      rfl
    have hskip : (w < start || !inside w ||
        (⟨v, ws⟩ :: ps : List PathStep).any (·.node = w)) =
          isSkipped inside start (v :: ps.map (·.node)) w := by
      simp [isSkipped, Function.comp_def]
    rw [h, stackEvents_cons_cons]
    dsimp only
    rw [hskip]
    by_cases hstart : w = start
    · subst hstart
      rw [if_pos rfl, callEvents_start, List.singleton_append, replay_succ hs]
      have hrecord : s.report limits ((⟨v, ws⟩ :: ps : List PathStep).map (·.node)).reverse =
          s.record limits (.closed (v :: ps.map (·.node)).reverse) := rfl
      rw [hrecord]
      cases htruncated : (s.record limits (.closed (v :: ps.map (·.node)).reverse)).truncated with
      | true => exact (replay_of_truncated htruncated).symm
      | false => exact ih _ htruncated
    · rw [if_neg hstart]
      cases hskipped : isSkipped inside start (v :: ps.map (·.node)) w with
      | true =>
        rw [callEvents_of_isSkipped hstart hskipped, List.singleton_append, replay_succ hs]
        exact ih _ hs
      | false =>
        rw [if_neg Bool.false_ne_true]
        split
        · rename_i hfull
          have hroom : limits.maxLength - (ps.length + 1) = 0 := Nat.sub_eq_zero_of_le hfull
          rw [hroom, callEvents_zero hstart hskipped, List.singleton_append, replay_succ hs]
          exact ih _ hs
        · rename_i hfull
          have hroom : limits.maxLength - (ps.length + 1) =
              limits.maxLength - (ps.length + 1 + 1) + 1 := by
            rw [List.length_cons] at hfull
            omega
          rw [hroom, callEvents_succ hstart hskipped, List.cons_append, replay_succ hs]
          exact ih _ hs

end Stack

/-! ## The whole search -/

/-- The events of all paths from a node. -/
def startEvents (g : CallGraph) (limits : CycleLimits) (inside : Nat → Bool) (start : Nat) :
    List CallEvent :=
  (g.succ start).flatMap (callEvents g inside start (limits.maxLength - 1) [start])

namespace CallGraph

/-- Is a node one of some members? -/
def isMarked (g : CallGraph) (members : List Nat) (i : Nat) : Bool :=
  i < g.size && members.contains i

/-- The events of a search through a graph. -/
def trace (g : CallGraph) (limits : CycleLimits) : List CallEvent :=
  g.components.flatMap fun members => members.flatMap (startEvents g limits (g.isMarked members))

variable {g : CallGraph} {limits : CycleLimits}

theorem searchStarts_eq (inside : Nat → Bool) (starts : List Nat) (st : CycleSearch × Nat) :
    searchStarts g limits inside starts st =
      replay limits (starts.flatMap (startEvents g limits inside)) st := by
  induction starts generalizing st with
  | nil => rfl
  | cons start starts ih =>
    obtain ⟨s, budget⟩ := st
    unfold searchStarts
    cases hs : s.truncated with
    | true => exact (replay_of_truncated hs).symm
    | false =>
      have hstart : stackEvents g limits inside start [⟨start, g.succ start⟩] =
          startEvents g limits inside start := List.append_nil _
      rw [if_neg Bool.false_ne_true, followCalls_eq _ hs, hstart, ih, ← replay_append,
        List.flatMap_cons]

theorem searchComponent_eq (members : List Nat) (st : CycleSearch × Nat) :
    searchComponent g limits members st =
      replay limits (members.flatMap (startEvents g limits (g.isMarked members))) st := by
  have hmarks : (fun i => (((g.nodes.map members.contains).toArray)[i]?).getD false) =
      g.isMarked members := by
    funext i
    by_cases hi : i < g.size
    · simp [isMarked, nodes, hi]
    · simp [isMarked, nodes, hi]
  rw [searchComponent, hmarks, searchStarts_eq]

theorem foldl_searchComponent (components : List (List Nat)) (st : CycleSearch × Nat) :
    components.foldl (fun st members => searchComponent g limits members st) st =
      replay limits (components.flatMap fun members =>
        members.flatMap (startEvents g limits (g.isMarked members))) st := by
  induction components generalizing st with
  | nil => rfl
  | cons members components ih =>
    rw [List.foldl_cons, ih, searchComponent_eq, ← replay_append, List.flatMap_cons]

/-- A search replays its trace after it has reported the functions that call themselves. -/
theorem searchCycles_eq (g : CallGraph) (limits : CycleLimits) :
    g.searchCycles limits = (replay limits (g.trace limits)
      (g.loops.foldl (fun s i => s.report limits [i]) {}, limits.maxSteps)).1 := by
  rw [searchCycles, foldl_searchComponent]
  rfl

end CallGraph

/-! ## What is found -/

/-- The cycle that an event closes. -/
def CallEvent.cycle? : CallEvent → Option (List Nat)
  | .closed c => some c
  | _ => none

/-- The cycles that some events close. -/
def closedCycles (events : List CallEvent) : List (List Nat) :=
  events.filterMap CallEvent.cycle?

@[simp, grind =] theorem mem_closedCycles {events : List CallEvent} {c : List Nat} :
    c ∈ closedCycles events ↔ .closed c ∈ events := by
  rw [closedCycles, List.mem_filterMap]
  constructor
  · rintro ⟨e, he, hc⟩
    cases e with
    | closed d =>
      obtain rfl := Option.some.inj hc
      exact he
    | tooLong => cases hc
    | passed => cases hc
  · exact fun h => ⟨_, h, rfl⟩

/-- The cycles among some events that are large enough to be reported. -/
def reportedCycles (limits : CycleLimits) (events : List CallEvent) : List (List Nat) :=
  (closedCycles events).filter (limits.minSize ≤ ·.length)

@[simp] theorem reportedCycles_append (limits : CycleLimits) (es fs : List CallEvent) :
    reportedCycles limits (es ++ fs) = reportedCycles limits es ++ reportedCycles limits fs := by
  simp [reportedCycles, closedCycles]

/-- What a search knows after some events: it may have missed some only if it is truncated. -/
structure Tally (limits : CycleLimits) (events : List CallEvent) (s : CycleSearch) : Prop where
  sublist : s.found.reverse.Sublist (reportedCycles limits events)
  count_eq : s.count = s.found.length
  count_le : s.count ≤ limits.maxCycles
  complete : s.truncated = false → s.found.reverse = reportedCycles limits events
  limited : s.lengthLimited = true → .tooLong ∈ events
  limited_complete : s.truncated = false → .tooLong ∈ events → s.lengthLimited = true

namespace Tally

variable {limits : CycleLimits} {events : List CallEvent} {s : CycleSearch}

theorem report (h : Tally limits events s) (c : List Nat) :
    Tally limits (events ++ [.closed c]) (s.report limits c) := by
  have hlast : reportedCycles limits [.closed c] =
      if limits.minSize ≤ c.length then [c] else [] := by
    simp [reportedCycles, closedCycles, CallEvent.cycle?, List.filter_cons]
  have hlimited : s.lengthLimited = true → .tooLong ∈ events ++ [.closed c] :=
    fun hs => List.mem_append_left _ (h.limited hs)
  have hlimited_complete : s.truncated = false → .tooLong ∈ events ++ [.closed c] →
      s.lengthLimited = true := fun hs hlong => h.limited_complete hs (by simpa using hlong)
  unfold CycleSearch.report
  split
  · rename_i hsmall
    rw [if_neg (Nat.not_le.mpr hsmall)] at hlast
    refine ⟨?_, h.count_eq, h.count_le, ?_, hlimited, hlimited_complete⟩
    · rw [reportedCycles_append, hlast, List.append_nil]
      exact h.sublist
    · rw [reportedCycles_append, hlast, List.append_nil]
      exact h.complete
  · rename_i hsmall
    rw [if_pos (Nat.not_lt.mp hsmall)] at hlast
    split
    · refine ⟨?_, h.count_eq, h.count_le, nofun, hlimited, nofun⟩
      rw [reportedCycles_append]
      exact h.sublist.trans (List.sublist_append_left _ _)
    · rename_i hfull
      refine ⟨?_, ?_, Nat.lt_of_not_le hfull, fun hs => ?_, hlimited, hlimited_complete⟩
      · rw [reportedCycles_append, hlast, List.reverse_cons]
        exact h.sublist.append_right [c]
      · rw [List.length_cons, ← h.count_eq]
      · rw [reportedCycles_append, hlast, List.reverse_cons, h.complete hs]

theorem record (h : Tally limits events s) (e : CallEvent) :
    Tally limits (events ++ [e]) (s.record limits e) := by
  cases e with
  | closed c => exact h.report c
  | tooLong =>
    have hsame : reportedCycles limits (events ++ [.tooLong]) = reportedCycles limits events := by
      simp [reportedCycles, closedCycles, CallEvent.cycle?]
    exact ⟨hsame ▸ h.sublist, h.count_eq, h.count_le, fun hs => hsame ▸ h.complete hs,
      fun _ => List.mem_concat_self, fun _ _ => rfl⟩
  | passed =>
    have hsame : reportedCycles limits (events ++ [.passed]) = reportedCycles limits events := by
      simp [reportedCycles, closedCycles, CallEvent.cycle?]
    exact ⟨hsame ▸ h.sublist, h.count_eq, h.count_le, fun hs => hsame ▸ h.complete hs,
      fun hs => List.mem_append_left _ (h.limited hs),
      fun hs hlong => h.limited_complete hs (by simpa using hlong)⟩

/-- A truncated search may have missed any further events. -/
theorem append_of_truncated (h : Tally limits events s) (hs : s.truncated = true)
    (es : List CallEvent) : Tally limits (events ++ es) s := by
  have hcut : s.truncated ≠ false := by simp [hs]
  refine ⟨?_, h.count_eq, h.count_le, fun hs' => absurd hs' hcut,
    fun hlimited => List.mem_append_left es (h.limited hlimited), fun hs' => absurd hs' hcut⟩
  rw [reportedCycles_append]
  exact h.sublist.trans (List.sublist_append_left _ _)

/-- A run of events. -/
theorem replay (h : Tally limits events s) (es : List CallEvent) (budget : Nat) :
    Tally limits (events ++ es) (replay limits es (s, budget)).1 := by
  induction es generalizing events s budget with
  | nil => exact (List.append_nil events).symm ▸ h
  | cons e es ih =>
    cases hs : s.truncated with
    | true =>
      rw [replay_of_truncated hs]
      exact h.append_of_truncated hs _
    | false =>
      cases budget with
      | zero =>
        rw [replay_zero hs]
        have hcut : Tally limits events { s with truncated := true } :=
          ⟨h.sublist, h.count_eq, h.count_le, nofun, h.limited, nofun⟩
        exact hcut.append_of_truncated rfl _
      | succ budget =>
        rw [replay_succ hs, List.append_cons]
        exact ih (h.record e) budget

theorem foldl_report (h : Tally limits events s) (loops : List Nat) :
    Tally limits (events ++ loops.map fun i => .closed [i])
      (loops.foldl (fun s i => s.report limits [i]) s) := by
  induction loops generalizing events s with
  | nil => simpa using h
  | cons i loops ih =>
    rw [List.map_cons, List.append_cons, List.foldl_cons]
    exact ih (h.report [i])

end Tally

/-- What a search through a graph knows in the end. -/
theorem CallGraph.tally_searchCycles (g : CallGraph) (limits : CycleLimits) :
    Tally limits ((g.loops.map fun i => .closed [i]) ++ g.trace limits)
      (g.searchCycles limits) := by
  have hempty : Tally limits [] {} := ⟨.slnil, rfl, Nat.zero_le _, fun _ => rfl, nofun, nofun⟩
  rw [searchCycles_eq]
  exact (hempty.foldl_report g.loops).replay (g.trace limits) limits.maxSteps

/-! ## What truncates a search -/

section Truncated

variable {limits : CycleLimits} {s : CycleSearch}

theorem CycleSearch.full_of_truncated_report (c : List Nat)
    (hs : s.truncated = true → limits.maxCycles ≤ s.count)
    (h : (s.report limits c).truncated = true) : limits.maxCycles ≤ (s.report limits c).count := by
  unfold CycleSearch.report at h ⊢
  split
  · rename_i hsmall
    rw [if_pos hsmall] at h
    exact hs h
  · rename_i hsmall
    rw [if_neg hsmall] at h
    split
    · assumption
    · rename_i hfull
      rw [if_neg hfull] at h
      exact Nat.le_succ_of_le (hs h)

/-- A search that is truncated has found all the cycles it may keep, or more events than its budget
lay ahead of it. -/
theorem full_of_truncated_replay (es : List CallEvent) (budget : Nat)
    (hs : s.truncated = true → limits.maxCycles ≤ s.count)
    (h : (replay limits es (s, budget)).1.truncated = true) :
    limits.maxCycles ≤ (replay limits es (s, budget)).1.count ∨ budget < es.length := by
  induction es generalizing s budget with
  | nil => exact .inl (hs h)
  | cons e es ih =>
    cases htruncated : s.truncated with
    | true =>
      rw [replay_of_truncated htruncated]
      exact .inl (hs htruncated)
    | false =>
      cases budget with
      | zero => exact .inr (Nat.zero_lt_succ _)
      | succ budget =>
        rw [replay_succ htruncated] at h ⊢
        have hrecord : (s.record limits e).truncated = true →
            limits.maxCycles ≤ (s.record limits e).count := by
          cases e with
          | closed c => exact CycleSearch.full_of_truncated_report c hs
          | tooLong => exact hs
          | passed => exact hs
        exact (ih budget hrecord h).imp_right Nat.succ_lt_succ

theorem CallGraph.full_of_truncated_searchCycles (g : CallGraph) (limits : CycleLimits)
    (h : (g.searchCycles limits).truncated = true) :
    limits.maxCycles ≤ (g.searchCycles limits).count ∨
      limits.maxSteps < (g.trace limits).length := by
  rw [searchCycles_eq] at h ⊢
  refine full_of_truncated_replay _ _ ?_ h
  refine List.foldlRecOn
    (motive := fun s : CycleSearch => s.truncated = true → limits.maxCycles ≤ s.count)
    g.loops _ ?_ fun s hs i _ => CycleSearch.full_of_truncated_report [i] hs
  nofun

end Truncated

end Deadwood
