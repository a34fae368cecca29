import Deadwood.Proofs.Cycle.Simple
import Deadwood.Proofs.Cycle.Trace
import Deadwood.Proofs.Graph.Component
import Mathlib.Data.List.Nodup

/-!
# The cycles of a trace

Every simple cycle is read from its smallest node on. The paths from that node through larger nodes
of its component run along the whole cycle, so the trace of a search closes each cycle that is short
enough, exactly once, and gives up a path along each cycle that is too long.

## Main definitions

* `IsReturn`: a way back to the start of a path.
* `CallGraph.CallsNode`: the calls between the nodes of a graph.

## Main results

* `closed_mem_callEvents`: a call closes a cycle for each way back that is short enough.
* `CallGraph.Represents.closed_mem_events`: the cycles that a search closes.
* `CallGraph.Represents.tooLong_mem_trace`: a cycle that is too long leaves its mark.
* `CallGraph.Represents.nodup_closedCycles_events`: no cycle is closed twice.
-/

namespace Deadwood

variable {g : CallGraph} {inside : Nat → Bool} {start room v w : Nat} {path c l : List Nat}

/-! ## Ways back -/

/-- A way from a node back to the start, through larger nodes inside that are not on the path. The
list holds the nodes before the start. -/
inductive IsReturn (g : CallGraph) (inside : Nat → Bool) (start : Nat) :
    List Nat → Nat → List Nat → Prop
  | home (path : List Nat) : IsReturn g inside start path start []
  | step {path l : List Nat} {w x : Nat} (larger : start < w) (isInside : inside w = true)
      (fresh : w ∉ path) (calls : x ∈ g.succ w) (rest : IsReturn g inside start (w :: path) x l) :
      IsReturn g inside start path w (w :: l)

@[simp] theorem isReturn_nil : IsReturn g inside start path w [] ↔ w = start := by
  constructor
  · rintro ⟨⟩
    rfl
  · rintro rfl
    exact .home path

@[grind =] theorem isReturn_cons : IsReturn g inside start path w (v :: l) ↔
    v = w ∧ start < w ∧ inside w = true ∧ w ∉ path ∧
      ∃ x ∈ g.succ w, IsReturn g inside start (w :: path) x l := by
  constructor
  · rintro (_ | ⟨hlarger, hinside, hfresh, hcalls, hrest⟩)
    exact ⟨rfl, hlarger, hinside, hfresh, _, hcalls, hrest⟩
  · rintro ⟨rfl, hlarger, hinside, hfresh, x, hcalls, hrest⟩
    exact .step hlarger hinside hfresh hcalls hrest

/-- A way back starts at one node only. -/
theorem IsReturn.unique (hv : IsReturn g inside start path v l)
    (hw : IsReturn g inside start path w l) : v = w := by
  cases l with
  | nil => rw [isReturn_nil.mp hv, isReturn_nil.mp hw]
  | cons x l => rw [← (isReturn_cons.mp hv).1, ← (isReturn_cons.mp hw).1]

theorem isSkipped_eq_false (hw : w ≠ start) : isSkipped inside start path w = false ↔
    start < w ∧ inside w = true ∧ w ∉ path := by
  have hlt : start ≤ w ↔ start < w := ⟨fun h => Nat.lt_of_le_of_ne h hw.symm, Nat.le_of_lt⟩
  simp only [isSkipped, Bool.or_eq_false_iff, decide_eq_false_iff_not, Nat.not_lt,
    Bool.not_eq_false', List.any_eq_false, decide_eq_true_eq, hlt, and_assoc]
  refine and_congr .rfl (and_congr .rfl ⟨fun h hmem => h w hmem rfl, ?_⟩)
  rintro h x hx rfl
  exact h hx

/-- The ways back from the calls of a node are walks. -/
theorem exists_isReturn_iff : (∃ w ∈ g.succ v, IsReturn g inside start path w l) ↔
    (v :: l ++ [start]).IsChain (fun a b => b ∈ g.succ a) ∧ l.Nodup ∧
      ∀ x ∈ l, start < x ∧ inside x = true ∧ x ∉ path := by
  induction l generalizing v path with
  | nil => simp
  | cons w l ih =>
    simp only [isReturn_cons, ih, List.cons_append, List.isChain_cons_cons, List.nodup_cons,
      List.mem_cons, not_or]
    grind

theorem IsReturn.not_isSkipped (hw : w ≠ start) (h : IsReturn g inside start path w l) :
    isSkipped inside start path w = false := by
  cases l with
  | nil => exact absurd (isReturn_nil.mp h) hw
  | cons x l =>
    obtain ⟨-, hlarger, hinside, hfresh, -⟩ := isReturn_cons.mp h
    exact (isSkipped_eq_false hw).mpr ⟨hlarger, hinside, hfresh⟩

/-- A call closes a cycle for each way back that is short enough. -/
theorem closed_mem_callEvents : .closed c ∈ callEvents g inside start room path w ↔
    ∃ l, IsReturn g inside start path w l ∧ l.length ≤ room ∧ c = path.reverse ++ l := by
  fun_induction callEvents g inside start room path w with
  | case1 room path =>
    constructor
    · intro h
      refine ⟨[], .home path, Nat.zero_le _, ?_⟩
      simpa using h
    · rintro ⟨l, hl, -, rfl⟩
      cases l with
      | nil => simp
      | cons x l => exact absurd (isReturn_cons.mp hl).2.1 (Nat.lt_irrefl start)
  | case2 room path w hw hskip =>
    refine iff_of_false (by simp) ?_
    rintro ⟨l, hl, -⟩
    exact Bool.false_ne_true ((hl.not_isSkipped hw).symm.trans hskip)
  | case3 path w hw hskip =>
    refine iff_of_false (by simp) ?_
    rintro ⟨l, hl, hlen, -⟩
    rw [List.length_eq_zero_iff.mp (Nat.le_zero.mp hlen), isReturn_nil] at hl
    exact hw hl
  | case4 path w hw hskip room ih =>
    obtain ⟨hlarger, hinside, hfresh⟩ := (isSkipped_eq_false hw).mp (Bool.eq_false_iff.mpr hskip)
    simp only [List.mem_cons, reduceCtorEq, false_or, List.mem_flatMap, ih]
    constructor
    · rintro ⟨x, hx, l, hl, hlen, rfl⟩
      exact ⟨w :: l, .step hlarger hinside hfresh hx hl, Nat.succ_le_succ hlen, by simp⟩
    · rintro ⟨l, hl, hlen, rfl⟩
      cases l with
      | nil => exact absurd (isReturn_nil.mp hl) hw
      | cons v l =>
        obtain ⟨rfl, -, -, -, x, hx, hl⟩ := isReturn_cons.mp hl
        exact ⟨x, hx, l, hl, Nat.le_of_succ_le_succ hlen, by simp⟩

/-- A way back that is too long leaves its mark. -/
theorem tooLong_mem_callEvents (hl : IsReturn g inside start path w l) (hlen : room < l.length) :
    .tooLong ∈ callEvents g inside start room path w := by
  fun_induction callEvents g inside start room path w generalizing l with
  | case1 room path =>
    cases l with
    | nil => simp at hlen
    | cons x l => exact absurd (isReturn_cons.mp hl).2.1 (Nat.lt_irrefl start)
  | case2 room path w hw hskip =>
    exact absurd ((hl.not_isSkipped hw).symm.trans hskip) Bool.false_ne_true
  | case3 path w hw hskip => simp
  | case4 path w hw hskip room ih =>
    cases l with
    | nil => simp at hlen
    | cons v l =>
      obtain ⟨-, -, -, -, x, hx, hl⟩ := isReturn_cons.mp hl
      refine List.mem_cons_of_mem _ (List.mem_flatMap.mpr ⟨x, hx, ih x hl ?_⟩)
      exact Nat.lt_of_succ_lt_succ hlen

/-- A path that was given up is a walk of one node more than there is room for. -/
theorem exists_walk_of_tooLong_mem (h : .tooLong ∈ callEvents g inside start room path w) :
    ∃ l, l.length = room ∧ (w :: l).IsChain (fun a b => b ∈ g.succ a) ∧ (w :: l).Nodup ∧
      ∀ x ∈ w :: l, x ∉ path := by
  fun_induction callEvents g inside start room path w with
  | case1 room path => simp at h
  | case2 room path w hw hskip => simp at h
  | case3 path w hw hskip =>
    obtain ⟨-, -, hfresh⟩ := (isSkipped_eq_false hw).mp (Bool.eq_false_iff.mpr hskip)
    exact ⟨[], rfl, List.isChain_singleton w, List.nodup_singleton w, by simpa using hfresh⟩
  | case4 path w hw hskip room ih =>
    obtain ⟨-, -, hfresh⟩ := (isSkipped_eq_false hw).mp (Bool.eq_false_iff.mpr hskip)
    simp only [List.mem_cons, reduceCtorEq, false_or, List.mem_flatMap] at h
    obtain ⟨x, hx, hlong⟩ := h
    obtain ⟨l, hlen, hchain, hnodup, hnew⟩ := ih x hlong
    refine ⟨x :: l, congrArg Nat.succ hlen, List.isChain_cons_cons.mpr ⟨hx, hchain⟩, ?_, ?_⟩
    · exact List.nodup_cons.mpr ⟨fun hw' => hnew w hw' List.mem_cons_self, hnodup⟩
    · rintro y (_ | ⟨_, hy⟩)
      · exact hfresh
      · exact fun hmem => hnew y hy (List.mem_cons_of_mem w hmem)

/-! ## No cycle is closed twice -/

theorem closedCycles_flatMap {α : Type} (f : α → List CallEvent) (as : List α) :
    closedCycles (as.flatMap f) = as.flatMap fun a => closedCycles (f a) := by
  simp [closedCycles, List.filterMap_flatMap]

theorem nodup_closedCycles_flatMap {ws : List Nat} (hws : ws.Nodup)
    (h : ∀ w ∈ ws, (closedCycles (callEvents g inside start room path w)).Nodup) :
    (closedCycles (ws.flatMap (callEvents g inside start room path))).Nodup := by
  rw [closedCycles_flatMap, List.nodup_flatMap]
  refine ⟨h, hws.imp fun hne c hv hw => hne ?_⟩
  obtain ⟨l, hl, -, rfl⟩ := closed_mem_callEvents.mp (mem_closedCycles.mp hv)
  obtain ⟨l', hl', -, heq⟩ := closed_mem_callEvents.mp (mem_closedCycles.mp hw)
  rw [← List.append_cancel_left heq] at hl'
  exact hl.unique hl'

theorem nodup_closedCycles_callEvents (hsucc : ∀ i, (g.succ i).Nodup) :
    (closedCycles (callEvents g inside start room path w)).Nodup := by
  fun_induction callEvents g inside start room path w with
  | case1 room path => exact List.nodup_singleton _
  | case2 room path w hw hskip => exact List.nodup_nil
  | case3 path w hw hskip => exact List.nodup_nil
  | case4 path w hw hskip room ih => exact nodup_closedCycles_flatMap (hsucc w) fun x _ => ih x

/-! ## Whole searches -/

/-- The ways back to a node are the cycles from there on through larger nodes. -/
theorem exists_isReturn_iff_isSimpleCycle :
    (∃ w ∈ g.succ start, IsReturn g inside start [start] w l) ↔
      IsSimpleCycle (fun a b => b ∈ g.succ a) (start :: l) ∧ StartsLeast (start :: l) ∧
        ∀ x ∈ l, inside x = true := by
  rw [exists_isReturn_iff, isSimpleCycle_cons]
  constructor
  · rintro ⟨hchain, hnodup, hl⟩
    have hnodup' : (start :: l).Nodup :=
      List.nodup_cons.mpr ⟨fun hmem => Nat.lt_irrefl start (hl start hmem).1, hnodup⟩
    exact ⟨⟨hnodup', hchain⟩, (startsLeast_cons hnodup').mpr fun x hx => (hl x hx).1,
      fun x hx => (hl x hx).2.1⟩
  · rintro ⟨⟨hnodup, hchain⟩, hleast, hinside⟩
    rw [startsLeast_cons hnodup] at hleast
    refine ⟨hchain, (List.nodup_cons.mp hnodup).2, fun x hx => ⟨hleast x hx, hinside x hx, ?_⟩⟩
    simpa using Nat.ne_of_gt (hleast x hx)

theorem closed_mem_startEvents {limits : CycleLimits} :
    .closed c ∈ startEvents g limits inside start ↔ ∃ l, c = start :: l ∧
      l.length ≤ limits.maxLength - 1 ∧ IsSimpleCycle (fun a b => b ∈ g.succ a) (start :: l) ∧
        StartsLeast (start :: l) ∧ ∀ x ∈ l, inside x = true := by
  simp only [startEvents, List.mem_flatMap, closed_mem_callEvents,
    ← exists_isReturn_iff_isSimpleCycle, List.reverse_singleton, List.singleton_append]
  constructor
  · rintro ⟨w, hw, l, hl, hlen, rfl⟩
    exact ⟨l, rfl, hlen, w, hw, hl⟩
  · rintro ⟨l, rfl, hlen, w, hw, hl⟩
    exact ⟨w, hw, l, hl, hlen, rfl⟩

namespace CallGraph

variable {R : Type} {edges : List (CallEdge R)} {limits : CycleLimits} {i j : Nat}

/-- A call between two nodes of a graph. -/
def CallsNode (g : CallGraph) (edges : List (CallEdge R)) (i j : Nat) : Prop :=
  i < g.size ∧ j < g.size ∧ Calls edges (g.idAt i) (g.idAt j)

namespace Represents

theorem mem_succ_iff (rep : g.Represents edges) :
    j ∈ g.succ i ↔ g.CallsNode edges i j ∧ j ≠ i := by
  rw [rep.mem_succ, and_comm]
  rfl

theorem mem_loops (rep : g.Represents edges) : i ∈ g.loops ↔ g.CallsNode edges i i := by
  have hloop := rep.hasLoop i
  rw [CallGraph.hasLoop, List.contains_iff_mem] at hloop
  rw [hloop]
  exact ⟨fun h => ⟨h.1, h.1, h.2⟩, fun h => ⟨h.1, h.2.2⟩⟩

/-- Only a cycle of one node needs a function that calls itself. -/
theorem isSimpleCycle_iff (rep : g.Represents edges) (hlen : 2 ≤ c.length) :
    IsSimpleCycle (g.CallsNode edges) c ↔ IsSimpleCycle (fun a b => b ∈ g.succ a) c :=
  ⟨fun h => (h.and_ne hlen).mono fun _ _ => rep.mem_succ_iff.mpr,
    fun h => h.mono fun _ _ hab => (rep.mem_succ_iff.mp hab).1⟩

theorem two_le_length (rep : g.Represents edges)
    (h : IsSimpleCycle (fun a b => b ∈ g.succ a) c) : 2 ≤ c.length := by
  rcases c with _ | ⟨a, _ | ⟨b, l⟩⟩
  · exact absurd rfl h.nonempty
  · exact absurd rfl (rep.mem_succ_iff.mp h.closes).2
  · exact Nat.le_add_left 2 l.length

/-- A cycle lies in the component of its smallest node, so there is a way along it. -/
theorem exists_isReturn (rep : g.Represents edges)
    (h : IsSimpleCycle (fun a b => b ∈ g.succ a) (start :: l)) (hleast : StartsLeast (start :: l)) :
    ∃ members ∈ g.components, start ∈ members ∧
      ∃ w ∈ g.succ start, IsReturn g (g.isMarked members) start [start] w l := by
  have htogether : ∀ x ∈ l, g.Together start x := fun x hx =>
    ⟨h.reflTransGen List.mem_cons_self (List.mem_cons_of_mem start hx),
      h.reflTransGen (List.mem_cons_of_mem start hx) List.mem_cons_self⟩
  have hsize : ∀ x ∈ start :: l, x < g.size := by
    intro x hx
    obtain ⟨y, hy⟩ := h.exists_rel hx
    exact (rep.mem_succ_iff.mp hy).1.1
  obtain ⟨x, hx⟩ : ∃ x, x ∈ l :=
    List.exists_mem_of_length_pos (Nat.le_of_succ_le_succ (rep.two_le_length h))
  have hne : start ≠ x := fun heq => (List.nodup_cons.mp h.nodup).1 (heq ▸ hx)
  obtain ⟨members, hmembers, hstart, hmem⟩ :=
    rep.exists_mem_components (hsize start List.mem_cons_self) (htogether x hx) hne
  refine ⟨members, hmembers, hstart, exists_isReturn_iff_isSimpleCycle.mpr ⟨h, hleast, ?_⟩⟩
  intro y hy
  simp [isMarked, hsize y (List.mem_cons_of_mem start hy), hmem, htogether y hy]

/-- The trace of a search closes the cycles of two or more nodes that are short enough. -/
theorem closed_mem_trace (rep : g.Represents edges) : .closed c ∈ g.trace limits ↔
    IsSimpleCycle (fun a b => b ∈ g.succ a) c ∧ StartsLeast c ∧ c.length ≤ limits.maxLength := by
  simp only [trace, List.mem_flatMap, closed_mem_startEvents]
  constructor
  · rintro ⟨members, -, start, -, l, rfl, hlen, hcycle, hleast, -⟩
    have := rep.two_le_length hcycle
    rw [List.length_cons] at this
    exact ⟨hcycle, hleast, by rw [List.length_cons]; omega⟩
  · rintro ⟨hcycle, hleast, hlen⟩
    cases c with
    | nil => exact absurd rfl hcycle.nonempty
    | cons start l =>
      obtain ⟨members, hmembers, hstart, hreturn⟩ := rep.exists_isReturn hcycle hleast
      rw [exists_isReturn_iff_isSimpleCycle] at hreturn
      exact ⟨members, hmembers, start, hstart, l, rfl, Nat.le_sub_one_of_lt hlen, hreturn⟩

theorem tooLong_mem_trace (rep : g.Represents edges)
    (h : IsSimpleCycle (fun a b => b ∈ g.succ a) c) (hleast : StartsLeast c)
    (hlen : limits.maxLength < c.length) : .tooLong ∈ g.trace limits := by
  cases c with
  | nil => exact absurd rfl h.nonempty
  | cons start l =>
    obtain ⟨members, hmembers, hstart, w, hw, hreturn⟩ := rep.exists_isReturn h hleast
    have htwo := rep.two_le_length h
    rw [List.length_cons] at hlen htwo
    have hlong := tooLong_mem_callEvents hreturn (show limits.maxLength - 1 < l.length by omega)
    exact List.mem_flatMap.mpr ⟨members, hmembers, List.mem_flatMap.mpr ⟨start, hstart,
      List.mem_flatMap.mpr ⟨w, hw, hlong⟩⟩⟩

/-- A path that was given up has one node more than a cycle may have. -/
theorem exists_walk_of_tooLong_mem_trace (rep : g.Represents edges) (hmax : 1 ≤ limits.maxLength)
    (h : .tooLong ∈ g.trace limits) : ∃ p : List Nat, p.IsChain (g.CallsNode edges) ∧ p.Nodup ∧
      (∀ i ∈ p, i < g.size) ∧ p.length = limits.maxLength + 1 := by
  simp only [trace, startEvents, List.mem_flatMap] at h
  obtain ⟨members, -, start, -, w, hw, hlong⟩ := h
  obtain ⟨l, hlen, hchain, hnodup, hnew⟩ := exists_walk_of_tooLong_mem hlong
  have hstart : start ∉ w :: l := fun hmem => hnew start hmem List.mem_cons_self
  have hwalk : (start :: w :: l).IsChain (g.CallsNode edges) :=
    List.IsChain.imp (fun _ _ hab => (rep.mem_succ_iff.mp hab).1)
      (List.isChain_cons_cons.mpr ⟨hw, hchain⟩)
  refine ⟨start :: w :: l, hwalk, List.nodup_cons.mpr ⟨hstart, hnodup⟩, ?_, ?_⟩
  · exact hwalk.induction (· < g.size) _ (fun _ _ hab _ => hab.2.1)
      fun _ => (List.isChain_cons_cons.mp hwalk).1.1
  · rw [List.length_cons, List.length_cons, hlen]
    omega

/-- A search closes exactly the cycles that are short enough. -/
theorem closed_mem_events (rep : g.Represents edges) (hmax : 1 ≤ limits.maxLength) :
    .closed c ∈ (g.loops.map fun i => .closed [i]) ++ g.trace limits ↔
      IsSimpleCycle (g.CallsNode edges) c ∧ StartsLeast c ∧ c.length ≤ limits.maxLength := by
  rw [List.mem_append, rep.closed_mem_trace, List.mem_map]
  constructor
  · rintro (⟨i, hi, heq⟩ | ⟨hcycle, hleast, hlen⟩)
    · obtain rfl : [i] = c := CallEvent.closed.inj heq
      refine ⟨⟨by simp, List.nodup_singleton i, List.isChain_singleton i, ?_⟩, ?_, hmax⟩
      · exact rep.mem_loops.mp hi
      · rintro _ ⟨⟩ b hb
        exact Nat.le_of_eq (List.mem_singleton.mp hb).symm
    · exact ⟨(rep.isSimpleCycle_iff (rep.two_le_length hcycle)).mpr hcycle, hleast, hlen⟩
  · rintro ⟨hcycle, hleast, hlen⟩
    by_cases htwo : 2 ≤ c.length
    · exact .inr ⟨(rep.isSimpleCycle_iff htwo).mp hcycle, hleast, hlen⟩
    · rcases c with _ | ⟨i, _ | ⟨j, l⟩⟩
      · exact absurd rfl hcycle.nonempty
      · exact .inl ⟨i, rep.mem_loops.mpr hcycle.closes, rfl⟩
      · exact absurd (Nat.le_add_left 2 l.length) htwo

theorem nodup_closedCycles_trace (rep : g.Represents edges) :
    (closedCycles (g.trace limits)).Nodup := by
  have hsucc : ∀ i, (g.succ i).Nodup := fun i => (rep.succ_ascending i).imp Nat.ne_of_lt
  have hhead : ∀ inside start, ∀ c ∈ closedCycles (startEvents g limits inside start),
      c.head? = some start := by
    intro inside start c hc
    obtain ⟨l, rfl, -⟩ := closed_mem_startEvents.mp (mem_closedCycles.mp hc)
    rfl
  simp only [trace, closedCycles_flatMap]
  refine List.nodup_flatMap.mpr ⟨fun members hmembers => ?_, ?_⟩
  · have hcomponent := rep.isComponent_of_mem_components hmembers
    refine List.nodup_flatMap.mpr ⟨fun start _ => ?_, ?_⟩
    · exact nodup_closedCycles_flatMap (hsucc start) fun w _ => nodup_closedCycles_callEvents hsucc
    · refine hcomponent.nodup.imp fun hne c hc hc' => hne ?_
      exact Option.some.inj ((hhead _ _ c hc).symm.trans (hhead _ _ c hc'))
  · -- Cycles of two components start at nodes of their own.
    refine rep.lists_classes.disjoint_arranged.imp fun hdisjoint c hc hc' => ?_
    obtain ⟨start, hstart, hc⟩ := List.mem_flatMap.mp hc
    obtain ⟨start', hstart', hc'⟩ := List.mem_flatMap.mp hc'
    have heq := Option.some.inj ((hhead _ _ c hc).symm.trans (hhead _ _ c hc'))
    exact hdisjoint hstart (heq ▸ hstart')

theorem nodup_closedCycles_events (rep : g.Represents edges) :
    (closedCycles ((g.loops.map fun i => .closed [i]) ++ g.trace limits)).Nodup := by
  have hloops : closedCycles (g.loops.map fun i => .closed [i]) = g.loops.map ([·]) := by
    simp [closedCycles, List.filterMap_map, Function.comp_def, CallEvent.cycle?]
  have happend : closedCycles ((g.loops.map fun i => .closed [i]) ++ g.trace limits) =
      g.loops.map ([·]) ++ closedCycles (g.trace limits) := by
    rw [← hloops, closedCycles, List.filterMap_append]
    rfl
  rw [happend, List.nodup_append]
  refine ⟨rep.loops_nodup.map List.singleton_injective, rep.nodup_closedCycles_trace, ?_⟩
  rintro c hloop _ htrace rfl
  obtain ⟨i, -, rfl⟩ := List.mem_map.mp hloop
  have htwo := rep.two_le_length (rep.closed_mem_trace.mp (mem_closedCycles.mp htrace)).1
  simp at htwo

end Represents

end CallGraph

end Deadwood
