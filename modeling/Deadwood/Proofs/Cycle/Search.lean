import Deadwood.Cycle.Overview
import Deadwood.Proofs.Cycle.Enumerate

/-!
# The search for cycles

A search lists simple cycles of the calls, each once and from its smallest id on, in a fixed order
and within its bounds. Unless it says that it was cut off, it lists all of them.

## Main definitions

* `Cycle.Precedes`: the order of the list.

## Main results

* `CallGraph.Represents.exists_nodes`: the cycles of ids are those of the nodes.
* `findCycles_exact`: what a search lists.
-/

namespace Deadwood

variable {R : Type} {edges : List (CallEdge R)}

/-! ## The order of the list -/

namespace Cycle

theorem idsBefore_total (c d : List String) : (idsBefore c d || idsBefore d c) = true := by
  induction c generalizing d with
  | nil => simp [idsBefore]
  | cons a c ih =>
    cases d with
    | nil => simp [idsBefore]
    | cons b d =>
      have hcd := ih d
      unfold idsBefore
      grind

theorem idsBefore_trans {a b c : List String} (hab : idsBefore a b = true)
    (hbc : idsBefore b c = true) : idsBefore a c = true := by
  induction a generalizing b c with
  | nil => simp [idsBefore]
  | cons x a ih =>
    cases b with
    | nil => simp [idsBefore] at hab
    | cons y b =>
      cases c with
      | nil => simp [idsBefore] at hbc
      | cons z c =>
        unfold idsBefore at hab hbc ⊢
        grind

/-- The first ids in which two lists differ order them. -/
theorem lex_of_idsBefore {c d : List String} (h : idsBefore c d = true) (hne : c ≠ d) :
    List.Lex (· < ·) c d := by
  fun_induction idsBefore c d with
  | case1 d =>
    obtain ⟨b, d, rfl⟩ := List.exists_cons_of_ne_nil hne.symm
    exact .nil
  | case2 a c => cases h
  | case3 a c d ih => exact .cons (ih h fun heq => hne (heq ▸ rfl))
  | case4 a c b d hab => exact .rel (of_decide_eq_true h)

theorem before_iff {c d : Cycle} :
    c.before d = true ↔ c.length < d.length ∨ c.length = d.length ∧ idsBefore c d = true := by
  simp [before]

theorem before_total (c d : Cycle) : (c.before d || d.before c) = true := by
  rw [Bool.or_eq_true, before_iff, before_iff]
  rcases Nat.lt_trichotomy c.length d.length with h | h | h
  · exact .inl (.inl h)
  · rcases Bool.or_eq_true_iff.mp (idsBefore_total c d) with hle | hle
    · exact .inl (.inr ⟨h, hle⟩)
    · exact .inr (.inr ⟨h.symm, hle⟩)
  · exact .inr (.inl h)

theorem before_trans (a b c : Cycle) (hab : a.before b = true) (hbc : b.before c = true) :
    a.before c = true := by
  rw [before_iff] at *
  rcases hab with hab | ⟨hab, hle⟩ <;> rcases hbc with hbc | ⟨hbc, hle'⟩
  · exact .inl (hab.trans hbc)
  · exact .inl (hbc ▸ hab)
  · exact .inl (hab ▸ hbc)
  · exact .inr ⟨hab.trans hbc, idsBefore_trans hle hle'⟩

/-- A cycle is listed before another one: it is shorter, or as long and smaller id by id. -/
def Precedes (c d : Cycle) : Prop :=
  c.length < d.length ∨ c.length = d.length ∧ List.Lex (· < ·) c d

theorem precedes_of_before {c d : Cycle} (h : c.before d = true) (hne : c ≠ d) : c.Precedes d :=
  (before_iff.mp h).imp_right fun ⟨hlen, hids⟩ => ⟨hlen, lex_of_idsBefore hids hne⟩

end Cycle

/-! ## Nodes and ids -/

namespace CallGraph.Represents

variable {g : CallGraph} {c d : List Nat} {i j : Nat}

theorem idAt_inj (rep : g.Represents edges) (hi : i < g.size) (hj : j < g.size)
    (h : g.idAt i = g.idAt j) : i = j := by
  have hindex : ∀ k < g.size, g.index? (g.idAt k) = some k :=
    fun k hk => (index?_eq_some rep.ascending).mpr ⟨hk, rfl⟩
  exact Option.some.inj ((hindex i hi).symm.trans (h ▸ hindex j hj))

theorem idAt_le_idAt (rep : g.Represents edges) (hij : i ≤ j) (hj : j < g.size) :
    g.idAt i ≤ g.idAt j := by
  rcases Nat.lt_or_eq_of_le hij with hlt | rfl
  · exact Std.le_of_lt (idAt_lt_idAt rep.ascending hlt hj)
  · exact Std.le_refl _

/-- The ids of some nodes tell these nodes. -/
theorem map_idAt_inj (rep : g.Represents edges) (hc : ∀ i ∈ c, i < g.size)
    (hd : ∀ i ∈ d, i < g.size) (h : c.map g.idAt = d.map g.idAt) : c = d := by
  induction c generalizing d with
  | nil => exact (List.map_eq_nil_iff.mp h.symm).symm
  | cons i c ih =>
    cases d with
    | nil => cases h
    | cons j d =>
      obtain ⟨hij, hrest⟩ := List.cons.inj h
      have hc' := List.forall_mem_cons.mp hc
      have hd' := List.forall_mem_cons.mp hd
      rw [rep.idAt_inj hc'.1 hd'.1 hij, ih hc'.2 hd'.2 hrest]

theorem lt_size_of_mem (h : IsSimpleCycle (g.CallsNode edges) c) (hi : i ∈ c) : i < g.size := by
  obtain ⟨j, hij⟩ := h.exists_rel hi
  exact hij.1

theorem isSimpleCycle_map_idAt (rep : g.Represents edges)
    (h : IsSimpleCycle (g.CallsNode edges) c) : IsSimpleCycle (Calls edges) (c.map g.idAt) :=
  h.map (fun _ hi _ hj => rep.idAt_inj (lt_size_of_mem h hi) (lt_size_of_mem h hj))
    fun _ _ hij => hij.2.2

theorem startsLeast_map_idAt (rep : g.Represents edges)
    (h : IsSimpleCycle (g.CallsNode edges) c) (hleast : StartsLeast c) :
    StartsLeast (c.map g.idAt) := by
  intro a ha b hb
  obtain ⟨j, hj, rfl⟩ := List.mem_map.mp hb
  obtain ⟨i, hi, rfl⟩ : ∃ i ∈ c.head?, g.idAt i = a := by simpa using ha
  exact rep.idAt_le_idAt (hleast i hi j hj) (lt_size_of_mem h hj)

/-- Every cycle of ids is one of nodes, read from the smallest one on. -/
theorem exists_nodes (rep : g.Represents edges) {d : List String}
    (h : IsSimpleCycle (Calls edges) d) :
    ∃ c, IsSimpleCycle (g.CallsNode edges) c ∧ StartsLeast c ∧ c.map g.idAt ~r d := by
  have hnode : ∀ x ∈ d, ∃ i < g.size, g.idAt i = x := by
    intro x hx
    obtain ⟨y, hxy⟩ := h.exists_rel hx
    exact exists_idAt (rep.covers x y hxy).1
  obtain ⟨c, hsize, rfl⟩ : ∃ c : List Nat, (∀ i ∈ c, i < g.size) ∧ c.map g.idAt = d := by
    clear h
    induction d with
    | nil => exact ⟨[], by simp, rfl⟩
    | cons x d ih =>
      obtain ⟨i, hi, rfl⟩ := hnode x List.mem_cons_self
      obtain ⟨c, hc, rfl⟩ := ih fun y hy => hnode y (List.mem_cons_of_mem _ hy)
      exact ⟨i :: c, List.forall_mem_cons.mpr ⟨hi, hc⟩, rfl⟩
  have hcycle : IsSimpleCycle (g.CallsNode edges) c :=
    h.of_map.mono fun i j hij => ⟨hsize i hij.1, hsize j hij.2.1, hij.2.2⟩
  obtain ⟨c', hrotated, hleast⟩ := exists_isRotated_startsLeast hcycle.nonempty
  exact ⟨c', hcycle.of_isRotated hrotated, hleast, hrotated.symm.map g.idAt⟩

/-! ## What is found -/

section Found

variable {limits : CycleLimits}

theorem mem_found (rep : g.Represents edges) (hmax : 1 ≤ limits.maxLength)
    (hc : c ∈ (g.searchCycles limits).found) :
    (IsSimpleCycle (g.CallsNode edges) c ∧ StartsLeast c ∧ c.length ≤ limits.maxLength) ∧
      limits.minSize ≤ c.length := by
  have hreported := (g.tally_searchCycles limits).sublist.subset (List.mem_reverse.mpr hc)
  obtain ⟨hclosed, hmin⟩ := List.mem_filter.mp hreported
  exact ⟨(rep.closed_mem_events hmax).mp (mem_closedCycles.mp hclosed), of_decide_eq_true hmin⟩

theorem mem_found_of_not_truncated (rep : g.Represents edges) (hmax : 1 ≤ limits.maxLength)
    (hs : (g.searchCycles limits).truncated = false) (hc : IsSimpleCycle (g.CallsNode edges) c)
    (hleast : StartsLeast c) (hlen : c.length ≤ limits.maxLength)
    (hmin : limits.minSize ≤ c.length) : c ∈ (g.searchCycles limits).found := by
  rw [← List.mem_reverse, (g.tally_searchCycles limits).complete hs]
  have hclosed := mem_closedCycles.mpr ((rep.closed_mem_events hmax).mpr ⟨hc, hleast, hlen⟩)
  exact List.mem_filter.mpr ⟨hclosed, decide_eq_true hmin⟩

theorem nodup_found (rep : g.Represents edges) : (g.searchCycles limits).found.Nodup := by
  have hclosed : (closedCycles ((g.loops.map fun i => .closed [i]) ++ g.trace limits)).Nodup :=
    rep.nodup_closedCycles_events
  exact List.nodup_reverse.mp ((hclosed.filter _).sublist (g.tally_searchCycles limits).sublist)

/-- A search that is neither truncated nor limited in length has met no cycle that is too long. -/
theorem length_le_of_not_limited (rep : g.Represents edges)
    (hs : (g.searchCycles limits).truncated = false)
    (hlimited : (g.searchCycles limits).lengthLimited = false)
    (hc : IsSimpleCycle (g.CallsNode edges) c) (hleast : StartsLeast c)
    (hmax : 1 ≤ limits.maxLength) :
    c.length ≤ limits.maxLength := by
  refine Nat.le_of_not_lt fun hlong => ?_
  have hcycle := (rep.isSimpleCycle_iff (show 2 ≤ c.length by omega)).mp hc
  have hmem := List.mem_append_right (g.loops.map fun i => .closed [i])
    (rep.tooLong_mem_trace hcycle hleast hlong)
  have htrue := (g.tally_searchCycles limits).limited_complete hs hmem
  exact Bool.false_ne_true (hlimited.symm.trans htrue)

end Found

end CallGraph.Represents

/-! ## What is listed -/

section Listed

variable {limits : CycleLimits} {c : Cycle}

theorem mem_findCycles : c ∈ (findCycles limits edges).cycles ↔
    ∃ p ∈ ((CallGraph.ofEdges edges []).searchCycles limits).found,
      p.map (CallGraph.ofEdges edges []).idAt = c := by
  simp [findCycles]

theorem length_findCycles : (findCycles limits edges).cycles.length =
    ((CallGraph.ofEdges edges []).searchCycles limits).count := by
  rw [((CallGraph.ofEdges edges []).tally_searchCycles limits).count_eq]
  simp [findCycles]

theorem isSimpleCycle_of_mem_findCycles (hmax : 1 ≤ limits.maxLength)
    (hc : c ∈ (findCycles limits edges).cycles) : IsSimpleCycle (Calls edges) c ∧ StartsLeast c ∧
      limits.minSize ≤ c.length ∧ c.length ≤ limits.maxLength := by
  have rep := CallGraph.represents_ofEdges edges []
  obtain ⟨p, hp, rfl⟩ := mem_findCycles.mp hc
  obtain ⟨⟨hcycle, hleast, hlen⟩, hmin⟩ := rep.mem_found hmax hp
  rw [List.length_map]
  exact ⟨rep.isSimpleCycle_map_idAt hcycle, rep.startsLeast_map_idAt hcycle hleast, hmin, hlen⟩

theorem nodup_findCycles (hmax : 1 ≤ limits.maxLength) :
    (findCycles limits edges).cycles.Nodup := by
  have rep := CallGraph.represents_ofEdges edges []
  have hsize : ∀ p ∈ ((CallGraph.ofEdges edges []).searchCycles limits).found.reverse,
      ∀ i ∈ p, i < (CallGraph.ofEdges edges []).size := fun p hp i hi =>
    CallGraph.Represents.lt_size_of_mem (rep.mem_found hmax (List.mem_reverse.mp hp)).1.1 hi
  rw [findCycles, (List.mergeSort_perm _ _).nodup_iff,
    List.nodup_map_iff_inj_on (List.nodup_reverse.mpr rep.nodup_found)]
  exact fun p hp q hq heq => rep.map_idAt_inj (hsize p hp) (hsize q hq) heq

theorem pairwise_findCycles (hmax : 1 ≤ limits.maxLength) :
    (findCycles limits edges).cycles.Pairwise Cycle.Precedes := by
  have hsorted : (findCycles limits edges).cycles.Pairwise fun c d => c.before d = true :=
    List.pairwise_mergeSort Cycle.before_trans Cycle.before_total _
  exact hsorted.imp₂ (fun _ _ h hne => Cycle.precedes_of_before h hne) (nodup_findCycles hmax)

/-- Every cycle within the bounds is listed from its smallest id on, and from no other one. -/
theorem existsUnique_mem_findCycles (hmax : 1 ≤ limits.maxLength)
    (hs : (findCycles limits edges).truncated = false) {d : List String}
    (hd : IsSimpleCycle (Calls edges) d) (hmin : limits.minSize ≤ d.length)
    (hlen : d.length ≤ limits.maxLength) :
    ∃! c, c ∈ (findCycles limits edges).cycles ∧ c ~r d := by
  have rep := CallGraph.represents_ofEdges edges []
  obtain ⟨p, hp, hleast, hrotated⟩ := rep.exists_nodes hd
  have hplen : p.length = d.length := by simpa using hrotated.perm.length_eq
  have hfound := rep.mem_found_of_not_truncated hmax hs hp hleast (hplen ▸ hlen) (hplen ▸ hmin)
  refine ⟨_, ⟨mem_findCycles.mpr ⟨p, hfound, rfl⟩, hrotated⟩, ?_⟩
  rintro c ⟨hc, hcd⟩
  obtain ⟨hcycle, hcleast, -⟩ := isSimpleCycle_of_mem_findCycles hmax hc
  exact hcleast.eq_of_isRotated (rep.startsLeast_map_idAt hp hleast) hcycle.nodup
    (hcd.trans hrotated.symm)

theorem length_le_of_not_limited (hmax : 1 ≤ limits.maxLength)
    (hs : (findCycles limits edges).truncated = false)
    (hlimited : (findCycles limits edges).lengthLimited = false) {d : List String}
    (hd : IsSimpleCycle (Calls edges) d) : d.length ≤ limits.maxLength := by
  have rep := CallGraph.represents_ofEdges edges []
  obtain ⟨p, hp, hleast, hrotated⟩ := rep.exists_nodes hd
  have hplen : p.length = d.length := by simpa using hrotated.perm.length_eq
  exact hplen ▸ rep.length_le_of_not_limited hs hlimited hp hleast hmax

theorem exists_path_of_lengthLimited (hmax : 1 ≤ limits.maxLength)
    (hlimited : (findCycles limits edges).lengthLimited = true) :
    ∃ p : List String, p.IsChain (Calls edges) ∧ p.Nodup ∧ p.length = limits.maxLength + 1 := by
  have rep := CallGraph.represents_ofEdges edges []
  have hmem := ((CallGraph.ofEdges edges []).tally_searchCycles limits).limited hlimited
  have hlong : .tooLong ∈ (CallGraph.ofEdges edges []).trace limits := by simpa using hmem
  obtain ⟨p, hchain, hnodup, hsize, hlen⟩ := rep.exists_walk_of_tooLong_mem_trace hmax hlong
  refine ⟨p.map (CallGraph.ofEdges edges []).idAt, ?_, ?_, by rw [List.length_map, hlen]⟩
  · exact (List.isChain_map _).mpr (hchain.imp fun _ _ hij => hij.2.2)
  · rw [List.nodup_map_iff_inj_on hnodup]
    exact fun i hi j hj => rep.idAt_inj (hsize i hi) (hsize j hj)

end Listed

theorem CycleLimits.one_le_maxLength (maxCycles maxLength maxSteps minSize : Int) :
    1 ≤ (ofBounds maxCycles maxLength maxSteps minSize).maxLength := by
  simp only [ofBounds]
  split <;> omega

/-- A search lists simple cycles of the internal calls, within its bounds, each from its smallest id
on, without repeats and in order. A search that is not truncated lists every cycle within its bounds
exactly once, up to its first element, and says whether there are longer ones. A search is truncated
only if it lists as many cycles as it may or has more calls to follow than it may, and it says that
paths were too long only if there is such a path. -/
theorem findCycles_exact (maxCycles maxLength maxSteps minSize : Int)
    (edges : List (CallEdge R)) :
    let limits := CycleLimits.ofBounds maxCycles maxLength maxSteps minSize
    let report := findCycles limits edges
    (∀ c ∈ report.cycles, IsSimpleCycle (Calls edges) c ∧ StartsLeast c ∧
        limits.minSize ≤ c.length ∧ c.length ≤ limits.maxLength) ∧
      report.cycles.Nodup ∧ report.cycles.length ≤ limits.maxCycles ∧
      report.cycles.Pairwise Cycle.Precedes ∧
      (report.truncated = false → ∀ d, IsSimpleCycle (Calls edges) d →
        limits.minSize ≤ d.length → d.length ≤ limits.maxLength →
          ∃! c, c ∈ report.cycles ∧ c ~r d) ∧
      (report.truncated = false → report.lengthLimited = false →
        ∀ d, IsSimpleCycle (Calls edges) d → d.length ≤ limits.maxLength) ∧
      (report.truncated = true → report.cycles.length = limits.maxCycles ∨
        limits.maxSteps < ((CallGraph.ofEdges edges []).trace limits).length) ∧
      (report.lengthLimited = true → ∃ p : List String, p.IsChain (Calls edges) ∧ p.Nodup ∧
        p.length = limits.maxLength + 1) := by
  have hmax := CycleLimits.one_le_maxLength maxCycles maxLength maxSteps minSize
  generalize CycleLimits.ofBounds maxCycles maxLength maxSteps minSize = limits at hmax
  have hcount : (findCycles limits edges).cycles.length ≤ limits.maxCycles := by
    rw [length_findCycles]
    exact ((CallGraph.ofEdges edges []).tally_searchCycles limits).count_le
  refine ⟨fun c hc => isSimpleCycle_of_mem_findCycles hmax hc, nodup_findCycles hmax, hcount,
    pairwise_findCycles hmax, fun hs d hd => existsUnique_mem_findCycles hmax hs hd,
    fun hs hlimited d hd => length_le_of_not_limited hmax hs hlimited hd, fun hs => ?_,
    exists_path_of_lengthLimited hmax⟩
  have hfull := (CallGraph.ofEdges edges []).full_of_truncated_searchCycles limits hs
  refine hfull.imp_left fun h => ?_
  rw [← length_findCycles] at h
  exact Nat.le_antisymm hcount h

end Deadwood
