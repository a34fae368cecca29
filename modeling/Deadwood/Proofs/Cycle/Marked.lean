import Deadwood.CommandLine.Analysis
import Deadwood.Proofs.Cycle.Overview

/-!
# Functions on cycles

The metrics of a workspace mark the functions that lie on a cycle. They go by all recorded calls,
whereas the overview of cycles goes by the calls between known functions. So both agree on a
function unless calls lead from it to some unknown function and back.

## Main definitions

* `OnCycle`: an element lies on a simple cycle.

## Main results

* `onCycle_iff_transGen`: an element lies on a cycle if it reaches itself.
* `CallGraph.mem_cyclicIds`: the ids on cycles of a graph.
* `onCycle_calls_iff`: cycles of known functions and others.
* `metrics_mark_onCycle`: what the metrics mark, and what the overview of cycles lists.
-/

namespace Deadwood

open Relation (ReflTransGen TransGen)

/-! ## Elements on cycles -/

section Relation

variable {α : Type} {r s : α → α → Prop} {a b x : α}

/-- An element lies on a simple cycle. -/
def OnCycle (r : α → α → Prop) (x : α) : Prop :=
  ∃ c, IsSimpleCycle r c ∧ x ∈ c

/-- What is reached is reached on a path without repetitions: whatever lies between two visits of
an element can be left out. -/
theorem exists_nodup_path (h : ReflTransGen r a b) :
    ∃ l, (a :: l).IsChain r ∧ (a :: l).Nodup ∧ (a :: l).getLast? = some b := by
  induction h using ReflTransGen.head_induction_on with
  | refl => exact ⟨[], by simp⟩
  | @head a c hac _ ih =>
    obtain ⟨l, hchain, hnodup, hlast⟩ := ih
    by_cases ha : a ∈ c :: l
    · obtain ⟨before, after, hsplit⟩ := List.append_of_mem ha
      rw [hsplit] at hchain hnodup hlast
      refine ⟨after, hchain.right_of_append, hnodup.of_append_right, ?_⟩
      rwa [List.getLast?_append_of_ne_nil _ (List.cons_ne_nil a after)] at hlast
    · refine ⟨c :: l, hchain.cons_cons hac, List.nodup_cons.mpr ⟨ha, hnodup⟩, ?_⟩
      rwa [List.getLast?_cons_cons]

/-- An element lies on a cycle if one or more steps lead from it to itself. -/
theorem onCycle_iff_transGen : OnCycle r x ↔ TransGen r x x := by
  constructor
  · rintro ⟨c, hc, hx⟩
    obtain ⟨l, hl, -⟩ := hc.exists_cons hx
    exact .tail' (hl.reflTransGen List.mem_cons_self (List.getLast_mem _)) hl.closes
  · intro h
    obtain ⟨y, hxy, hback⟩ := TransGen.head'_iff.mp h
    obtain ⟨l, hchain, hnodup, hlast⟩ := exists_nodup_path hback
    have hlast : (y :: l).getLast (List.cons_ne_nil y l) = x := by
      rw [List.getLast?_eq_getLast_of_ne_nil (List.cons_ne_nil y l)] at hlast
      exact Option.some.inj hlast
    refine ⟨y :: l, ⟨List.cons_ne_nil y l, hnodup, hchain, ?_⟩, hlast ▸ List.getLast_mem _⟩
    rwa [hlast]

theorem OnCycle.mono (h : OnCycle r x) (hrs : ∀ a b, r a b → s a b) : OnCycle s x := by
  obtain ⟨c, hc, hx⟩ := h
  exact ⟨c, hc.mono hrs, hx⟩

end Relation

/-! ## Ids on cycles -/

variable {R : Type} {edges : List (CallEdge R)} {id : String}

namespace CallGraph

variable {g : CallGraph} {i : Nat}

theorem Together.transGen {j : Nat} (h : g.Together i j) (hne : j ≠ i) :
    TransGen (fun a b => b ∈ g.succ a) i i := by
  rcases Relation.reflTransGen_iff_eq_or_transGen.mp h.1 with heq | hpath
  · exact absurd heq hne
  · exact hpath.trans_left h.2

/-- A node lies on a cycle if it calls itself or does not stand alone. -/
theorem mem_cyclicIds (extra : List String) :
    id ∈ (ofEdges edges extra).cyclicIds ↔ OnCycle (Calls edges) id := by
  have rep := represents_ofEdges edges extra
  generalize ofEdges edges extra = g at rep
  have hmem : id ∈ g.cyclicIds ↔
      ∃ i, (g.hasLoop i ∨ ∃ j, j ≠ i ∧ g.Together i j) ∧ g.idAt i = id := by
    simp only [← rep.mem_components_iff, cyclicIds, hasLoop, List.mem_map, mem_distinctNats,
      List.mem_append, List.mem_flatten, List.contains_iff_mem]
  rw [hmem, onCycle_iff_transGen]
  constructor
  · rintro ⟨i, hloop | ⟨j, hne, hij⟩, rfl⟩
    · exact .single ((rep.hasLoop i).mp hloop).2
    · exact (hij.transGen hne).lift g.idAt fun a b hab => ((rep.mem_succ a b).mp hab).2.2.2
  · intro h
    obtain ⟨y, hcall, hback⟩ := TransGen.head'_iff.mp h
    obtain ⟨i, hi, rfl⟩ := exists_idAt (rep.covers _ _ hcall).1
    obtain ⟨j, hj, rfl⟩ := exists_idAt (rep.covers _ _ hcall).2
    refine ⟨i, ?_, rfl⟩
    by_cases hij : j = i
    · exact .inl ((rep.hasLoop i).mpr ⟨hi, hij ▸ hcall⟩)
    · obtain ⟨k, hk, hki, hpath⟩ := (rep.reflTransGen_iff hj).mp hback
      obtain rfl := rep.idAt_inj hk hi hki
      exact .inr ⟨j, hij, .single ((rep.mem_succ k j).mpr ⟨hij, hi, hj, hcall⟩), hpath⟩

end CallGraph

instance (edges : List (CallEdge R)) : DecidablePred (OnCycle (Calls edges)) := fun _ =>
  decidable_of_iff _ (CallGraph.mem_cyclicIds [])

/-- A function that lies on a cycle lies on one of known functions, or on one with an unknown
function. -/
theorem onCycle_calls_iff {fs : List FunctionRecord} :
    OnCycle (Calls edges) id ↔ OnCycle (KnownCalls fs edges) id ∨
      ∃ c, IsSimpleCycle (Calls edges) c ∧ id ∈ c ∧ ∃ x ∈ c, x ∉ fs.map (·.id) := by
  constructor
  · rintro ⟨c, hc, hid⟩
    by_cases hghost : ∃ x ∈ c, x ∉ fs.map (·.id)
    · exact .inr ⟨c, hc, hid, hghost⟩
    · have hknown : ∀ x ∈ c, ∃ f ∈ fs, f.id = x := by simpa using hghost
      have hinside : IsSimpleCycle (fun a b => a ∈ c ∧ b ∈ c ∧ Calls edges a b) c :=
        IsSimpleCycle.of_map (f := fun x => x) (by simpa using hc)
      exact .inl ⟨c, hinside.mono fun a b hab => ⟨hab.2.2, hknown a hab.1, hknown b hab.2.1⟩, hid⟩
  · rintro (hknown | ⟨c, hc, hid, -⟩)
    · exact hknown.mono fun a b hab => hab.1
    · exact ⟨c, hc, hid⟩

/-! ## The overview of cycles -/

section Overview

variable {o : CycleOptions} {fs : List FunctionRecord}

/-- Whatever is filtered out, what an overview lists are cycles of known functions. -/
theorem isSimpleCycle_of_mem_cycleOverview {c : ClassifiedCycle}
    (h : c ∈ (cycleOverview o fs edges).cycles) : IsSimpleCycle (KnownCalls fs edges) c.nodes := by
  have hshorten : ∀ cs : List ClassifiedCycle, o.shorten cs ⊆ cs := by
    intro cs
    unfold CycleOptions.shorten
    split
    · exact List.take_subset _ _
    · exact List.Subset.refl _
  have hkept := List.mem_mergeSort.mp (hshorten _ h)
  obtain ⟨nodes, hnodes, rfl⟩ := List.mem_map.mp (List.mem_of_mem_filter hkept)
  have hmax : 1 ≤ o.limits.maxLength := CycleLimits.one_le_maxLength _ _ _ _
  rw [← calls_validEdges_eq]
  exact (isSimpleCycle_of_mem_findCycles hmax hnodes).1

/-- An overview without filters whose search was complete lists all functions that lie on cycles of
known functions. -/
theorem CycleOptions.IsUnfiltered.exists_listed_iff (ho : o.IsUnfiltered)
    (hmin : o.limits.minSize ≤ 1)
    (htruncated : (findCycles o.limits ((FunctionIndex.ofList fs).validEdges edges)).truncated =
      false)
    (hlimited : (findCycles o.limits ((FunctionIndex.ofList fs).validEdges edges)).lengthLimited =
      false) :
    (∃ c ∈ (cycleOverview o fs edges).cycles, id ∈ c.nodes) ↔ OnCycle (KnownCalls fs edges) id := by
  constructor
  · rintro ⟨c, hc, hid⟩
    exact ⟨c.nodes, isSimpleCycle_of_mem_cycleOverview hc, hid⟩
  · rintro ⟨d, hd, hid⟩
    have hmax : 1 ≤ o.limits.maxLength := CycleLimits.one_le_maxLength _ _ _ _
    have hsize : o.limits.minSize ≤ d.length :=
      hmin.trans (List.length_pos_iff.mpr hd.nonempty)
    rw [← calls_validEdges_eq] at hd
    obtain ⟨c, ⟨hc, hrotated⟩, -⟩ := existsUnique_mem_findCycles hmax htruncated hd hsize
      (length_le_of_not_limited hmax htruncated hlimited hd)
    obtain ⟨c, hlisted, rfl⟩ :=
      List.mem_map.mp ((ho.cycleOverview_nodes fs edges).mem_iff.mpr hc)
    exact ⟨c, hlisted, hrotated.mem_iff.mpr hid⟩

end Overview

/-! ## Metrics -/

open CommandLine (Workspace)

namespace CommandLine.Workspace

variable (ws : Workspace)

@[simp] theorem map_functionId_metrics :
    ws.metrics.map (·.functionId) = ws.functions.map (·.id) := by
  simp [metrics, dependencyMetrics, Function.comp_def]

variable {ws} in
theorem isCyclic_iff {m : FunctionMetrics} (hm : m ∈ ws.metrics) :
    m.isCyclic ↔ OnCycle (Calls ws.edges) m.functionId := by
  obtain ⟨f, -, rfl⟩ := List.mem_map.mp hm
  rw [← CallGraph.mem_cyclicIds []]
  exact List.contains_iff_mem

theorem countP_isCyclic_metrics :
    ws.metrics.countP (·.isCyclic) = ws.functions.countP (OnCycle (Calls ws.edges) ·.id) := by
  have hids : ws.metrics.countP (·.isCyclic) =
      (ws.metrics.map (·.functionId)).countP (OnCycle (Calls ws.edges) ·) := by
    rw [List.countP_map]
    refine List.countP_congr fun m hm => ?_
    simpa using isCyclic_iff hm
  rw [hids, map_functionId_metrics, List.countP_map]
  rfl

end CommandLine.Workspace

/-- The metrics of a workspace have a row for every function. They mark and count the functions that
lie on a cycle of recorded calls: on one of known functions, or on one that leads through an unknown
function. The overview of cycles has only the former: what it lists is marked, and if nothing is
filtered out and the search was complete, it lists all functions on cycles of known functions. -/
theorem metrics_mark_onCycle (ws : Workspace) :
    ws.metrics.map (·.functionId) = ws.functions.map (·.id) ∧
    (∀ o, (DependencyStats.of o ws.metrics).cyclic =
      ws.functions.countP (OnCycle (Calls ws.edges) ·.id)) ∧
    ∀ m ∈ ws.metrics,
      let id := m.functionId
      (m.isCyclic ↔ OnCycle (Calls ws.edges) id) ∧
      (m.isCyclic ↔ OnCycle (KnownCalls ws.functions ws.edges) id ∨
        ∃ c, IsSimpleCycle (Calls ws.edges) c ∧ id ∈ c ∧
          ∃ x ∈ c, x ∉ ws.functions.map (·.id)) ∧
      ∀ o : CycleOptions,
        let overview := cycleOverview o ws.functions ws.edges
        let search := findCycles o.limits ((FunctionIndex.ofList ws.functions).validEdges ws.edges)
        ((∃ c ∈ overview.cycles, id ∈ c.nodes) → m.isCyclic) ∧
        (o.IsUnfiltered → o.limits.minSize ≤ 1 → search.truncated = false →
          search.lengthLimited = false →
            ((∃ c ∈ overview.cycles, id ∈ c.nodes) ↔
              OnCycle (KnownCalls ws.functions ws.edges) id)) := by
  refine ⟨ws.map_functionId_metrics, fun o => ws.countP_isCyclic_metrics, fun m hm => ?_⟩
  have hmarked := Workspace.isCyclic_iff hm
  refine ⟨hmarked, hmarked.trans onCycle_calls_iff, fun o => ⟨?_, ?_⟩⟩
  · rintro ⟨c, hc, hid⟩
    have hknown : OnCycle (KnownCalls ws.functions ws.edges) m.functionId :=
      ⟨c.nodes, isSimpleCycle_of_mem_cycleOverview hc, hid⟩
    exact hmarked.mpr (hknown.mono fun a b hab => hab.1)
  · exact fun ho hmin htruncated hlimited => ho.exists_listed_iff hmin htruncated hlimited

/-- A function calls an unknown one, which calls it back. It is marked, but lies on no cycle of
known functions, and no overview of cycles lists it. -/
theorem metrics_mark_onCycle_through_unknown :
    let ws : Workspace :=
      { settings := {}, database := {}, snapshot := {}, functions := [{ id := "f" }]
        edges := [{ caller := "f", callee := "ghost" }, { caller := "ghost", callee := "f" }] }
    (∃ m ∈ ws.metrics, m.functionId = "f" ∧ m.isCyclic) ∧
      ¬ OnCycle (KnownCalls ws.functions ws.edges) "f" ∧
      ∀ o, ¬ ∃ c ∈ (cycleOverview o ws.functions ws.edges).cycles, "f" ∈ c.nodes := by
  intro ws
  have hunknown : ¬ OnCycle (KnownCalls ws.functions ws.edges) "f" := by
    rintro ⟨c, hc, hf⟩
    obtain ⟨y, hcall, -, hknown⟩ := hc.exists_rel hf
    obtain rfl : "f" = y := by simpa [ws] using hknown
    simp [Calls, ws] at hcall
  have hcycle : IsSimpleCycle (Calls ws.edges) ["f", "ghost"] := by
    have hcalls : Calls ws.edges "f" "ghost" ∧ Calls ws.edges "ghost" "f" := by
      simp [Calls, CallEdge.isInternal, ws]
    exact ⟨List.cons_ne_nil _ _, by decide, by simpa using hcalls.1, hcalls.2⟩
  obtain ⟨hids, -, hrows⟩ := metrics_mark_onCycle ws
  obtain ⟨m, hm, hid⟩ : ∃ m ∈ ws.metrics, m.functionId = "f" :=
    List.mem_map.mp (hids ▸ List.mem_singleton_self "f")
  refine ⟨⟨m, hm, hid, (hrows m hm).2.1.mpr (.inr ?_)⟩, hunknown, fun o hlisted => ?_⟩
  · exact ⟨_, hcycle, by simp [hid], "ghost", by simp, by simp [ws]⟩
  · obtain ⟨c, hc, hf⟩ := hlisted
    exact hunknown ⟨c.nodes, isSimpleCycle_of_mem_cycleOverview hc, hf⟩

end Deadwood
