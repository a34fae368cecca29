import Deadwood.Metrics
import Deadwood.Proofs.Graph.Walk

/-!
# Distances in call graphs

The distance of an id is the least number of calls on a walk that leads to it. Calls of a function
by itself are no arrows of the graph, but a walk along calls that has some is not a shortest one.

## Main definitions

* `walkLengths`: the lengths of the walks from some functions to a function.
* `callDepths`: those of the walks between known functions.

## Main results

* `CallGraph.Represents.isLeast_walkLengths_iff`: distances of ids and of their nodes.
* `distances_shortest`: the distances that a graph and the metrics of its functions show.
-/

namespace Deadwood

/-! ## Walks -/

variable {R : Type} {edges walk : List (CallEdge R)} {e : CallEdge R} {a b : String}

theorem isWalk_concat :
    IsWalk edges a (walk ++ [e]) b ↔
      IsWalk edges a walk e.caller ∧ e ∈ edges ∧ e.isInternal ∧ e.callee = b := by
  induction walk generalizing a with
  | nil =>
    simp only [List.nil_append, IsWalk, eq_comm (a := a)]
    tauto
  | cons f walk ih => simp only [List.cons_append, IsWalk, ih, and_assoc]

theorem IsWalk.isInternal (h : IsWalk edges a walk b) (he : e ∈ walk) : e.isInternal := by
  induction walk generalizing a with
  | nil => simp at he
  | cons f walk ih =>
    obtain ⟨-, hinternal, -, hrest⟩ := h
    rcases List.mem_cons.mp he with rfl | he
    · exact hinternal
    · exact ih hrest he

/-- A walk along some of the calls. -/
theorem isWalk_filter {p : CallEdge R → Bool} :
    IsWalk (edges.filter p) a walk b ↔ IsWalk edges a walk b ∧ ∀ e ∈ walk, p e := by
  induction walk generalizing a with
  | nil => simp [IsWalk]
  | cons e walk ih =>
    simp only [IsWalk, ih, List.mem_filter, List.forall_mem_cons]
    tauto

/-- The lengths of the walks that lead from some functions to a function. -/
def walkLengths (edges : List (CallEdge R)) (isStart : String → Prop) (id : String) : Set Nat :=
  {n | ∃ s, isStart s ∧ ∃ walk, IsWalk edges s walk id ∧ walk.length = n}

namespace CallGraph

namespace Represents

variable {g : CallGraph} {starts : List String} {n j d : Nat} {id : String}

/-- Steps between nodes are calls between their ids. -/
theorem mem_walkLengths_of_reachedIn (rep : g.Represents edges)
    (h : ReachedIn g.succ (g.indices starts) n j) :
    j < g.size ∧ n ∈ walkLengths edges (fun s => s ∈ starts ∧ s ∈ g.ids.toList) (g.idAt j) := by
  induction n generalizing j with
  | zero =>
    obtain ⟨hj, hstart⟩ := rep.mem_indices.mp h
    have hid : g.idAt j ∈ g.ids.toList := List.mem_of_getElem? (getElem?_ids hj)
    exact ⟨hj, g.idAt j, ⟨hstart, hid⟩, [], rfl, rfl⟩
  | succ n ih =>
    obtain ⟨i, hi, hstep⟩ := h
    obtain ⟨-, s, hs, walk, hwalk, hlength⟩ := ih hi
    obtain ⟨-, -, hj, e, he, hinternal, hcaller, hcallee⟩ := (rep.mem_succ i j).mp hstep
    refine ⟨hj, s, hs, walk ++ [e], isWalk_concat.mpr ⟨?_, he, hinternal, hcallee⟩, ?_⟩
    · rwa [hcaller]
    · simp [hlength]

/-- A walk leads to a node that can be reached in no more steps than it has calls; the calls of
functions by themselves can be left out. -/
theorem exists_reachedIn_of_isWalk (rep : g.Represents edges) {s : String} (hs : s ∈ starts)
    (hnode : s ∈ g.ids.toList) {walk : List (CallEdge R)} (h : IsWalk edges s walk id) :
    ∃ j < g.size, g.idAt j = id ∧
      ∃ m ≤ walk.length, ReachedIn g.succ (g.indices starts) m j := by
  induction walk using List.reverseRecOn generalizing id with
  | nil =>
    obtain rfl : s = id := h
    obtain ⟨j, hj, rfl⟩ := exists_idAt hnode
    exact ⟨j, hj, rfl, 0, le_rfl, rep.mem_indices.mpr ⟨hj, hs⟩⟩
  | append_singleton walk e ih =>
    obtain ⟨hwalk, he, hinternal, rfl⟩ := isWalk_concat.mp h
    obtain ⟨j, hj, hid, m, hm, hreached⟩ := ih hwalk
    have hcall : Calls edges (g.idAt j) e.callee := ⟨e, he, hinternal, hid.symm, rfl⟩
    obtain ⟨k, hk, hcallee⟩ := exists_idAt (rep.covers _ _ hcall).2
    rw [List.length_append]
    by_cases hkj : k = j
    · subst hkj
      exact ⟨k, hk, hcallee, m, by omega, hreached⟩
    · have hstep : k ∈ g.succ j := (rep.mem_succ j k).mpr ⟨hkj, hj, hk, hcallee ▸ hcall⟩
      exact ⟨k, hk, hcallee, m + 1, by simpa using hm, j, hreached, hstep⟩

theorem isLeast_walkLengths_iff (rep : g.Represents edges) :
    IsLeast (walkLengths edges (fun s => s ∈ starts ∧ s ∈ g.ids.toList) id) d ↔
      ∃ j, g.idAt j = id ∧ IsLeast {n | ReachedIn g.succ (g.indices starts) n j} d := by
  constructor
  · rintro ⟨⟨s, ⟨hs, hnode⟩, walk, hwalk, rfl⟩, hleast⟩
    obtain ⟨j, hj, rfl, m, hm, hreached⟩ := rep.exists_reachedIn_of_isWalk hs hnode hwalk
    have hback : ∀ n, ReachedIn g.succ (g.indices starts) n j → walk.length ≤ n :=
      fun n hn => hleast (rep.mem_walkLengths_of_reachedIn hn).2
    obtain rfl : m = walk.length := Nat.le_antisymm hm (hback m hreached)
    exact ⟨j, rfl, hreached, hback⟩
  · rintro ⟨j, rfl, hreached, hleast⟩
    obtain ⟨hj, hmem⟩ := rep.mem_walkLengths_of_reachedIn hreached
    refine ⟨hmem, ?_⟩
    rintro n ⟨s, ⟨hs, hnode⟩, walk, hwalk, rfl⟩
    obtain ⟨k, hk, hid, m, hm, hreached'⟩ := rep.exists_reachedIn_of_isWalk hs hnode hwalk
    obtain rfl := rep.idAt_inj hk hj hid
    exact (hleast hreached').trans hm

end Represents

/-! ## The distances of a graph -/

section Distances

variable {g : CallGraph} {starts : List String} {id : String} {d : Nat}

theorem mem_distances_iff_isLeast (rep : g.Represents edges) :
    (id, d) ∈ g.distances starts ↔
      IsLeast (walkLengths edges (fun s => s ∈ starts ∧ s ∈ g.ids.toList) id) d := by
  simp only [distances, List.mem_map, mem_distinctNats, Prod.mk.injEq,
    rep.isLeast_walkLengths_iff, rep.isLeast_survey_iff]
  constructor
  · rintro ⟨j, hj, hid, hd⟩
    exact ⟨j, hid, hj, hd⟩
  · rintro ⟨j, hid, hj, hd⟩
    exact ⟨j, hj, hid, hd⟩

end Distances

end CallGraph

/-- A value that is the only one of its key is found. -/
theorem lookup_eq_some_iff_mem {κ α : Type} [BEq κ] [LawfulBEq κ] {entries : List (κ × α)} {k : κ}
    (h : ∀ v v', (k, v) ∈ entries → (k, v') ∈ entries → v = v') {v : α} :
    entries.lookup k = some v ↔ (k, v) ∈ entries := by
  have hmem : ∀ v, entries.lookup k = some v → (k, v) ∈ entries := by
    intro v hv
    obtain ⟨before, after, rfl, -⟩ := List.lookup_eq_some_iff.mp hv
    simp
  refine ⟨hmem v, fun hv => ?_⟩
  cases hfound : entries.lookup k with
  | none => simpa using List.lookup_eq_none_iff.mp hfound _ hv
  | some v' => rw [h v' v (hmem v' hfound) hv]

theorem lookup_distances {g : CallGraph} (rep : g.Represents edges) {starts : List String}
    {id : String} {d : Nat} :
    (g.distances starts).lookup id = some d ↔
      IsLeast (walkLengths edges (fun s => s ∈ starts ∧ s ∈ g.ids.toList) id) d := by
  rw [← CallGraph.mem_distances_iff_isLeast rep]
  refine lookup_eq_some_iff_mem fun v v' hv hv' => ?_
  rw [CallGraph.mem_distances_iff_isLeast rep] at hv hv'
  exact hv.unique hv'

/-! ## Depths -/

/-- The lengths of the walks between known functions that lead from a known entry to a function. -/
def callDepths (fs : List FunctionRecord) (edges : List (CallEdge R)) (entries : List String)
    (id : String) : Set Nat :=
  {n | ∃ entry ∈ entries, entry ∈ fs.map (·.id) ∧ ∃ walk, IsWalk edges entry walk id ∧
    (∀ e ∈ walk, e.caller ∈ fs.map (·.id) ∧ e.callee ∈ fs.map (·.id)) ∧ walk.length = n}

/-- Every start of the graph behind the metrics is a node of it. -/
theorem walkLengths_staysKnown (fs : List FunctionRecord) (edges : List (CallEdge R))
    (entries : List String) (id : String) :
    let known := fs.map (·.id)
    let starts := distinctTexts (entries.filter known.contains)
    let inner := edges.filter (staysKnown known)
    walkLengths inner (fun s => s ∈ starts ∧ s ∈ (CallGraph.ofEdges inner starts).ids.toList) id =
      callDepths fs edges entries id := by
  intro known starts inner
  have hnode : ∀ s ∈ starts, s ∈ (CallGraph.ofEdges inner starts).ids.toList :=
    fun s hs => CallGraph.mem_nodeIds.mpr (.inl hs)
  have hstart : ∀ s, s ∈ starts ↔ s ∈ entries ∧ s ∈ known := by
    simp [starts]
  have hinside : ∀ s walk, IsWalk inner s walk id ↔ IsWalk edges s walk id ∧
      ∀ e ∈ walk, e.caller ∈ known ∧ e.callee ∈ known := by
    intro s walk
    rw [isWalk_filter]
    refine and_congr_right fun hwalk => forall₂_congr fun e he => ?_
    simp [staysKnown, startsKnown, hwalk.isInternal he]
  ext n
  constructor
  · rintro ⟨s, ⟨hs, -⟩, walk, hwalk, rfl⟩
    obtain ⟨hentry, hknown⟩ := (hstart s).mp hs
    obtain ⟨hwalk, hinner⟩ := (hinside s walk).mp hwalk
    exact ⟨s, hentry, hknown, walk, hwalk, hinner, rfl⟩
  · rintro ⟨s, hentry, hknown, walk, hwalk, hinner, rfl⟩
    have hs := (hstart s).mpr ⟨hentry, hknown⟩
    exact ⟨s, ⟨hs, hnode s hs⟩, walk, (hinside s walk).mpr ⟨hwalk, hinner⟩, rfl⟩

theorem lookup_depths {fs : List FunctionRecord} {edges : List (CallEdge R)}
    {entries : List String} {id : String} {d : Nat} :
    let known := fs.map (·.id)
    let starts := distinctTexts (entries.filter known.contains)
    let inner := edges.filter (staysKnown known)
    ((CallGraph.ofEdges inner starts).distances starts).lookup id = some d ↔
      IsLeast (callDepths fs edges entries id) d := by
  intro known starts inner
  rw [lookup_distances (CallGraph.represents_ofEdges inner starts), walkLengths_staysKnown]

/-- A graph lists a distance for exactly the ids that it reaches, and it is the least number of
calls on a walk to the id from a start that is a node of the graph. So the depth in the metrics of a
function is the least number of calls between known functions that lead to it from a known entry,
and `-1` if none do. -/
theorem distances_shortest (edges : List (CallEdge R)) (extra starts : List String) :
    let g := CallGraph.ofEdges edges extra
    (g.distances starts).map (·.1) = g.reachable starts ∧
      (∀ id d, (g.distances starts).lookup id = some d ↔
        IsLeast (walkLengths edges (fun s => s ∈ starts ∧ s ∈ g.ids.toList) id) d) ∧
      ∀ (fs : List FunctionRecord) (entries cyclic : List String),
        List.Forall₂ (fun (f : FunctionRecord) (m : FunctionMetrics) => m.functionId = f.id ∧
            (callDepths fs edges entries f.id = ∅ ∧ m.depth = -1 ∨
              ∃ d : Nat, IsLeast (callDepths fs edges entries f.id) d ∧ m.depth = d))
          fs (dependencyMetrics fs edges entries cyclic) := by
  intro g
  refine ⟨CallGraph.keys_distances (CallGraph.represents_ofEdges edges extra) starts,
    fun id d => lookup_distances (CallGraph.represents_ofEdges edges extra),
    fun fs entries cyclic => ?_⟩
  rw [dependencyMetrics, List.forall₂_map_right_iff, List.forall₂_same]
  intro f _
  refine ⟨rfl, ?_⟩
  have hfound := @lookup_depths R fs edges entries f.id
  dsimp only at hfound ⊢
  generalize List.lookup f.id _ = found at hfound ⊢
  cases found with
  | none =>
    refine .inl ⟨Set.eq_empty_iff_forall_notMem.mpr fun n hn => ?_, rfl⟩
    obtain ⟨d, hd⟩ := exists_isLeast ⟨n, hn⟩
    exact absurd (hfound.mpr hd) (by simp)
  | some d => exact .inr ⟨d, hfound.mp rfl, rfl⟩

end Deadwood
