import Deadwood.Proofs.Graph.Reach
import Mathlib.Data.Nat.Find
import Mathlib.Order.Bounds.Basic

/-!
# Searches that measure distances

A queue finds nodes in the order of their distances: while a node at some distance is handled, the
others in the queue are no nearer than those before them, and none is more than one step further
away. So a target that was found before is no further away than the node and one step, and a target
that is new cannot be reached in fewer steps.

## Main definitions

* `ReachedIn`: nodes that the starts reach in a number of steps.
* `Survey.Measures`: what a search knows of distances while it works through its queue.

## Main results

* `Survey.Measures.handle`, `Survey.isLeast_iff`: one node of the queue, and a whole search.
* `CallGraph.keys_distances`: the ids with a distance are those that are reached.
-/

namespace Deadwood

open Relation (ReflTransGen)

/-! ## Steps -/

section Steps

variable {step : Nat → List Nat} {starts : List Nat} {n j : Nat}

/-- One of the starts reaches a node in a number of steps. -/
def ReachedIn (step : Nat → List Nat) (starts : List Nat) : Nat → Nat → Prop
  | 0, j => j ∈ starts
  | n + 1, j => ∃ i, ReachedIn step starts n i ∧ j ∈ step i

theorem exists_reachedIn_iff :
    (∃ n, ReachedIn step starts n j) ↔
      ∃ i ∈ starts, ReflTransGen (fun a b => b ∈ step a) i j := by
  constructor
  · rintro ⟨n, h⟩
    induction n generalizing j with
    | zero => exact ⟨j, h, .refl⟩
    | succ n ih =>
      obtain ⟨k, hk, hstep⟩ := h
      obtain ⟨i, hi, hpath⟩ := ih hk
      exact ⟨i, hi, hpath.tail hstep⟩
  · rintro ⟨i, hi, hpath⟩
    induction hpath with
    | refl => exact ⟨0, hi⟩
    | tail _ hstep ih =>
      obtain ⟨n, hn⟩ := ih
      exact ⟨n + 1, _, hn, hstep⟩

theorem exists_isLeast {s : Set Nat} (h : s.Nonempty) : ∃ d, IsLeast s d := by
  classical
  exact ⟨Nat.find h, Nat.find_spec h, fun n hn => Nat.find_min' h hn⟩

end Steps

/-! ## Queues with distances -/

namespace Survey

variable {step : Nat → List Nat} {starts js : List Nat} {s : Survey} {n d i j k head : Nat}

/-- The queue holds every node with a distance once. -/
structure Marks (n : Nat) (s : Survey) : Prop where
  length_eq : s.distances.length = n
  isSome_iff : ∀ i, (s.distance? i).isSome ↔ i ∈ s.queue
  nodup : s.queue.Nodup

theorem Marks.lt (h : s.Marks n) (hi : i ∈ s.queue) : i < n := by
  have hsome := (h.isSome_iff i).mpr hi
  rw [← h.length_eq]
  by_contra hlt
  simp [distance?, List.getElem?_eq_none (Nat.le_of_not_lt hlt)] at hsome

theorem marks_empty (n : Nat) : Marks n { distances := List.replicate n none } := by
  refine ⟨List.length_replicate, fun i => ?_, .nil⟩
  simp only [distance?, List.getElem?_replicate]
  split_ifs <;> simp

theorem note_of_mem (h : s.Marks n) (hi : i ∈ s.queue) : s.note d i = s :=
  if_pos ((h.isSome_iff i).mpr hi)

theorem note_of_notMem (h : s.Marks n) (hi : i ∉ s.queue) :
    s.note d i = { distances := s.distances.set i (some d), queue := s.queue ++ [i] } :=
  if_neg fun hsome => hi ((h.isSome_iff i).mp hsome)

/-- A new node gets its distance, and no other node gets another one. -/
theorem distance?_note (h : s.Marks n) (hi : i ∉ s.queue) (hlt : i < n) :
    (s.note d i).distance? k = if k = i then some d else s.distance? k := by
  rw [note_of_notMem h hi]
  unfold distance?
  dsimp only
  rw [List.getElem?_set, h.length_eq, if_pos hlt]
  by_cases hk : i = k
  · rw [if_pos hk, if_pos hk.symm]
    rfl
  · rw [if_neg hk, if_neg (Ne.symm hk)]

theorem Marks.note (h : s.Marks n) (hlt : i < n) (d : Nat) : (s.note d i).Marks n := by
  by_cases hi : i ∈ s.queue
  · rwa [note_of_mem h hi]
  · refine ⟨?_, fun k => ?_, ?_⟩
    · rw [note_of_notMem h hi, List.length_set, h.length_eq]
    · rw [distance?_note h hi hlt, note_of_notMem h hi, List.mem_append, List.mem_singleton,
        ← h.isSome_iff]
      split_ifs <;> simp_all
    · rw [note_of_notMem h hi]
      refine List.nodup_append.mpr ⟨h.nodup, List.nodup_singleton i, ?_⟩
      rintro a ha b hb rfl
      exact hi (List.mem_singleton.mp hb ▸ ha)

/-- Notes at one distance put the new nodes at the end of the queue. -/
theorem exists_foldl_note (h : s.Marks n) (hjs : ∀ j ∈ js, j < n) :
    (js.foldl (·.note d) s).Marks n ∧
      ∃ more, (js.foldl (·.note d) s).queue = s.queue ++ more ∧
        (∀ k ∈ s.queue, (js.foldl (·.note d) s).distance k = s.distance k) ∧
        (∀ k ∈ more, (js.foldl (·.note d) s).distance k = d) ∧
        ∀ k, k ∈ s.queue ++ more ↔ k ∈ s.queue ∨ k ∈ js := by
  induction js generalizing s with
  | nil => exact ⟨h, [], by simp⟩
  | cons j js ih =>
    obtain ⟨hj, hjs⟩ := List.forall_mem_cons.mp hjs
    obtain ⟨hmarks, more, hqueue, hold, hnew, hmem⟩ := ih (h.note hj d) hjs
    rw [List.foldl_cons]
    refine ⟨hmarks, ?_⟩
    by_cases hseen : j ∈ s.queue
    · rw [note_of_mem h hseen] at hqueue hold hnew hmem ⊢
      refine ⟨more, hqueue, hold, hnew, fun k => (hmem k).trans ?_⟩
      grind
    · have hnext : (s.note d j).queue = s.queue ++ [j] := by rw [note_of_notMem h hseen]
      have hdistance : ∀ k, (s.note d j).distance k = if k = j then d else s.distance k := by
        intro k
        rw [distance, distance?_note h hseen hj]
        split_ifs <;> rfl
      rw [hnext] at hqueue hold hmem
      refine ⟨j :: more, by simpa using hqueue, fun k hk => ?_, fun k hk => ?_, fun k => ?_⟩
      · rw [hold k (List.mem_append_left _ hk), hdistance, if_neg]
        rintro rfl
        exact hseen hk
      · rcases List.mem_cons.mp hk with rfl | hk
        · rw [hold k (by simp), hdistance, if_pos rfl]
        · exact hnew k hk
      · have := hmem k
        simp only [List.append_assoc, List.singleton_append] at this
        grind

/-- While the targets of a node are noted, its own distance stays. -/
theorem handle_eq (h : s.Marks n) (hi : i ∈ s.queue) (hstep : ∀ j ∈ step i, j < n) :
    s.handle step i = (step i).foldl (·.note (s.distance i + 1)) s := by
  unfold handle
  generalize step i = js at hstep
  generalize hd : s.distance i = d
  induction js generalizing s with
  | nil => rfl
  | cons j js ih =>
    obtain ⟨hj, hjs⟩ := List.forall_mem_cons.mp hstep
    have hone : ∀ k ∈ [j], k < n := by simpa
    obtain ⟨-, more, hqueue, hold, -⟩ := exists_foldl_note (d := d + 1) h hone
    rw [List.foldl_cons, List.foldl_cons, hd]
    refine ih (h.note hj _) ?_ hjs ?_
    · exact (congrArg (i ∈ ·) hqueue).mpr (List.mem_append_left more hi)
    · exact (hold i hi).trans hd

/-- What a search from some starts among `n` nodes knows when it has handled the first nodes of its
queue. -/
structure Measures (step : Nat → List Nat) (starts : List Nat) (n head : Nat) (s : Survey) :
    Prop where
  marks : s.Marks n
  mem_starts : ∀ i ∈ starts, i ∈ s.queue ∧ s.distance i = 0
  reachedIn : ∀ i ∈ s.queue, ReachedIn step starts (s.distance i) i
  ascending : s.queue.Pairwise fun i j => s.distance i ≤ s.distance j
  /-- No node is more than one step further away than one that is still to be handled. -/
  near : ∀ i ∈ s.queue, ∀ k ∈ s.queue.drop head, s.distance i ≤ s.distance k + 1
  closed : ∀ i ∈ s.queue.take head, ∀ j ∈ step i, j ∈ s.queue ∧ s.distance j ≤ s.distance i + 1

theorem measures_starts (step : Nat → List Nat) (hstarts : ∀ i ∈ starts, i < n) :
    Measures step starts n 0
      (starts.foldl (·.note 0) { distances := List.replicate n none }) := by
  obtain ⟨hmarks, more, hqueue, -, hnew, hmem⟩ :=
    exists_foldl_note (d := 0) (marks_empty n) hstarts
  simp only [List.nil_append] at hqueue hmem
  simp only [List.not_mem_nil, false_or] at hmem
  rw [← hqueue] at hnew hmem
  refine ⟨hmarks, fun i hi => ?_, fun i hi => ?_, ?_, fun i hi k hk => ?_, by simp⟩
  · exact ⟨(hmem i).mpr hi, hnew i ((hmem i).mpr hi)⟩
  · rw [hnew i hi]
    exact (hmem i).mp hi
  · refine List.pairwise_of_forall_mem_list fun i hi j hj => ?_
    rw [hnew i hi, hnew j hj]
  · rw [hnew i hi]
    exact Nat.zero_le _

/-- Handling the next node of the queue. Its new targets are as far away as any node can be then, so
that the queue stays in order. -/
theorem Measures.handle (hstep : ∀ i < n, ∀ j ∈ step i, j < n)
    (h : Measures step starts n head s) (hi : s.queue[head]? = some i) :
    Measures step starts n (head + 1) (s.handle step i) := by
  have hmemi : i ∈ s.queue := List.mem_of_getElem? hi
  have hlt : head < s.queue.length := (List.getElem?_eq_some_iff.mp hi).1
  have hdrop : s.queue.drop head = i :: s.queue.drop (head + 1) := by
    rw [List.drop_eq_getElem_cons hlt, (List.getElem?_eq_some_iff.mp hi).2]
  have htargets := hstep i (h.marks.lt hmemi)
  have hnear : ∀ k ∈ s.queue, s.distance k ≤ s.distance i + 1 := fun k hk =>
    h.near k hk i (hdrop ▸ List.mem_cons_self)
  have hlater : ∀ k ∈ s.queue.drop (head + 1), s.distance i ≤ s.distance k := by
    have hordered := h.ascending.drop (i := head)
    rw [hdrop] at hordered
    exact (List.pairwise_cons.mp hordered).1
  rw [handle_eq h.marks hmemi htargets]
  obtain ⟨hmarks, more, hqueue, hold, hnew, hmem⟩ :=
    exists_foldl_note (d := s.distance i + 1) h.marks htargets
  generalize (step i).foldl (·.note (s.distance i + 1)) s = s' at *
  refine ⟨hmarks, fun k hk => ?_, fun k hk => ?_, ?_, fun k hk l hl => ?_, fun k hk j hj => ?_⟩
  · obtain ⟨hk, hzero⟩ := h.mem_starts k hk
    rw [hqueue, hold k hk]
    exact ⟨List.mem_append_left more hk, hzero⟩
  · rw [hqueue] at hk
    rcases List.mem_append.mp hk with hk' | hk'
    · rw [hold k hk']
      exact h.reachedIn k hk'
    · rw [hnew k hk']
      refine ⟨i, h.reachedIn i hmemi, ?_⟩
      rcases (hmem k).mp hk with hk | hk
      · have hnodup := hqueue ▸ hmarks.nodup
        exact absurd rfl ((List.nodup_append.mp hnodup).2.2 k hk k hk')
      · exact hk
  · rw [hqueue]
    refine List.pairwise_append.mpr ⟨?_, ?_, fun a ha b hb => ?_⟩
    · exact h.ascending.imp_of_mem fun ha hb hle => by rwa [hold _ ha, hold _ hb]
    · refine List.pairwise_of_forall_mem_list fun a ha b hb => ?_
      rw [hnew a ha, hnew b hb]
    · rw [hold a ha, hnew b hb]
      exact hnear a ha
  · have hk' : s'.distance k ≤ s.distance i + 1 := by
      rw [hqueue] at hk
      rcases List.mem_append.mp hk with hk | hk
      · rw [hold k hk]
        exact hnear k hk
      · rw [hnew k hk]
    have hl' : s.distance i ≤ s'.distance l := by
      rw [hqueue, List.drop_append_of_le_length hlt] at hl
      rcases List.mem_append.mp hl with hl | hl
      · rw [hold l (List.mem_of_mem_drop hl)]
        exact hlater l hl
      · rw [hnew l hl]
        exact Nat.le_succ _
    omega
  · rw [hqueue, mem_take_succ hi more] at hk
    rw [hqueue]
    rcases hk with hk | rfl
    · obtain ⟨hj, hle⟩ := h.closed k hk j hj
      rw [hold k (List.mem_of_mem_take hk), hold j hj]
      exact ⟨List.mem_append_left more hj, hle⟩
    · have hj' := (hmem j).mpr (.inr hj)
      refine ⟨hj', ?_⟩
      rw [hold k hmemi]
      rcases List.mem_append.mp hj' with hj' | hj'
      · rw [hold j hj']
        exact hnear j hj'
      · rw [hnew j hj']

/-- A search finds every node that the starts reach, at the least number of steps that lead
there. -/
theorem isLeast_iff (hstarts : ∀ i ∈ starts, i < n) (hstep : ∀ i < n, ∀ j ∈ step i, j < n) :
    IsLeast {m | ReachedIn step starts m j} d ↔
      j ∈ (run step n starts).queue ∧ (run step n starts).distance j = d := by
  obtain ⟨done, h, hdone⟩ := drain_spec (Measures step starts n)
    (fun _ _ _ h hi => h.handle hstep hi)
    (fun _ _ h => length_le_of_nodup h.marks.nodup fun _ => h.marks.lt)
    (measures_starts step hstarts)
  change Measures step starts n done (run step n starts) at h
  change (run step n starts).queue.length ≤ done at hdone
  have hclosed := h.closed
  rw [List.take_of_length_le hdone] at hclosed
  have hfound : ∀ m k, ReachedIn step starts m k →
      k ∈ (run step n starts).queue ∧ (run step n starts).distance k ≤ m := by
    intro m
    induction m with
    | zero =>
      intro k hk
      obtain ⟨hk, hzero⟩ := h.mem_starts k hk
      exact ⟨hk, hzero.le⟩
    | succ m ih =>
      rintro k ⟨i, hi, hstep⟩
      obtain ⟨hi, hle⟩ := ih i hi
      obtain ⟨hk, hnext⟩ := hclosed i hi k hstep
      exact ⟨hk, by omega⟩
  constructor
  · rintro ⟨hreached, hleast⟩
    obtain ⟨hj, hle⟩ := hfound d j hreached
    exact ⟨hj, Nat.le_antisymm hle (hleast (h.reachedIn j hj))⟩
  · rintro ⟨hj, rfl⟩
    exact ⟨h.reachedIn j hj, fun m hm => (hfound m j hm).2⟩

end Survey

/-! ## Searches of a graph -/

namespace CallGraph

variable {R : Type} {edges : List (CallEdge R)} {g : CallGraph} {starts : List String} {d : Nat}

/-- The nodes at which a search has arrived in the end, and how far away they are. -/
theorem Represents.isLeast_survey_iff (rep : g.Represents edges) (j : Nat) :
    IsLeast {m | ReachedIn g.succ (g.indices starts) m j} d ↔
      j ∈ (Survey.run g.succ g.size (g.indices starts)).queue ∧
        (Survey.run g.succ g.size (g.indices starts)).distance j = d :=
  Survey.isLeast_iff (fun _ hi => (rep.mem_indices.mp hi).1) rep.lt_of_mem_succ

/-- A distance is listed for every id that is reached, and for no other id: both searches find the
nodes to which some number of steps leads. -/
theorem keys_distances (rep : g.Represents edges) (starts : List String) :
    (g.distances starts).map (·.1) = g.reachable starts := by
  have hstarts : ∀ i ∈ g.indices starts, i < g.size := fun i hi => (rep.mem_indices.mp hi).1
  have hnodes : distinctNats (Survey.run g.succ g.size (g.indices starts)).queue =
      g.reachableNodes (g.indices starts) := by
    refine List.Pairwise.eq_of_mem_iff (pairwise_distinctNats _)
      (rep.pairwise_reachableNodes hstarts) fun j => ?_
    rw [mem_distinctNats, rep.mem_reachableNodes hstarts, ← exists_reachedIn_iff]
    constructor
    · intro hj
      exact ⟨_, ((rep.isLeast_survey_iff j).mpr ⟨hj, rfl⟩).1⟩
    · intro h
      obtain ⟨d, hd⟩ := exists_isLeast h
      exact ((rep.isLeast_survey_iff j).mp hd).1
  rw [distances, List.map_map, hnodes]
  rfl

end CallGraph

end Deadwood
