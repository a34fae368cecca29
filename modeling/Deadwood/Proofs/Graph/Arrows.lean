import Deadwood.Graph.Basic
import Deadwood.Proofs.Keyed

/-!
# Arrows that are read one by one

A graph is read arrow by arrow, in any order and with repetitions. After each arrow the targets of
every node are in ascending order, and the sources of a node are the nodes that have it among their
targets. A source is noted only together with a new target, so that none is noted twice.

## Main definitions

* `Arrows.Reads`: what is known after some arrows.

## Main results

* `Arrows.Reads.add`: one more arrow.
* `Arrows.reads_read`: all arrows of a list.
* `Arrows.Reads.pairwise_sources`: sources in ascending order.
* `Arrows.Reads.congr`: arrows in another order.
-/

namespace Deadwood

/-! ## Ascending numbers -/

@[simp, grind =] theorem mem_insertNat {n m : Nat} {ns : List Nat} :
    m ∈ insertNat n ns ↔ m = n ∨ m ∈ ns := by
  induction ns with
  | nil => simp [insertNat]
  | cons k ns ih =>
    unfold insertNat
    split_ifs with hlt heq
    · exact List.mem_cons
    · subst heq
      simp
    · rw [List.mem_cons, ih, List.mem_cons]
      tauto

theorem pairwise_insertNat {n : Nat} {ns : List Nat} (h : ns.Pairwise (· < ·)) :
    (insertNat n ns).Pairwise (· < ·) := by
  induction ns with
  | nil => simp [insertNat]
  | cons k ns ih =>
    obtain ⟨hk, hns⟩ := List.pairwise_cons.mp h
    unfold insertNat
    split_ifs with hlt heq
    · refine List.pairwise_cons.mpr ⟨fun m hm => ?_, h⟩
      rcases List.mem_cons.mp hm with rfl | hm
      · exact hlt
      · exact hlt.trans (hk m hm)
    · exact h
    · refine List.pairwise_cons.mpr ⟨fun m hm => ?_, ih hns⟩
      rcases mem_insertNat.mp hm with rfl | hm
      · omega
      · exact hk m hm

namespace Arrows

variable {as : Arrows} {pairs : List (Nat × Nat)} {n a b i j : Nat}

/-! ## Rows -/

theorem row_modify {rows : List (List Nat)} (ha : a < rows.length) (change : List Nat → List Nat) :
    row (rows.modify a change) i = if i = a then change (row rows a) else row rows i := by
  unfold row
  rw [List.getElem?_modify]
  split_ifs with h h' h'
  · subst h
    rw [List.getElem?_eq_getElem ha]
    rfl
  · exact absurd h.symm h'
  · exact absurd h'.symm h
  · simp

theorem row_map (rows : List (List Nat)) (change : List Nat → List Nat) (hnil : change [] = []) :
    row (rows.map change) i = change (row rows i) := by
  unfold row
  rw [List.getElem?_map]
  cases rows[i]? with
  | none => exact hnil.symm
  | some r => rfl

/-! ## One arrow after another -/

/-- What is known after some arrows between `n` nodes: their targets in ascending order, their
sources without repetitions, and which nodes have an arrow to themselves. -/
structure Reads (n : Nat) (pairs : List (Nat × Nat)) (as : Arrows) : Prop where
  length_targets : as.targets.length = n
  length_sources : as.sources.length = n
  targets_ascending : ∀ i, (row as.targets i).Pairwise (· < ·)
  mem_targets : ∀ i j, j ∈ row as.targets i ↔ (i, j) ∈ pairs ∧ j ≠ i
  sources_nodup : ∀ i, (row as.sources i).Nodup
  mem_sources : ∀ i j, j ∈ row as.sources i ↔ i ∈ row as.targets j
  loops_ascending : as.loops.Pairwise (· < ·)
  mem_loops : ∀ i, i ∈ as.loops ↔ (i, i) ∈ pairs

theorem reads_nothing (n : Nat) :
    Reads n [] { targets := List.replicate n [], sources := List.replicate n [] } := by
  have hrow : ∀ i, row (List.replicate n []) i = [] := by
    intro i
    unfold row
    rw [List.getElem?_replicate]
    split_ifs <;> rfl
  constructor <;> simp [hrow]

/-- Reading one more arrow. If it is neither a loop nor known already, its target and its source
become known together. -/
theorem Reads.add (h : as.Reads n pairs) (ha : a < n) (hb : b < n) :
    (as.add a b).Reads n (pairs ++ [(a, b)]) := by
  have hmem : ∀ p, p ∈ pairs ++ [(a, b)] ↔ p ∈ pairs ∨ p = (a, b) := by simp
  unfold Arrows.add
  split_ifs with hloop hknown
  · subst hloop
    refine { h with
      mem_targets := fun i j => ?_
      loops_ascending := pairwise_insertNat h.loops_ascending
      mem_loops := fun i => ?_ }
    · rw [h.mem_targets, hmem, Prod.mk.injEq]
      constructor
      · rintro ⟨hp, hne⟩
        exact ⟨.inl hp, hne⟩
      · rintro ⟨hp | ⟨rfl, rfl⟩, hne⟩
        · exact ⟨hp, hne⟩
        · exact absurd rfl hne
    · rw [mem_insertNat, h.mem_loops, hmem, Prod.mk.injEq, and_self, or_comm]
  · have hold : (a, b) ∈ pairs :=
      ((h.mem_targets a b).mp (List.contains_iff_mem.mp hknown)).1
    have hsame : ∀ p, p ∈ pairs ++ [(a, b)] ↔ p ∈ pairs := by
      intro p
      rw [hmem, or_iff_left_of_imp]
      rintro rfl
      exact hold
    exact { h with
      mem_targets := fun i j => by rw [h.mem_targets, hsame]
      mem_loops := fun i => by rw [h.mem_loops, hsame] }
  · have hnew : b ∉ row as.targets a := fun hb => hknown (List.contains_iff_mem.mpr hb)
    have htargets : ∀ i, row (as.targets.modify a (insertNat b)) i =
        if i = a then insertNat b (row as.targets a) else row as.targets i :=
      fun i => row_modify (h.length_targets ▸ ha) _
    have hsources : ∀ i, row (as.sources.modify b (· ++ [a])) i =
        if i = b then row as.sources b ++ [a] else row as.sources i :=
      fun i => row_modify (h.length_sources ▸ hb) _
    refine { h with
      length_targets := by rw [List.length_modify, h.length_targets]
      length_sources := by rw [List.length_modify, h.length_sources]
      targets_ascending := fun i => ?_
      mem_targets := fun i j => ?_
      sources_nodup := fun i => ?_
      mem_sources := fun i j => ?_
      mem_loops := fun i => ?_ }
    · rw [htargets]
      split_ifs
      · exact pairwise_insertNat (h.targets_ascending a)
      · exact h.targets_ascending i
    · rw [htargets, hmem, Prod.mk.injEq]
      split_ifs with hi
      · subst hi
        rw [mem_insertNat, h.mem_targets]
        constructor
        · rintro (rfl | ⟨hp, hne⟩)
          · exact ⟨.inr ⟨rfl, rfl⟩, Ne.symm hloop⟩
          · exact ⟨.inl hp, hne⟩
        · rintro ⟨hp | ⟨-, rfl⟩, hne⟩
          · exact .inr ⟨hp, hne⟩
          · exact .inl rfl
      · rw [h.mem_targets]
        simp [hi]
    · rw [hsources]
      split_ifs
      · -- the source was not noted before, since the target was not
        rw [← List.concat_eq_append]
        exact (h.sources_nodup b).concat fun hnoted => hnew ((h.mem_sources b a).mp hnoted)
      · exact h.sources_nodup i
    · rw [hsources, htargets]
      by_cases hi : i = b <;> by_cases hj : j = a <;>
        simp [hi, hj, h.mem_sources]
    · rw [h.mem_loops, hmem, Prod.mk.injEq]
      constructor
      · exact .inl
      · rintro (hp | ⟨rfl, rfl⟩)
        · exact hp
        · exact absurd rfl hloop

/-- After all arrows of a list, whatever their order. -/
theorem reads_read (hpairs : ∀ p ∈ pairs, p.1 < n ∧ p.2 < n) : (read n pairs).Reads n pairs := by
  have hrun : ∀ (rest before : List (Nat × Nat)) (as : Arrows), as.Reads n before →
      (∀ p ∈ rest, p.1 < n ∧ p.2 < n) →
      (rest.foldl (fun as p => as.add p.1 p.2) as).Reads n (before ++ rest) := by
    intro rest
    induction rest with
    | nil => exact fun before as h _ => by simpa using h
    | cons p rest ih =>
      intro before as h hrest
      obtain ⟨⟨ha, hb⟩, hrest⟩ := List.forall_mem_cons.mp hrest
      have := ih (before ++ [p]) (as.add p.1 p.2) (h.add ha hb) hrest
      rwa [List.append_assoc] at this
  exact hrun pairs [] _ (reads_nothing n) hpairs

/-- Sources have no repetitions, so sorting orders them strictly. -/
theorem Reads.pairwise_sources (h : as.Reads n pairs) (i : Nat) :
    (row (as.sources.map (·.mergeSort (· ≤ ·))) i).Pairwise (· < ·) := by
  rw [row_map _ _ (by simp)]
  have hnodup : ((row as.sources i).map id).Nodup := by simpa using h.sources_nodup i
  refine pairwise_mergeSort_of_nodup ?_ ?_ ?_ hnodup
  · intro a b c
    simpa using Nat.le_trans
  · intro a b
    simpa using Nat.le_total a b
  · intro a b hle hne
    exact Nat.lt_of_le_of_ne (of_decide_eq_true hle) hne

theorem Reads.mem_sorted_sources (h : as.Reads n pairs) (i j : Nat) :
    j ∈ row (as.sources.map (·.mergeSort (· ≤ ·))) i ↔ i ∈ row as.targets j := by
  rw [row_map _ _ (by simp), List.mem_mergeSort, h.mem_sources]

/-! ## Arrows in another order -/

theorem eq_of_row_eq {rows rows' : List (List Nat)} (hlen : rows.length = rows'.length)
    (h : ∀ i, row rows i = row rows' i) : rows = rows' := by
  refine List.ext_getElem hlen fun i hi hi' => ?_
  have := h i
  simpa only [row, List.getElem?_eq_getElem hi, List.getElem?_eq_getElem hi',
    Option.getD_some] using this

/-- The order and the repetitions of the arrows do not matter. -/
theorem Reads.congr {as' : Arrows} {pairs' : List (Nat × Nat)} (h : as.Reads n pairs)
    (h' : as'.Reads n pairs') (hpairs : ∀ p, p ∈ pairs ↔ p ∈ pairs') :
    as.targets = as'.targets ∧
      as.sources.map (·.mergeSort (· ≤ ·)) = as'.sources.map (·.mergeSort (· ≤ ·)) ∧
      as.loops = as'.loops := by
  have htargets : ∀ i j, j ∈ row as.targets i ↔ j ∈ row as'.targets i := by
    intro i j
    rw [h.mem_targets, h'.mem_targets, hpairs]
  refine ⟨eq_of_row_eq (h.length_targets.trans h'.length_targets.symm) fun i => ?_,
    eq_of_row_eq ?_ fun i => ?_, ?_⟩
  · exact List.Pairwise.eq_of_mem_iff (h.targets_ascending i) (h'.targets_ascending i) (htargets i)
  · simp only [List.length_map, h.length_sources, h'.length_sources]
  · refine List.Pairwise.eq_of_mem_iff (h.pairwise_sources i) (h'.pairwise_sources i) ?_
    intro j
    rw [h.mem_sorted_sources, h'.mem_sorted_sources, htargets]
  · refine List.Pairwise.eq_of_mem_iff h.loops_ascending h'.loops_ascending ?_
    intro i
    rw [h.mem_loops, h'.mem_loops, hpairs]

end Arrows

end Deadwood
