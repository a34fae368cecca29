import Mathlib.Data.List.Chain
import Mathlib.Data.List.Rotate

/-!
# Simple cycles

A simple cycle of a relation is a list without repeats in which each element is related to the next
one and the last to the first. It may be read from any of its elements on; the reading that starts
at the least one stands for all of them.

## Main definitions

* `IsSimpleCycle`: the simple cycles of a relation.
* `StartsLeast`: the reading from the least element on.

## Main results

* `IsSimpleCycle.of_isRotated`: every reading of a simple cycle is one.
* `exists_isRotated_startsLeast`, `StartsLeast.eq_of_isRotated`: exactly one of them starts at the
  least element.
-/

namespace Deadwood

variable {α β : Type} {r : α → α → Prop} {a : α} {c d l : List α}

/-- A list without repeats along a relation that leads from its last element back to its first. -/
structure IsSimpleCycle (r : α → α → Prop) (c : List α) : Prop where
  nonempty : c ≠ []
  nodup : c.Nodup
  path : c.IsChain r
  closes : r (c.getLast nonempty) (c.head nonempty)

/-- A simple cycle with its first element repeated at the end is a walk. -/
theorem isSimpleCycle_cons :
    IsSimpleCycle r (a :: l) ↔ (a :: l).Nodup ∧ (a :: l ++ [a]).IsChain r := by
  have hlast : (a :: l).getLast? = some ((a :: l).getLast (List.cons_ne_nil a l)) :=
    List.getLast?_eq_getLast_of_ne_nil _
  rw [List.isChain_append, hlast]
  constructor
  · intro h
    refine ⟨h.nodup, h.path, List.isChain_singleton a, ?_⟩
    rintro _ ⟨⟩ _ ⟨⟩
    exact h.closes
  · rintro ⟨hnodup, hpath, -, hcloses⟩
    exact ⟨List.cons_ne_nil a l, hnodup, hpath, hcloses _ rfl a rfl⟩

theorem IsSimpleCycle.append_comm (h : IsSimpleCycle r (c ++ d)) : IsSimpleCycle r (d ++ c) := by
  by_cases hc : c = []
  · simpa [hc] using h
  by_cases hd : d = []
  · simpa [hd] using h
  obtain ⟨hpathc, hpathd, -⟩ := List.isChain_append.mp h.path
  have hcloses : r (d.getLast hd) (c.head hc) := by
    simpa [List.getLast_append_of_ne_nil, List.head_append_of_ne_nil, hc, hd] using h.closes
  refine ⟨by simp [hc], (List.perm_append_comm.nodup_iff).mp h.nodup,
    List.isChain_append.mpr ⟨hpathd, hpathc, ?_⟩, ?_⟩
  · intro x hx y hy
    rw [List.getLast?_eq_getLast_of_ne_nil hd] at hx
    rw [List.head?_eq_some_head hc] at hy
    obtain rfl := Option.some.inj hx
    obtain rfl := Option.some.inj hy
    exact hcloses
  · have hjoin := h.path.rel_getLast_head_of_append hc hd
    simpa [List.getLast_append_of_ne_nil, List.head_append_of_ne_nil, hc, hd] using hjoin

/-- Rotating a list exchanges its two parts. -/
theorem exists_append_of_isRotated (h : c ~r d) : ∃ p q, c = p ++ q ∧ d = q ++ p := by
  obtain ⟨n, hn, rfl⟩ := List.isRotated_iff_mod.mp h
  exact ⟨c.take n, c.drop n, (List.take_append_drop n c).symm, List.rotate_eq_drop_append_take hn⟩

theorem IsSimpleCycle.of_isRotated (h : IsSimpleCycle r c) (hcd : c ~r d) : IsSimpleCycle r d := by
  obtain ⟨p, q, rfl, rfl⟩ := exists_append_of_isRotated hcd
  exact h.append_comm

theorem IsSimpleCycle.mono {s : α → α → Prop} (h : IsSimpleCycle r c) (hrs : ∀ a b, r a b → s a b) :
    IsSimpleCycle s c :=
  ⟨h.nonempty, h.nodup, h.path.imp hrs, hrs _ _ h.closes⟩

/-- A function that keeps elements apart takes simple cycles to simple cycles. -/
theorem IsSimpleCycle.map {f : α → β} {s : β → β → Prop} (h : IsSimpleCycle r c)
    (hf : ∀ a ∈ c, ∀ b ∈ c, f a = f b → a = b) (hrs : ∀ a b, r a b → s (f a) (f b)) :
    IsSimpleCycle s (c.map f) where
  nonempty := by simpa using h.nonempty
  nodup := (List.nodup_map_iff_inj_on h.nodup).mpr hf
  path := (List.isChain_map f).mpr (h.path.imp hrs)
  closes := by simpa using hrs _ _ h.closes

theorem IsSimpleCycle.of_map {f : α → β} {s : β → β → Prop} (h : IsSimpleCycle s (c.map f)) :
    IsSimpleCycle (fun a b => a ∈ c ∧ b ∈ c ∧ s (f a) (f b)) c where
  nonempty := by simpa using h.nonempty
  nodup := h.nodup.of_map
  path := ((List.isChain_map f).mp h.path).imp_of_mem_imp fun _ _ ha hb hab => ⟨ha, hb, hab⟩
  closes := ⟨List.getLast_mem _, List.head_mem _, by simpa using h.closes⟩

/-- Neighbours on a cycle of two or more elements differ. -/
theorem IsSimpleCycle.and_ne (h : IsSimpleCycle r c) (hlen : 2 ≤ c.length) :
    IsSimpleCycle (fun a b => r a b ∧ b ≠ a) c where
  nonempty := h.nonempty
  nodup := h.nodup
  path := by
    rw [List.isChain_iff_getElem]
    intro i hi
    refine ⟨List.isChain_iff_getElem.mp h.path i hi, fun heq => ?_⟩
    have := (h.nodup.getElem_inj_iff).mp heq
    omega
  closes := by
    refine ⟨h.closes, fun heq => ?_⟩
    rw [List.head_eq_getElem, List.getLast_eq_getElem] at heq
    have := (h.nodup.getElem_inj_iff).mp heq
    omega

section Reading

variable {x y : α}

/-- A cycle may be read from any of its elements on. -/
theorem IsSimpleCycle.exists_cons (h : IsSimpleCycle r c) (hx : x ∈ c) :
    ∃ l, IsSimpleCycle r (x :: l) ∧ ∀ y, y ∈ c ↔ y ∈ x :: l := by
  obtain ⟨p, q, rfl⟩ := List.append_of_mem hx
  exact ⟨q ++ p, h.append_comm, fun y => List.perm_append_comm.mem_iff⟩

theorem IsSimpleCycle.reflTransGen (h : IsSimpleCycle r c) (hx : x ∈ c) (hy : y ∈ c) :
    Relation.ReflTransGen r x y := by
  obtain ⟨l, hl, hmem⟩ := h.exists_cons hx
  exact hl.path.induction (Relation.ReflTransGen r x ·) _ (fun _ _ hab ha => ha.tail hab)
    (fun _ => .refl) y ((hmem y).mp hy)

theorem IsSimpleCycle.exists_rel (h : IsSimpleCycle r c) (hx : x ∈ c) : ∃ y, r x y := by
  obtain ⟨l, hl, -⟩ := h.exists_cons hx
  obtain ⟨-, hchain⟩ := isSimpleCycle_cons.mp hl
  cases l with
  | nil => exact ⟨x, hchain.rel⟩
  | cons y l => exact ⟨y, hchain.rel⟩

end Reading

/-! ## The reading that starts at the least element -/

/-- No element comes before the first one. -/
def StartsLeast [LE α] (c : List α) : Prop :=
  ∀ a ∈ c.head?, ∀ b ∈ c, a ≤ b

theorem startsLeast_cons {n : Nat} {l : List Nat} (h : (n :: l).Nodup) :
    StartsLeast (n :: l) ↔ ∀ x ∈ l, n < x := by
  constructor
  · intro hleast x hx
    have hle : n ≤ x := hleast n rfl x (List.mem_cons_of_mem n hx)
    exact Nat.lt_of_le_of_ne hle fun heq => (List.nodup_cons.mp h).1 (heq ▸ hx)
  · rintro hlt _ ⟨⟩ b (_ | ⟨_, hb⟩)
    · exact Nat.le_refl n
    · exact Nat.le_of_lt (hlt b hb)

theorem exists_isRotated_startsLeast {c : List Nat} (h : c ≠ []) :
    ∃ d, c ~r d ∧ StartsLeast d := by
  obtain ⟨p, q, hsplit⟩ := List.append_of_mem (List.min_mem h)
  refine ⟨(c.min h :: q) ++ p, ?_, ?_⟩
  · nth_rw 1 [hsplit]
    exact List.isRotated_append
  · rintro _ ⟨⟩ b hb
    refine List.min_le_of_mem ?_
    rw [hsplit]
    exact List.perm_append_comm.mem_iff.mp hb

/-- Two readings of one cycle from the same element on are equal. -/
theorem eq_of_isRotated_of_head?_eq (hnodup : c.Nodup) (hcd : c ~r d) (hhead : c.head? = d.head?) :
    c = d := by
  obtain ⟨p, q, rfl, rfl⟩ := exists_append_of_isRotated hcd
  cases p with
  | nil => simp
  | cons a p =>
    cases q with
    | nil => simp
    | cons b q =>
      obtain rfl : a = b := by simpa using hhead
      simp at hnodup

theorem StartsLeast.eq_of_isRotated [LE α] [Std.IsPartialOrder α] (hc : StartsLeast c)
    (hd : StartsLeast d) (hnodup : c.Nodup) (hcd : c ~r d) : c = d := by
  refine eq_of_isRotated_of_head?_eq hnodup hcd ?_
  cases c with
  | nil => simp [List.isRotated_nil_iff'.mp hcd]
  | cons a c =>
    cases d with
    | nil => simp at hcd
    | cons b d =>
      have hab : a ≤ b := hc a rfl b (hcd.mem_iff.mpr List.mem_cons_self)
      have hba : b ≤ a := hd b rfl a (hcd.mem_iff.mp List.mem_cons_self)
      rw [List.head?_cons, List.head?_cons, Std.le_antisymm hab hba]

end Deadwood
