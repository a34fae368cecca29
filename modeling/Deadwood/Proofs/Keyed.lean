import Deadwood.Proofs.Sorted
import Mathlib.Data.List.Nodup

/-!
# Items with distinct keys

If no two items of a list have the same key, an item is found by its key wherever it stands, and
there is only one way to order the items by their keys.

## Main results

* `find?_key_eq_some`, `find?_key_perm`, `length_filter_key_le_one`: items are found by their keys.
* `sortedBy_key`, `sortedBy_key_perm`: every way to sort by keys gives the same list.
* `pairwise_mergeSort_of_nodup`, `pairwise_mergeSort_key`: sorted lists are sorted strictly.
-/

namespace Deadwood

theorem nodup_keys_concat {α κ : Type} [BEq κ] [LawfulBEq κ] {key : α → κ} {as : List α} {a : α} :
    ((as ++ [a]).map key).Nodup ↔
      (as.map key).Nodup ∧ (as.map key).contains (key a) = false := by
  rw [List.map_append, List.map_singleton, ← List.concat_eq_append, List.nodup_concat, and_comm]
  simp

section Find

variable {α κ : Type} [DecidableEq κ] {key : α → κ} {as bs : List α} {k : κ}

theorem find?_key_eq_some (hkeys : (as.map key).Nodup) {a : α} :
    as.find? (key · = k) = some a ↔ a ∈ as ∧ key a = k := by
  constructor
  · intro h
    exact ⟨List.mem_of_find?_eq_some h, by simpa using List.find?_some h⟩
  · rintro ⟨ha, rfl⟩
    obtain ⟨b, hb⟩ : ∃ b, as.find? (key · = key a) = some b :=
      Option.isSome_iff_exists.mp (List.find?_isSome.mpr ⟨a, ha, by simp⟩)
    have hkey : key b = key a := by simpa using List.find?_some hb
    rw [hb, List.inj_on_of_nodup_map hkeys (List.mem_of_find?_eq_some hb) ha hkey]

theorem find?_key_eq_none (hk : k ∉ as.map key) : as.find? (key · = k) = none := by
  rw [List.find?_eq_none]
  intro a ha
  have hne : key a ≠ k := fun heq => hk (List.mem_map.mpr ⟨a, ha, heq⟩)
  simpa using hne

/-- Items are found alike in any order. -/
theorem find?_key_perm (hperm : as.Perm bs) (hkeys : (as.map key).Nodup) (k : κ) :
    as.find? (key · = k) = bs.find? (key · = k) := by
  have hkeys' : (bs.map key).Nodup := (hperm.map key).nodup hkeys
  refine Option.ext fun a => ?_
  rw [find?_key_eq_some hkeys, find?_key_eq_some hkeys', hperm.mem_iff]

/-- No two items have the same key. -/
theorem length_filter_key_le_one (hkeys : (as.map key).Nodup) (k : κ) :
    (as.filter (key · = k)).length ≤ 1 := by
  have hcount : (as.filter (key · = k)).length = (as.map key).count k := by
    rw [List.count_eq_countP, List.countP_map, List.countP_eq_length_filter]
    rfl
  rw [hcount]
  exact List.nodup_iff_count_le_one.mp hkeys k

end Find

/-- If an order and the keys together decide what comes first, items with different keys are sorted
strictly. -/
theorem pairwise_mergeSort_of_nodup {α κ : Type} {key : α → κ} {le : α → α → Bool}
    {Before : α → α → Prop} (htrans : ∀ a b c, le a b → le b c → le a c)
    (htotal : ∀ a b, le a b || le b a) (hbefore : ∀ a b, le a b → key a ≠ key b → Before a b)
    {as : List α} (hkeys : (as.map key).Nodup) : (as.mergeSort le).Pairwise Before := by
  have hkeys' : ((as.mergeSort le).map key).Nodup :=
    ((List.mergeSort_perm as le).map key).symm.nodup hkeys
  exact (List.pairwise_mergeSort htrans htotal as).imp₂ hbefore (List.pairwise_map.mp hkeys')

section Ordering

variable {α κ : Type} [LE κ] [DecidableLE κ] [Std.IsLinearOrder κ] {key : α → κ}

theorem pairwise_key_le_mergeSort (as : List α) :
    (as.mergeSort fun a b => key a ≤ key b).Pairwise fun a b => key a ≤ key b := by
  have hsorted : (as.mergeSort fun a b => key a ≤ key b).Pairwise
      fun a b => decide (key a ≤ key b) = true :=
    List.pairwise_mergeSort (fun a b c => by simpa using Std.le_trans)
      (fun a b => by simpa using Std.le_total) as
  exact hsorted.imp of_decide_eq_true

variable [LT κ] [DecidableLT κ] [Std.LawfulOrderLT κ]

theorem pairwise_key_le_sortedBy (as : List α) :
    (sortedBy (fun a b => key a < key b) as).Pairwise fun a b => key a ≤ key b := by
  have hle : ∀ a b, (!decide (key b < key a)) = decide (key a ≤ key b) := by
    intro a b
    rw [← decide_not]
    exact decide_eq_decide.mpr Std.not_lt
  simp only [sortedBy, hle]
  exact pairwise_key_le_mergeSort _

end Ordering

section Sorting

variable {α : Type} {key : α → String} {as : List α}

/-- Items with different keys can be ordered by their keys in one way only. -/
theorem sortedBy_key (hkeys : (as.map key).Nodup) :
    sortedBy (fun a b => key a < key b) as = as.mergeSort fun a b => key a ≤ key b := by
  have hperm := (sortedBy_perm (fun a b => key a < key b) as).trans
    (List.mergeSort_perm as fun a b => key a ≤ key b).symm
  refine hperm.eq_of_pairwise ?_ (pairwise_key_le_sortedBy as) (pairwise_key_le_mergeSort as)
  intro a b ha hb hab hba
  exact List.inj_on_of_nodup_map hkeys (mem_sortedBy.mp ha) (List.mem_mergeSort.mp hb)
    (Std.le_antisymm hab hba)

theorem pairwise_mergeSort_key (hkeys : (as.map key).Nodup) :
    (as.mergeSort fun a b => key a ≤ key b).Pairwise fun a b => key a < key b := by
  refine pairwise_mergeSort_of_nodup ?_ ?_ ?_ hkeys
  · intro a b c
    simpa using Std.le_trans
  · intro a b
    simpa using Std.le_total
  · intro a b hle hne
    exact Std.lt_of_le_of_ne (of_decide_eq_true hle) hne

/-- Sorted by their keys, items come out alike in any order. -/
theorem sortedBy_key_perm {bs : List α} (hkeys : (as.map key).Nodup) (h : as.Perm bs) :
    sortedBy (fun a b => key a < key b) as = sortedBy (fun a b => key a < key b) bs := by
  have hkeys' : (bs.map key).Nodup := (h.map key).nodup hkeys
  rw [sortedBy_key hkeys, sortedBy_key hkeys']
  have hperm := (List.mergeSort_perm as fun a b => key a ≤ key b).trans
    (h.trans (List.mergeSort_perm bs fun a b => key a ≤ key b).symm)
  refine hperm.eq_of_pairwise ?_ (pairwise_mergeSort_key hkeys) (pairwise_mergeSort_key hkeys')
  intro a b _ _ hab hba
  exact absurd hba (String.lt_asymm hab)

end Sorting

end Deadwood
