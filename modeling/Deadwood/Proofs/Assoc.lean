import Deadwood.Sorted
import Mathlib.Data.List.Basic
import Mathlib.Data.List.Nodup
import Mathlib.Tactic.SplitIfs

/-!
# Looking up in association lists

An association list is seen through its entries by key. A list that is made by giving keys their
values has every key once.

## Main results

* `lookup_assign`, `lookup_unassign`: the entries of a changed list.
* `mem_keys_assign`, `nodup_keys_assign`: its keys.
* `assign_assign`, `unassign_assign`: one change after another.
-/

namespace Deadwood

section Lookup

variable {κ α : Type} [DecidableEq κ] [BEq κ] [LawfulBEq κ]

theorem lookup_cons_if (key k : κ) (value : α) (entries : List (κ × α)) :
    ((key, value) :: entries).lookup k = if k = key then some value else entries.lookup k := by
  by_cases h : k = key
  · simp [h]
  · simp [List.lookup_cons, h, beq_eq_false_iff_ne.mpr h]

@[simp, grind =] theorem lookup_assign (key k : κ) (value : α) (entries : List (κ × α)) :
    (assign key value entries).lookup k = if k = key then some value else entries.lookup k := by
  induction entries with
  | nil => simp [assign, lookup_cons_if]
  | cons e rest ih =>
    obtain ⟨k₀, v₀⟩ := e
    by_cases h₀ : k₀ = key
    · subst h₀
      by_cases h : k = k₀ <;> simp [assign, lookup_cons_if, h]
    · by_cases h : k = k₀
      · subst h
        simp [assign, h₀]
      · simp [assign, lookup_cons_if, h₀, h, ih]

@[simp, grind =] theorem lookup_unassign (key k : κ) (entries : List (κ × α)) :
    (unassign key entries).lookup k = if k = key then none else entries.lookup k := by
  induction entries with
  | nil => simp [unassign]
  | cons e rest ih =>
    obtain ⟨k₀, v₀⟩ := e
    have tail : unassign key ((k₀, v₀) :: rest) =
        if k₀ = key then unassign key rest else (k₀, v₀) :: unassign key rest := by
      by_cases h₀ : k₀ = key <;> simp [unassign, h₀]
    rw [tail]
    by_cases h₀ : k₀ = key
    · subst h₀
      by_cases h : k = k₀
      · rw [if_pos rfl, ih, if_pos h, if_pos h]
      · simp [lookup_cons_if, h, ih]
    · by_cases h : k = k₀
      · subst h
        simp [h₀]
      · simp [lookup_cons_if, h₀, h, ih]

end Lookup

section Keys

variable {κ α : Type} [DecidableEq κ]

theorem keys_assign (key : κ) (value : α) (entries : List (κ × α)) :
    (assign key value entries).map (·.1) =
      if key ∈ entries.map (·.1) then entries.map (·.1) else entries.map (·.1) ++ [key] := by
  induction entries with
  | nil => simp [assign]
  | cons e rest ih =>
    obtain ⟨k, v⟩ := e
    by_cases h : k = key
    · simp [assign, h]
    · by_cases hrest : key ∈ rest.map (·.1) <;> simp [assign, h, Ne.symm h, ih, hrest]

@[simp] theorem mem_keys_assign {key k : κ} {value : α} {entries : List (κ × α)} :
    k ∈ (assign key value entries).map (·.1) ↔ k ∈ entries.map (·.1) ∨ k = key := by
  rw [keys_assign]
  split_ifs with h
  · exact ⟨.inl, fun hk => hk.elim id fun hk => hk ▸ h⟩
  · rw [List.mem_append, List.mem_singleton]

theorem nodup_keys_assign {key : κ} {value : α} {entries : List (κ × α)}
    (h : (entries.map (·.1)).Nodup) : ((assign key value entries).map (·.1)).Nodup := by
  rw [keys_assign]
  split_ifs with hkey
  · exact h
  · rw [← List.concat_eq_append]
    exact h.concat hkey

/-- Only the last value of a key counts. -/
@[simp] theorem assign_assign (key : κ) (value value' : α) (entries : List (κ × α)) :
    assign key value' (assign key value entries) = assign key value' entries := by
  induction entries with
  | nil => simp [assign]
  | cons e rest ih =>
    obtain ⟨k, v⟩ := e
    by_cases h : k = key <;> simp [assign, h, ih]

/-- A key that is new can be removed again. -/
theorem unassign_assign {key : κ} {entries : List (κ × α)} (h : key ∉ entries.map (·.1))
    (value : α) : unassign key (assign key value entries) = entries := by
  induction entries with
  | nil => simp [assign, unassign]
  | cons e rest ih =>
    obtain ⟨k, v⟩ := e
    obtain ⟨hne, hrest⟩ : key ≠ k ∧ key ∉ rest.map (·.1) := by simpa using h
    simp only [assign, Ne.symm hne, if_false]
    rw [unassign, List.filter_cons_of_pos (by simpa using Ne.symm hne)]
    exact congrArg _ (ih hrest)

end Keys

end Deadwood
