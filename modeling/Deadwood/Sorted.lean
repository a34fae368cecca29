/-!
# Sorted lists and association lists

Texts are ordered character by character, which is also the order of their bytes. Lists of keys and
values are read by `List.lookup`: the first entry of a key counts.

## Main definitions

* `sortedTexts`: texts in ascending order.
* `distinctTexts`: texts in ascending order, each once.
* `keepFirst`: drop every item whose key occurred before.
* `assign`, `unassign`: give a key a value, remove a key.
-/

namespace Deadwood

/-- Texts in ascending order; equal texts keep their order. -/
def sortedTexts (ss : List String) : List String :=
  ss.mergeSort (· ≤ ·)

/-- Drop every item that equals the item before it. -/
def dropRepeats {α : Type} [DecidableEq α] : List α → List α
  | [] => []
  | [a] => [a]
  | a :: b :: rest => if a = b then dropRepeats (b :: rest) else a :: dropRepeats (b :: rest)

/-- Texts in ascending order, each once. -/
def distinctTexts (ss : List String) : List String :=
  dropRepeats (sortedTexts ss)

/-- Numbers in ascending order, each once. -/
def distinctNats (ns : List Nat) : List Nat :=
  dropRepeats (ns.mergeSort (· ≤ ·))

/-- Drop every item whose key is in `seen` or occurred before. -/
def keepFirstFrom {α : Type} (key : α → String) : List String → List α → List α
  | _, [] => []
  | seen, a :: as =>
    if key a ∈ seen then keepFirstFrom key seen as
    else a :: keepFirstFrom key (key a :: seen) as

/-- The first item of every key, in the order of the list. -/
def keepFirst {α : Type} (key : α → String) (as : List α) : List α :=
  keepFirstFrom key [] as

section Entries

variable {κ α : Type} [DecidableEq κ]

/-- Put a value in the place of the first entry with its key, or at the end. -/
def assign (key : κ) (value : α) : List (κ × α) → List (κ × α)
  | [] => [(key, value)]
  | (k, v) :: rest => if k = key then (key, value) :: rest else (k, v) :: assign key value rest

def unassign (key : κ) (entries : List (κ × α)) : List (κ × α) :=
  entries.filter fun e => e.1 ≠ key

end Entries

end Deadwood
