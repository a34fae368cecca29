import Deadwood.Sorted

/-!
# Memo tables

A memo table remembers the first value that was computed for each key. The tables of a run have
names, and each holds values of one type; asking for a table under another type starts it afresh.

## Main definitions

* `Memo`, `Memo.get?`, `Memo.set`, `Memo.getOrCompute`: one table.
* `MemoTables`: the tables of a run by name.
-/

namespace Deadwood

/-- A table of remembered values. The keys are texts unless it is said otherwise. -/
structure Memo (α : Type) (κ : Type := String) where
  /-- Every key at most once. -/
  entries : List (κ × α) := []

namespace Memo

variable {α κ : Type}

def empty : Memo α κ := {}

def size (m : Memo α κ) : Nat :=
  m.entries.length

variable [DecidableEq κ]

def get? (m : Memo α κ) (key : κ) : Option α :=
  m.entries.lookup key

/-- Remember a value, in place of any earlier one. -/
def set (m : Memo α κ) (key : κ) (value : α) : Memo α κ :=
  ⟨assign key value m.entries⟩

/-- Remember a value unless there is one already. Answers the value that is remembered then. -/
def store (m : Memo α κ) (key : κ) (value : α) : α × Memo α κ :=
  match m.get? key with
  | some v => (v, m)
  | none => (value, m.set key value)

/-- The remembered value, or else the computed one, which is then remembered. The computation may
itself change the table; a value that it remembers for the key counts before the one it answers. -/
def getOrCompute (m : Memo α κ) (key : κ) (compute : Memo α κ → α × Memo α κ) : α × Memo α κ :=
  match m.get? key with
  | some v => (v, m)
  | none =>
    let (v, m) := compute m
    m.store key v

end Memo

/-- Named tables, each for values of one of the types `Value t`. -/
structure MemoTables (τ : Type) (Value : τ → Type) where
  tables : List (String × (t : τ) × Memo (Value t)) := []

namespace MemoTables

variable {τ : Type} [DecidableEq τ] {Value : τ → Type}

/-- The table of a name; empty if there is none or it holds values of another type. -/
def table (ts : MemoTables τ Value) (name : String) (t : τ) : Memo (Value t) :=
  match ts.tables.lookup name with
  | some ⟨u, m⟩ => if h : u = t then h ▸ m else {}
  | none => {}

def put (ts : MemoTables τ Value) (name : String) (t : τ) (m : Memo (Value t)) :
    MemoTables τ Value :=
  ⟨assign name ⟨t, m⟩ ts.tables⟩

end MemoTables

end Deadwood
