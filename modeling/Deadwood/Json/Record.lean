import Deadwood.Json.Basic
import Deadwood.Numeral
import Deadwood.Text.Case

/-!
# Reading records from JSON

A reader takes all values that were given for one place, in their order, over an earlier value:
`null` and missing fields leave what is there. The items of a list are read over the items that
earlier lists had at the same position, also if a shorter list came between; `null` and the empty
list forget them. Field names are matched exactly if possible and otherwise without regard to case;
unknown fields are ignored. A value of the wrong kind makes the whole reading fail.

## Main definitions

* `Reader`: reading over an earlier value.
* `Reader.record`: a record by its fields.
* `Reader.list`, `Reader.optional`: lists and values that may be missing.
* `Reader.text`, `Reader.int`, …: plain values.
-/

namespace Deadwood.Json

/-- How the values that are given one after the other for a place change a value of another type;
`none` if the kind of one of them is wrong. -/
abbrev Reader (α : Type) := List Json → α → Option α

namespace Reader

def each {α : Type} (read : Json → α → Option α) : Reader α :=
  fun vs old => vs.foldlM (fun a v => read v a) old

def text : Reader String :=
  each fun
    | .null, old => some old
    | .text s, _ => some s
    | _, _ => none

def bool : Reader Bool :=
  each fun
    | .null, old => some old
    | .bool b, _ => some b
    | _, _ => none

/-- Integers of 64 bits, written without point and exponent. -/
def int : Reader Int :=
  each fun
    | .null, old => some old
    | .number ds, _ => (Numeral.decimalInt ds).toOption
    | _, _ => none

def natBelow (bound : Nat) : Reader Nat :=
  each fun
    | .null, old => some old
    | .number ds, _ => do
      let n ← Numeral.natOfDigits? 10 ds.toList
      if n < bound then some n else none
    | _, _ => none

def float : Reader Float :=
  each fun
    | .null, old => some old
    | .number ds, _ => (Numeral.float ds).toOption
    | _, _ => none

/-! ## Values that may be missing -/

/-- Read the values that came since the last `null`, if there are any. -/
def settle {α : Type} (zero : α) (read : Reader α) (given : List Json) (old : Option α) :
    Option (Option α) :=
  if given.isEmpty then some old else (read given (old.getD zero)).map some

/-- A value that may be missing; `null` removes it. -/
def optional {α : Type} (zero : α) (read : Reader α) : Reader (Option α) := fun vs old => do
  let (given, old) ← vs.foldlM (fun (given, old) v =>
    match v with
    | .null => (settle zero read given old).map fun _ => ([], none)
    | v => some (given ++ [v], old)) (([] : List Json), old)
  settle zero read given old

/-! ## Lists -/

/-- The values at each of the first positions of some lists. -/
def columns : Nat → List (List Json) → List (List Json)
  | 0, _ => []
  | n + 1, rows => rows.filterMap List.head? :: columns n (rows.map List.tail)

/-- Read values over the items of a list, and further ones over `zero`. -/
def readOver {α : Type} (zero : α) (read : Reader α) : List (List Json) → List α → Option (List α)
  | [], old => some old
  | vs :: rest, old => do
    let a ← read vs (old.head?.getD zero)
    let as ← readOver zero read rest old.tail
    return a :: as

/-- The lists that were given since the items were forgotten, what the items were then, and how many
items the last list has. -/
structure Pending (α : Type) where
  rows : List (List Json) := []
  old : List α
  shown : Option Nat

/-- All items that the lists have had, also those behind the end of the last one. -/
def Pending.items {α : Type} (zero : α) (read : Reader α) (p : Pending α) : Option (List α) :=
  readOver zero read (columns ((p.rows.map List.length).foldl max 0) p.rows) p.old

def Pending.add {α : Type} (zero : α) (read : Reader α) (p : Pending α) :
    Json → Option (Pending α)
  | .null => (p.items zero read).map fun _ => ⟨[], [], none⟩
  | .list [] => (p.items zero read).map fun _ => ⟨[], [], some 0⟩
  | .list vs => some { p with rows := p.rows ++ [vs], shown := some vs.length }
  | _ => none

/-- A list that may be missing; `null` removes it. -/
def list {α : Type} (zero : α) (read : Reader α) : Reader (Option (List α)) := fun vs old => do
  let p ← vs.foldlM (Pending.add zero read) ⟨[], old.getD [], old.map List.length⟩
  let all ← p.items zero read
  return p.shown.map all.take

/-! ## Records -/

structure Field (α : Type) where
  name : String
  read : Reader α

/-- The field that a name means: the one spelt exactly so, else one that differs in case only. -/
def fieldFor? {α : Type} (fields : List (Field α)) (name : String) : Option (Field α) :=
  match fields.find? (·.name = name) with
  | some f => some f
  | none => fields.find? (fun f => Text.sameFold f.name name)

def allFields (vs : List Json) : Option (List (String × Json)) :=
  vs.foldlM (fun given v =>
    match v with
    | .null => some given
    | .object fs => some (given ++ fs)
    | _ => none) []

/-- A record: every known field takes the values that were given for it. -/
def record {α : Type} (fields : List (Field α)) : Reader α := fun vs old => do
  let given ← allFields vs
  let known := given.filterMap fun (name, v) => (fieldFor? fields name).map fun f => (f.name, v)
  fields.foldlM (fun acc f =>
    match known.filterMap fun (name, v) => if name = f.name then some v else none with
    | [] => some acc
    | values => f.read values acc) old

def at_ {α β : Type} (name : String) (read : Reader β) (get : α → β) (set : α → β → α) : Field α :=
  ⟨name, fun vs a => (read vs (get a)).map (set a)⟩

end Reader

end Deadwood.Json
