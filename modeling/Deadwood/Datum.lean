import Deadwood.Decimal.Layout
import Deadwood.Json.Basic
import Deadwood.Numeral

/-!
# Data of a settings file

Settings are written in several formats; all of them give the same kind of data. A setting takes a
value of another kind where the meaning is clear: a text that spells a number, a number for a truth
value, a single value for a list.

## Main definitions

* `Datum`: the data that a settings file can hold.
* `Datum.ofJson?`: the data of a JSON value.
* `Datum.int?`, `Datum.float?`, `Datum.bool?`, `Datum.text?`: lenient conversions.
* `Datum.entries?`, `Datum.items`: tables and lists.
-/

namespace Deadwood

/-- The data that a settings file can hold. -/
inductive Datum where
  | null
  | bool (b : Bool)
  /-- An integer; formats admit those from `-2 ^ 63` to `2 ^ 64 - 1`. -/
  | int (i : Int)
  | float (x : Float)
  | text (s : String)
  /-- A date or a time, which no setting takes. -/
  | moment
  | list (items : List Datum)
  | table (entries : List (String × Datum))
  deriving Inhabited

/-- Round a floating-point number toward zero; what does not fit into 64 bits becomes the least
integer. -/
def Word.ofFloat (x : Float) : Int :=
  match Binary.ofFloat? x with
  | none => -Word.bound
  | some b =>
    if 64 < b.exponent then -Word.bound
    else
      let r := Binary.scaled b.mantissa b.exponent
      let i : Int := if b.negative then -(r.num / r.den : Nat) else (r.num / r.den : Nat)
      if -Word.bound ≤ i ∧ i < Word.bound then i else -Word.bound

namespace Datum

mutual

/-- The data of a JSON value; `none` if a number is too large. -/
def ofJson? : Json → Option Datum
  | .null => some .null
  | .bool b => some (.bool b)
  | .number ds => (Numeral.float ds).toOption.map .float
  | .text s => some (.text s)
  | .list vs => (ofJsonItems? vs).map .list
  | .object fs => (ofJsonFields? fs).map .table

def ofJsonItems? : List Json → Option (List Datum)
  | [] => some []
  | v :: vs => do
    let d ← ofJson? v
    let ds ← ofJsonItems? vs
    return d :: ds

/-- The last of several fields with one name counts, so it is put first. -/
def ofJsonFields? : List (String × Json) → Option (List (String × Datum))
  | [] => some []
  | (k, v) :: fs => do
    let d ← ofJson? v
    let ds ← ofJsonFields? fs
    return if (ds.lookup k).isSome then ds else (k, d) :: ds

end

/-! ## Conversions -/

def int? : Datum → Option Int
  | .bool b => some (if b then 1 else 0)
  | .int i => some (Word.wrap i)
  | .float x => some (Word.ofFloat x)
  | .text s => (Numeral.int (if s = "" then "0" else s)).toOption
  | _ => none

def float? : Datum → Option Float
  | .bool b => some (if b then 1 else 0)
  | .int i => some (Float.ofInt i)
  | .float x => some x
  | .text s => (Numeral.float (if s = "" then "0" else s)).toOption
  | _ => none

def bool? : Datum → Option Bool
  | .bool b => some b
  | .int i => some (i ≠ 0)
  | .float x => some (x != 0)
  | .text s => if s = "" then some false else Numeral.truth? s
  | _ => none

def text? : Datum → Option String
  | .bool b => some (if b then "1" else "0")
  | .int i => some (Decimal.intText i)
  | .float x => some (Layout.exact.text x)
  | .text s => some s
  | _ => none

/-- The entries of a table; a date has none that any setting knows. -/
def entries? : Datum → Option (List (String × Datum))
  | .table es => some es
  | .moment => some []
  | _ => none

/-- The items of a list. An empty table is an empty list, and everything else is a list of one. -/
def items : Datum → List Datum
  | .list ds => ds
  | .table [] => []
  | d => [d]

/-- The entry with a name: the one spelt exactly so, else one that differs in case only. -/
def named? (name : String) (entries : List (String × Datum)) : Option Datum :=
  match entries.lookup name with
  | some d => some d
  | none => (entries.find? fun e => Text.sameFold e.1 name).map (·.2)

end Datum

end Deadwood
