import Deadwood.Decimal.Layout

/-!
# JSON values

A JSON document as data. Numbers keep the text they are written with, so that an integer of any
size and a fraction of any precision survive; objects keep the order of their fields.

## Main definitions

* `Json`: a value.
* `Json.int`, `Json.float`: numbers by their value.
* `Json.field?`: a field of an object.
-/

namespace Deadwood

inductive Json where
  | null
  | bool (b : Bool)
  /-- A number by its digits. -/
  | number (digits : String)
  | text (s : String)
  | list (items : List Json)
  | object (fields : List (String × Json))
  deriving Inhabited, Repr

namespace Json

def int (i : Int) : Json :=
  .number (Decimal.intText i)

def nat (n : Nat) : Json :=
  .number (Decimal.digitText n)

def float (x : Float) : Json :=
  .number (Layout.json.text x)

def texts (ss : List String) : Json :=
  .list (ss.map .text)

/-- The first field with this name, if the value is an object that has one. -/
def field? (name : String) : Json → Option Json
  | .object fields => fields.lookup name
  | _ => none

def textUnlessEmpty (name value : String) : List (String × Json) :=
  if value = "" then [] else [(name, .text value)]

def flagIfTrue (name : String) (value : Bool) : List (String × Json) :=
  if value then [(name, .bool true)] else []

def intUnlessZero (name : String) (value : Int) : List (String × Json) :=
  if value = 0 then [] else [(name, .int value)]

def listOrNull (items : List Json) : Json :=
  if items.isEmpty then .null else .list items

end Json

end Deadwood
