import Deadwood.Sorted
import Deadwood.Json.Record

/-!
# Canonical JSON documents

Documents that say the same have one canonical form: the fields of every object in ascending order,
each once, and numbers as floating-point numbers with the fewest digits that read back.

## Main definitions

* `Json.canonical`: the canonical form of a document.
-/

namespace Deadwood.Json

/-- A number in the fewest digits that read back as the same floating-point number. -/
def canonicalNumber (digits : String) : Json :=
  match Numeral.float digits with
  | .ok x => .float x
  | .error _ => .number digits

/-- Fields in ascending order. Of fields with one name the last one counts. -/
def sortedFields (fields : List (String × Json)) : List (String × Json) :=
  let kept := fields.foldl (fun fs (k, v) => assign k v fs) []
  (sortedTexts (kept.map (·.1))).map (fun k => (k, (kept.lookup k).getD .null))

mutual

def canonical : Json → Json
  | .number digits => canonicalNumber digits
  | .list items => .list (canonicalItems items)
  | .object fields => .object (sortedFields (canonicalFields fields))
  | v => v

def canonicalItems : List Json → List Json
  | [] => []
  | v :: vs => canonical v :: canonicalItems vs

def canonicalFields : List (String × Json) → List (String × Json)
  | [] => []
  | (k, v) :: fs => (k, canonical v) :: canonicalFields fs

end

end Deadwood.Json
