import Deadwood.Json.Record
import Deadwood.Text.Base64

/-!
# Access to JSON documents

Lenient access by field name, for documents whose missing fields have an obvious meaning: an empty
text or list, `false`, zero.

## Main definitions

* `Json.get`, `Json.has`: a field by its name.
* `Json.textAt`, `Json.flagAt`, `Json.intAt`, `Json.itemsAt`, …: fields of a kind.
* `Json.mapTexts`, `Json.allTexts`: all texts of a document.
* `Json.ofBytes`, `Json.asBytes`: bytes, as a text if they are valid UTF-8 and otherwise in base 64.
-/

namespace Deadwood.Json

def get (v : Json) (name : String) : Json :=
  (v.field? name).getD .null

def has (v : Json) (name : String) : Bool :=
  match v.get name with
  | .null => false
  | _ => true

def asText : Json → String
  | .text s => s
  | _ => ""

def asInt (v : Json) : Int :=
  (Reader.int [v] 0).getD 0

def asItems : Json → List Json
  | .list vs => vs
  | _ => []

def asFields : Json → List (String × Json)
  | .object fs => fs
  | _ => []

def asFlag? : Json → Option Bool
  | .bool b => some b
  | _ => none

def textAt (v : Json) (name : String) : String :=
  (v.get name).asText

def flagAt (v : Json) (name : String) : Bool :=
  (v.get name).asFlag?.getD false

def intAt (v : Json) (name : String) : Int :=
  (v.get name).asInt

def floatAt (v : Json) (name : String) : Float :=
  (Reader.float [v.get name] 0).getD 0

def itemsAt (v : Json) (name : String) : List Json :=
  (v.get name).asItems

def textsAt (v : Json) (name : String) : List String :=
  (v.itemsAt name).map asText

def fieldsAt (v : Json) (name : String) : List (String × Json) :=
  (v.get name).asFields

/-- A record read over a blank one, which stays if the record cannot be read. -/
def read {α : Type} (r : Reader α) (blank : α) (v : Json) : α :=
  (r [v] blank).getD blank

def recordsAt {α : Type} (v : Json) (name : String) (r : Reader α) (blank : α) : List α :=
  (v.itemsAt name).map (read r blank)

/-! ## All texts -/

mutual

def mapTexts (f : String → String) : Json → Json
  | .text s => .text (f s)
  | .list vs => .list (mapItemTexts f vs)
  | .object fs => .object (mapFieldTexts f fs)
  | v => v

def mapItemTexts (f : String → String) : List Json → List Json
  | [] => []
  | v :: vs => mapTexts f v :: mapItemTexts f vs

def mapFieldTexts (f : String → String) : List (String × Json) → List (String × Json)
  | [] => []
  | (k, v) :: fs => (f k, mapTexts f v) :: mapFieldTexts f fs

end

mutual

def allTexts : Json → List String
  | .text s => [s]
  | .list vs => allItemTexts vs
  | .object fs => allFieldTexts fs
  | _ => []

def allItemTexts : List Json → List String
  | [] => []
  | v :: vs => allTexts v ++ allItemTexts vs

def allFieldTexts : List (String × Json) → List String
  | [] => []
  | (k, v) :: fs => k :: allTexts v ++ allFieldTexts fs

end

def ofBytes (bs : Bytes) : Json :=
  match Text.ofUtf8? bs with
  | some s => .text s
  | none => .object [("b64", .text (Base64.encode bs))]

def asBytes : Json → Bytes
  | .text s => Text.utf8 s
  | v => Base64.decode (v.textAt "b64")

end Deadwood.Json
