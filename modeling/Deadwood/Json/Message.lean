import Deadwood.Json.Basic
import Deadwood.Numeral
import Deadwood.Text.Segments

/-!
# JSON values inside messages

Values are named in messages in a short form: texts without quotes, lists as `[a b]`, objects as
`map[a:1 b:2]` with ascending keys, nothing as `<nil>`.

## Main definitions

* `Json.inMessage`: the short form of a value.
-/

namespace Deadwood.Json

mutual

def inMessage : Json → String
  | .null => "<nil>"
  | .bool b => if b then "true" else "false"
  | .number ds =>
    match Numeral.float ds with
    | .ok x => Layout.message.text x
    | .error _ => ds
  | .text s => s
  | .list vs => "[" ++ Text.join " " (itemsInMessage vs) ++ "]"
  | .object fs =>
    let parts := (fieldsInMessage fs).mergeSort fun a b => a.1 ≤ b.1
    "map[" ++ Text.join " " (parts.map fun (name, v) => name ++ ":" ++ v) ++ "]"

def itemsInMessage : List Json → List String
  | [] => []
  | v :: vs => inMessage v :: itemsInMessage vs

def fieldsInMessage : List (String × Json) → List (String × String)
  | [] => []
  | (name, v) :: fs => (name, inMessage v) :: fieldsInMessage fs

end

end Deadwood.Json
