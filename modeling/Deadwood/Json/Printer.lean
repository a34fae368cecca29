import Deadwood.Json.Basic
import Deadwood.Text.Quoted

/-!
# Writing JSON

Values are written either on one line or with one item a line, indented by two blanks a level.
Inside texts the characters that are special in HTML, and the two line separators of Unicode, are
written by escapes.

## Main definitions

* `Json.compact`: the text on one line.
* `Json.pretty`: the text over several lines.
-/

namespace Deadwood.Json

def escapedChar (c : Char) : String :=
  match c.toNat with
  | 0x22 => "\\\""
  | 0x5C => "\\\\"
  | 0x08 => "\\b"
  | 0x0C => "\\f"
  | 0x0A => "\\n"
  | 0x0D => "\\r"
  | 0x09 => "\\t"
  | n =>
    if n < 0x20 ∨ n = 0x3C ∨ n = 0x3E ∨ n = 0x26 ∨ n = 0x2028 ∨ n = 0x2029 then
      "\\u" ++ Text.hexDigits 4 n
    else String.singleton c

def textLiteral (s : String) : String :=
  "\"" ++ String.join (s.toList.map escapedChar) ++ "\""

mutual

def compact : Json → String
  | .null => "null"
  | .bool b => if b then "true" else "false"
  | .number digits => digits
  | .text s => textLiteral s
  | .list items => "[" ++ compactItems items ++ "]"
  | .object fields => "\x7b" ++ compactFields fields ++ "\x7d"

def compactItems : List Json → String
  | [] => ""
  | [v] => compact v
  | v :: w :: rest => compact v ++ "," ++ compactItems (w :: rest)

def compactFields : List (String × Json) → String
  | [] => ""
  | [(k, v)] => textLiteral k ++ ":" ++ compact v
  | (k, v) :: f :: rest => textLiteral k ++ ":" ++ compact v ++ "," ++ compactFields (f :: rest)

end

def margin (level : Nat) : String :=
  "\n" ++ String.ofList (List.replicate (2 * level) ' ')

mutual

/-- The text of a value whose own lines are indented by `level` steps. -/
def prettyAt (level : Nat) : Json → String
  | .null => "null"
  | .bool b => if b then "true" else "false"
  | .number digits => digits
  | .text s => textLiteral s
  | .list [] => "[]"
  | .list (v :: rest) =>
    "[" ++ margin (level + 1) ++ prettyAt (level + 1) v ++ prettyItems (level + 1) rest
      ++ margin level ++ "]"
  | .object [] => "\x7b\x7d"
  | .object ((k, v) :: rest) =>
    "\x7b" ++ margin (level + 1) ++ textLiteral k ++ ": " ++ prettyAt (level + 1) v
      ++ prettyFields (level + 1) rest ++ margin level ++ "\x7d"

def prettyItems (level : Nat) : List Json → String
  | [] => ""
  | v :: rest => "," ++ margin level ++ prettyAt level v ++ prettyItems level rest

def prettyFields (level : Nat) : List (String × Json) → String
  | [] => ""
  | (k, v) :: rest =>
    "," ++ margin level ++ textLiteral k ++ ": " ++ prettyAt level v ++ prettyFields level rest

end

def pretty (v : Json) : String :=
  prettyAt 0 v

end Deadwood.Json
