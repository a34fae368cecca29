import Deadwood.Decimal.Layout
import Deadwood.Text.Quoted
import Deadwood.Text.Segments

/-!
# Writing TOML

## Main definitions

* `Toml.textLiteral`, `Toml.floatLiteral`, `Toml.listLiteral`: values.
* `Toml.Section`, `Toml.print`: a document of tables, some of them with lists of tables inside.
-/

namespace Deadwood.Toml

/-- One character of a text. Control characters below U+001F are escaped; a character outside of the
basic plane is written like the control character with its last four digits, if there is one. -/
def escapedChar (c : Char) : String :=
  match c with
  | '\t' => "\\t"
  | '\n' => "\\n"
  | '\r' => "\\r"
  | '"' => "\\\""
  | '\\' => "\\\\"
  | c =>
    if c.toNat = 8 then "\\b"
    else if c.toNat = 12 then "\\f"
    else if c.toNat % 0x10000 < 0x1F then
      "\\u" ++ (Text.hexDigits 4 (c.toNat % 0x10000)).toUpper
    else String.singleton c

def textLiteral (s : String) : String :=
  "\"" ++ String.join (s.toList.map escapedChar) ++ "\""

/-- A number with a decimal point. One that fits into 24 bits is written with as few digits as that
needs. -/
def floatLiteral (x : Float) : String :=
  match (Binary.ofFloat? x).bind Binary.single? with
  | some b => Layout.pointed.ofBinary b
  | none => (Layout.pointed.text x).toLower

def listLiteral (items : List String) : String :=
  "[" ++ Text.join ", " items ++ "]"

structure Section where
  name : String
  /-- Keys and values as they are written. -/
  entries : List (String × String)
  lists : List (String × List (List (String × String))) := []

def entryLines (indent : String) (entries : List (String × String)) : String :=
  let sorted := entries.mergeSort fun a b => a.1 ≤ b.1
  String.join (sorted.map fun (k, v) => indent ++ k ++ " = " ++ v ++ "\n")

def Section.print (s : Section) : String :=
  "\n[" ++ s.name ++ "]\n" ++ entryLines "  " s.entries
    ++ String.join (s.lists.flatMap fun (name, tables) =>
      tables.map fun t => "\n  [[" ++ s.name ++ "." ++ name ++ "]]\n" ++ entryLines "    " t)

def print (sections : List Section) : String :=
  String.join ((sections.mergeSort fun a b => a.name ≤ b.name).map Section.print)

end Deadwood.Toml
