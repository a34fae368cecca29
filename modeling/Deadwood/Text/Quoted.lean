import Deadwood.Decimal.Layout
import Deadwood.Text.Class

/-!
# Quoted texts

A text between double quotes in which characters that do not print are written by escapes. Raw
quotes take a text as it is, if it has no character that they cannot hold.

## Main definitions

* `quoted`: the text between quotes.
* `quotedAscii`: the same with ASCII characters only.
* `fitsRawQuotes`: whether raw quotes can hold a text.
-/

namespace Deadwood.Text

/-- `n` in base sixteen with at least `width` digits. -/
def hexDigits (width n : Nat) : String :=
  let ds := Nat.toDigits 16 n
  Decimal.zeros (width - ds.length) ++ String.ofList ds

def escapedChar (c : Char) : String :=
  match c.toNat with
  | 0x07 => "\\a"
  | 0x08 => "\\b"
  | 0x0C => "\\f"
  | 0x0A => "\\n"
  | 0x0D => "\\r"
  | 0x09 => "\\t"
  | 0x0B => "\\v"
  | n =>
    if n < 0x20 ∨ n = 0x7F then "\\x" ++ hexDigits 2 n
    else if n < 0x10000 then "\\u" ++ hexDigits 4 n
    else "\\U" ++ hexDigits 8 n

/-- One character inside quotes; `shows` are the characters that stand for themselves. -/
def quotedBy (shows : Char → Bool) (c : Char) : String :=
  if c = '"' then "\\\""
  else if c = '\\' then "\\\\"
  else if shows c then String.singleton c
  else escapedChar c

def quotedChar (c : Char) : String :=
  quotedBy isPrinting c

def quoted (s : String) : String :=
  "\"" ++ String.join (s.toList.map quotedChar) ++ "\""

/-- A text between quotes, with escapes for all characters beyond ASCII. -/
def quotedAscii (s : String) : String :=
  "\"" ++ String.join (s.toList.map (quotedBy (fun c => c.toNat < 0x80 && isPrinting c))) ++ "\""

/-- Whether raw quotes can hold a text: it has no control but tabs, no such quote and no mark of
byte order. -/
def fitsRawQuotes (s : String) : Bool :=
  s.toList.all (fun c =>
    let n := c.toNat
    (0x20 ≤ n || n == 0x09) && n != 0x60 && n != 0x7F && n != 0xFEFF)

end Deadwood.Text
