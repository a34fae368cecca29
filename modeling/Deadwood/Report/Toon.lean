import Deadwood.Json.Record
import Deadwood.Text.Class
import Deadwood.Text.Quoted
import Deadwood.Text.Segments

/-!
# Compact listings

A line-oriented notation for documents that is short and still says how many items every list has.
Nesting is shown by two blanks a level. A list of plain values stands on one line, a list of
records with the same plain fields is a table under its field names, and every other list has one
dashed item after the other.

## Main definitions

* `Toon`: a document.
* `Toon.ofJson`: a JSON document as one, under a `Toon.Shape`.
* `Toon.encode`: the text of a document, or why it has none.
-/

namespace Deadwood

inductive Toon where
  | null
  | bool (b : Bool)
  /-- A number by its digits. -/
  | number (digits : String)
  | text (s : String)
  | list (items : List Toon)
  | object (fields : List (String × Toon))
  /-- A value of a kind that cannot be listed. -/
  | foreign (kind : String)
  deriving Inhabited, Repr

namespace Toon

/-! ## From JSON -/

/-- What the fields of a JSON document stand for beyond what JSON says. -/
structure Shape where
  /-- Fields that hold lists, so that `null` is a list without items. -/
  lists : List String := []
  /-- Fields that hold values which cannot be listed, with their kinds. -/
  foreign : List (String × String) := []

/-- Digits without an exponent; zero has no sign. -/
def plainDigits (digits : String) : String :=
  if digits.toList.all (fun c => c.isDigit || c == '-') && digits != "-0" then digits
  else
    match Json.Reader.float [.number digits] 0 with
    | some x => Layout.plain.text x
    | none => digits

mutual

def ofJson (shape : Shape) : Json → Toon
  | .null => .null
  | .bool b => .bool b
  | .number digits => .number (plainDigits digits)
  | .text s => .text s
  | .list items => .list (ofItems shape items)
  | .object fields => .object (ofFields shape fields)

def ofItems (shape : Shape) : List Json → List Toon
  | [] => []
  | v :: vs => ofJson shape v :: ofItems shape vs

def ofFields (shape : Shape) : List (String × Json) → List (String × Toon)
  | [] => []
  | (k, v) :: fs =>
    let known := ofJson shape v
    let value :=
      match shape.foreign.lookup k, known with
      | some kind, _ => .foreign kind
      | none, .null => if shape.lists.contains k then .list [] else .null
      | none, _ => known
    (k, value) :: ofFields shape fs

end

/-! ## What cannot be listed -/

mutual

/-- The first value that cannot be listed, behind the names that lead to it. -/
def problem? : Toon → Option String
  | .foreign kind => some ("toon: unsupported value of type " ++ kind)
  | .list items => itemProblem? items
  | .object fields => fieldProblem? fields
  | _ => none

def itemProblem? : List Toon → Option String
  | [] => none
  | v :: vs => (problem? v).or (itemProblem? vs)

def fieldProblem? : List (String × Toon) → Option String
  | [] => none
  | (k, v) :: fs => ((problem? v).map (fun p => "toon: " ++ k ++ ": " ++ p)).or (fieldProblem? fs)

end

/-- A control character for which there is no escape. -/
def isStray (c : Char) : Bool :=
  c.toNat < 0x20 && c != '\n' && c != '\r' && c != '\t'

def strayIn? (s : String) : Option Char :=
  s.toList.find? isStray

mutual

/-- The first stray character of a document in the order in which it is written. -/
def stray? : Toon → Option Char
  | .text s => strayIn? s
  | .list items => itemStray? items
  | .object fields => fieldStray? fields
  | _ => none

def itemStray? : List Toon → Option Char
  | [] => none
  | v :: vs => (stray? v).or (itemStray? vs)

def fieldStray? : List (String × Toon) → Option Char
  | [] => none
  | (k, v) :: fs => ((strayIn? k).or (stray? v)).or (fieldStray? fs)

end

/-! ## Plain values -/

def dropDigits? (cs : List Char) : Option (List Char) :=
  if (cs.head?.any Char.isDigit) then some (cs.dropWhile Char.isDigit) else none

def isExponent : List Char → Bool
  | [] => true
  | e :: cs =>
    (e == 'e' || e == 'E') &&
      let digits :=
        match cs with
        | c :: rest => if c == '+' || c == '-' then rest else cs
        | [] => cs
      dropDigits? digits == some []

/-- Whether a text reads as a number, leading zeros included. -/
def looksNumeric (s : String) : Bool :=
  let cs := match s.toList with
    | '-' :: rest => rest
    | cs => cs
  match dropDigits? cs with
  | some ('.' :: rest) => (dropDigits? rest).any isExponent
  | some rest => isExponent rest
  | none => false

def isSpecial (c : Char) : Bool :=
  [',', ':', '"', '\\', '[', ']', '\x7b', '\x7d', '\n', '\r', '\t'].contains c

/-- Whether a text can stand without quotes and still be read as that text. -/
def isBare (s : String) : Bool :=
  s != "" && Text.trim s == s && !(["true", "false", "null"].contains s) && !looksNumeric s &&
    !Text.startsWith "-" s && !s.toList.any isSpecial

def escapedChar : Char → String
  | '\\' => "\\\\"
  | '"' => "\\\""
  | '\n' => "\\n"
  | '\r' => "\\r"
  | '\t' => "\\t"
  | c => String.singleton c

def inQuotes (s : String) : String :=
  "\"" ++ String.join (s.toList.map escapedChar) ++ "\""

def literal (s : String) : String :=
  if isBare s then s else inQuotes s

def isBareKey (k : String) : Bool :=
  match k.toList with
  | [] => false
  | c :: cs =>
    (Text.isLetter c || c == '_') &&
      cs.all (fun c => Text.isLetter c || Text.isDigit c || c == '_' || c == '.')

def key (k : String) : String :=
  if isBareKey k then k else inQuotes k

/-- The name of a list, which is left out if it is empty. -/
def listKey (k : String) : String :=
  if k = "" then "" else key k

/-- The text of a plain value: one without items or fields. -/
def plain? : Toon → Option String
  | .null => some "null"
  | .bool b => some (if b then "true" else "false")
  | .number digits => some digits
  | .text s => some (literal s)
  | _ => none

/-! ## Tables -/

/-- The values of the fields of `keys` in a record that has exactly these fields, all plain. -/
def row? (keys : List String) : Toon → Option (List String)
  | .object fields =>
    if fields.length = keys.length then keys.mapM (fun k => (fields.lookup k).bind plain?)
    else none
  | _ => none

/-- The field names and rows of a list of records with the same plain fields. -/
def table? : List Toon → Option (List String × List (List String))
  | .object (f :: fs) :: rest =>
    let keys := (f :: fs).map (·.1)
    ((Toon.object (f :: fs) :: rest).mapM (row? keys)).map (fun rows => (keys, rows))
  | _ => none

/-! ## Lines -/

def deeper (lines : List String) : List String :=
  lines.map ("  " ++ ·)

/-- The number of items as it stands behind the name of a list. -/
def count (n : Nat) : String :=
  "[" ++ Decimal.digitText n ++ "]"

mutual

def listLines (head : String) : List Toon → List String
  | [] => [head ++ "[0]:"]
  | items@(v :: vs) =>
    match items.mapM plain? with
    | some texts => [head ++ count texts.length ++ ": " ++ Text.join "," texts]
    | none =>
      match table? items with
      | some (keys, rows) =>
        (head ++ count rows.length ++ "\x7b" ++ Text.join "," (keys.map key) ++ "\x7d:") ::
          deeper (rows.map (Text.join ","))
      | none =>
        (head ++ count items.length ++ ":") :: deeper (itemLines v ++ itemsLines vs)

/-- The lines of one item of a list. The first field stands behind the dash and the others below it.
What is below a list behind the dash is not set further in than the other fields; a record has no
place behind the dash and stands below it. -/
def itemLines : Toon → List String
  | .object [] => ["- \x7b\x7d"]
  | .object (f :: fs) =>
    let first := fieldLines f
    match f.2 with
    | .object _ => "-" :: deeper (first ++ fieldsLines fs)
    | _ => ("- " ++ first.headD "") :: (first.tail ++ deeper (fieldsLines fs))
  | .list items =>
    match listLines "" items with
    | [] => []
    | l :: ls => ("- " ++ l) :: ls
  | v => ["- " ++ (plain? v).getD ""]

def itemsLines : List Toon → List String
  | [] => []
  | v :: vs => itemLines v ++ itemsLines vs

def fieldLines : String × Toon → List String
  | (k, .object fields) => (key k ++ ":") :: deeper (fieldsLines fields)
  | (k, .list items) => listLines (listKey k) items
  | (k, v) => [key k ++ ": " ++ (plain? v).getD ""]

def fieldsLines : List (String × Toon) → List String
  | [] => []
  | f :: fs => fieldLines f ++ fieldsLines fs

end

def lines : Toon → List String
  | .object fields => fieldsLines fields
  | .list items => listLines "" items
  | v => [(plain? v).getD ""]

/-- The text of a document, without a newline at its end, or why it has none. -/
def encode (v : Toon) : Except String String :=
  match problem? v, stray? v with
  | some p, _ => .error p
  | none, some c =>
    .error ("toon: unsupported control character U+"
      ++ String.ofList ((Text.hexDigits 4 c.toNat).toList.map Char.toUpper) ++ " in string")
  | none, none => .ok (Text.join "\n" (lines v))

end Toon

end Deadwood
