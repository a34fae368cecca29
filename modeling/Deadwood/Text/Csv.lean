import Deadwood.Decimal.Layout
import Deadwood.Text.Segments
import Deadwood.Text.Utf8

/-!
# Values between commas

Several values in one text, with commas between them. A value that holds a comma stands between
quotes, and a quote inside it is written twice; it may go over several lines. The values end with
the first line that is not empty.

## Main definitions

* `Csv.Problem`: what is wrong with a text, and where.
* `Csv.physicalLines`: the lines of a text.
* `Csv.values`: the values of a text.
-/

namespace Deadwood.Csv

inductive Flaw where
  | bareQuote
  | openQuote

/-- What is wrong with a text, and where. Columns count bytes from one. -/
inductive Problem where
  /-- The values start at the line `start`. -/
  | flaw (kind : Flaw) (start line column : Nat)
  /-- There is no line that is not empty. -/
  | noLine

def Flaw.message : Flaw → String
  | .bareQuote => "bare \" in non-quoted-field"
  | .openQuote => "extraneous or missing \" in quoted-field"

def Problem.message : Problem → String
  | .flaw kind start line column =>
    (if line = start then "" else "record on line " ++ Decimal.digitText start ++ "; ")
      ++ "parse error on line " ++ Decimal.digitText line ++ ", column "
      ++ Decimal.digitText column ++ ": " ++ kind.message
  | .noLine => "EOF"

def byteCount (cs : List Char) : Nat :=
  Text.byteLength (String.ofList cs)

/-! ## Lines -/

/-- The lines of a text, all but the last one with their newline. Returns in front of a newline and
at the very end are dropped. -/
def physicalLines : List Char → List (List Char)
  | [] => []
  | ['\r'] => [[]]
  | '\r' :: '\n' :: cs => ['\n'] :: physicalLines cs
  | '\n' :: cs => ['\n'] :: physicalLines cs
  | c :: cs =>
    match physicalLines cs with
    | [] => [[c]]
    | l :: ls => (c :: l) :: ls

def isEmptyLine (line : List Char) : Bool :=
  line.isEmpty || line == ['\n']

/-! ## Values -/

structure Place where
  /-- What is left of the line. -/
  rest : List Char
  /-- The lines that follow. -/
  later : List (List Char)
  /-- The number of the first line of the values. -/
  start : Nat
  /-- How many lines have been asked for. -/
  asked : Nat
  line : Nat
  column : Nat

/-- Go over `cs`, after which `rest` is left. -/
def Place.past (p : Place) (cs rest : List Char) : Place :=
  { p with rest, column := p.column + byteCount cs }

def Place.nextLine (p : Place) : Place :=
  match p.later with
  | [] => { p with rest := [], asked := p.asked + 1 }
  | l :: ls =>
    if l.isEmpty then { p with rest := [], later := ls, asked := p.asked + 1 }
    else
      { p with rest := l, later := ls, asked := p.asked + 1, line := p.line + 1, column := 1 }

/-- The text between quotes, what follows the closing quote, and whether another value does. -/
def quotedValue : (fuel : Nat) → Place → Except Problem (List Char × Place × Bool)
  | 0, p => .error (.flaw .openQuote p.start p.line p.column)
  | fuel + 1, p =>
    let front := p.rest.takeWhile (· ≠ '"')
    match p.rest.drop front.length with
    | '"' :: rest =>
      let p := p.past (front ++ ['"']) rest
      match rest with
      | '"' :: more => do
        let (v, q, go) ← quotedValue fuel (p.past ['"'] more)
        return (front ++ '"' :: v, q, go)
      | ',' :: more => .ok (front, p.past [','] more, true)
      | rest =>
        if isEmptyLine rest then .ok (front, p, false)
        else .error (.flaw .openQuote p.start p.asked (p.column - 1))
    | _ =>
      if front.isEmpty then .error (.flaw .openQuote p.start p.line p.column)
      else do
        let (v, q, go) ← quotedValue fuel (p.past front []).nextLine
        return (front ++ v, q, go)

def valuesFrom : (fuel : Nat) → Place → Except Problem (List String)
  | 0, _ => .ok []
  | fuel + 1, p =>
    match p.rest with
    | '"' :: rest => do
      let (v, q, go) ← quotedValue (fuel + 1) (p.past ['"'] rest)
      if go then return String.ofList v :: (← valuesFrom fuel q) else return [String.ofList v]
    | _ => do
      let v := p.rest.takeWhile (fun c => c != ',' && c != '\n')
      if v.contains '"' then
        throw (.flaw .bareQuote p.start p.asked
          (p.column + byteCount (v.takeWhile (· != '"'))))
      match p.rest.drop v.length with
      | ',' :: more => return String.ofList v :: (← valuesFrom fuel (p.past (v ++ [',']) more))
      | _ => return [String.ofList v]

/-- The values of a text. The empty text has none. -/
def values (s : String) : Except Problem (List String) :=
  if s = "" then .ok []
  else
    let ls := physicalLines s.toList
    let skipped := (ls.takeWhile isEmptyLine).length
    match ls.drop skipped with
    | [] => .error .noLine
    | l :: later =>
      valuesFrom (2 * s.length + 2) ⟨l, later, skipped + 1, skipped + 1, skipped + 1, 1⟩

end Deadwood.Csv
