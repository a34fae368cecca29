import Deadwood.Text.Case
import Deadwood.Text.Class
import Deadwood.Text.Segments
import Deadwood.Text.Utf8
import Deadwood.Text.Width

/-!
# Tables in columns

A table for a terminal: every column is as wide as its widest line, with a blank on either side,
and rules set the rows apart from the header above and the footer below. Cells are bytes, because a
shortened text may end inside a character.

## Main definitions

* `shorten`: a text cut to a number of bytes.
* `heading`: the words of a column name in capitals.
* `Grid`, `Grid.print`: the table and its text.
-/

namespace Deadwood

/-- Cut a text that is longer than `limit` bytes, with dots in place of its end if they fit. -/
def shorten (limit : Nat) (s : String) : Bytes :=
  let bs := Text.utf8 s
  if bs.length ≤ limit then bs
  else if limit ≤ 3 then bs.take limit
  else bs.take (limit - 3) ++ Text.utf8 "..."

def yesNo (b : Bool) : String :=
  if b then "yes" else "no"

/-! ## Column names -/

/-- The kinds of characters at whose changes a column name is cut into words. -/
inductive LetterKind where
  | lower | upper | digit | other
  deriving DecidableEq

def LetterKind.of (c : Char) : LetterKind :=
  if Text.isLower c then .lower
  else if Text.isUpper c then .upper
  else if Text.isDigit c then .digit
  else .other

def kindRuns : List Char → List (List Char)
  | [] => []
  | c :: cs =>
    match kindRuns cs with
    | (d :: ds) :: rest =>
      if LetterKind.of c = LetterKind.of d then (c :: d :: ds) :: rest
      else [c] :: (d :: ds) :: rest
    | rest => [c] :: rest

/-- A capital in front of small letters belongs to them: it leaves the run of capitals that it
ended. -/
def lendCapitals : List (List Char) → List (List Char)
  | r :: s :: rest =>
    match r.getLast?, s.head? with
    | some c, some d =>
      if Text.isUpper c && Text.isLower d then r.dropLast :: lendCapitals ((c :: s) :: rest)
      else r :: lendCapitals (s :: rest)
    | _, _ => r :: lendCapitals (s :: rest)
  | runs => runs
  termination_by runs => runs.length

/-- The words of a column name. Runs of blanks and single underscores are left out. -/
def words (name : String) : List String :=
  ((lendCapitals (kindRuns name.toList)).map String.ofList).filter
    (fun w => Text.trim w != "" && w != "_")

/-- Whether a point next to this character may belong to a number. -/
def besidePoint (c : Option Char) : Bool :=
  c.all (fun c => c.isDigit || c == ' ')

/-- Underscores become blanks, and so do points that belong to no number. -/
def spaced : Option Char → List Char → List Char
  | _, [] => []
  | before, c :: cs =>
    let d :=
      if c = '_' then ' '
      else if c = '.' && !(besidePoint before && besidePoint cs.head?) then ' '
      else c
    d :: spaced (some d) cs

def heading (name : String) : String :=
  let line := Text.join " " (words name)
  let trimmed := Text.trim (String.ofList (spaced none line.toList))
  if trimmed = "" && line ≠ "" then " " else Text.upper trimmed

/-! ## The table -/

structure Grid where
  header : List String
  rows : List (List Bytes)
  footer : List String

namespace Grid

def newline : UInt8 := 10

def cellLines (cell : Bytes) : List Bytes :=
  cell.splitOn newline

def headingLines (name : String) : List Bytes :=
  cellLines (Text.utf8 (heading name))

def columnWidth (rows : List (List (List Bytes))) (j : Nat) : Nat :=
  ((rows.flatMap (fun row => (row[j]?).getD [])).map Text.width).foldl max 0

/-- A line of a cell between blanks, filled up to the width of its column. The blanks may form
clusters with the text, so the result is measured again. -/
def padCell (width : Nat) (line : Bytes) : Bytes :=
  let padded := [32] ++ line ++ List.replicate (width + 1 - Text.width line) 32
  if width + 2 < Text.width padded then Text.cutToWidth (width + 2) padded
  else padded ++ List.replicate (width + 2 - Text.width padded) 32

def rowLine (row : List (List Bytes)) (widths : List Nat) (i : Nat) : Bytes :=
  (widths.zipIdx.map (fun (w, j) => padCell w ((((row[j]?).getD [])[i]?).getD []))).flatten ++
    [newline]

/-- The lines of a row. A row without cells has none. -/
def rowLines (row : List (List Bytes)) (widths : List Nat) : List Bytes :=
  (List.range ((row.map List.length).foldl max 0)).map (rowLine row widths)

/-- The lines of a row of the body, less those after the first in which all cells are
empty. -/
def bodyLines (row : List (List Bytes)) (widths : List Nat) : List Bytes :=
  ((List.range ((row.map List.length).foldl max 0)).filter (fun i =>
    i == 0 || row.any (fun cell => !((cell[i]?).getD []).isEmpty))).map (rowLine row widths)

def rule (widths : List Nat) : Bytes :=
  Text.utf8 (Text.repeated (widths.foldl (fun n w => n + w + 2) 0) "─") ++ [newline]

/-- The text of a table. Rules stand between the parts that are there. -/
def print (g : Grid) : Bytes :=
  let header := g.header.map headingLines
  let rows := g.rows.map (·.map cellLines)
  let footer := g.footer.map (fun c => cellLines (Text.utf8 c))
  let all := header :: footer :: rows
  let columns := (all.map List.length).foldl max 0
  let widths := (List.range columns).map (columnWidth all)
  let below := if header.isEmpty || (rows.isEmpty && footer.isEmpty) then [] else [rule widths]
  let above := if footer.isEmpty || (rows.isEmpty && header.isEmpty) then [] else [rule widths]
  (rowLines header widths ++ below ++ rows.flatMap (bodyLines · widths) ++ above ++
    rowLines footer widths).flatten

end Grid

end Deadwood
