import Deadwood.Decimal.Layout
import Deadwood.Sorted.Quick
import Deadwood.Text.Utf8

/-!
# Removing lines

Lines are numbered from one and keep the line break that ends them. A last line without a line break
counts, and nothing counts after the last line break.

## Main definitions

* `lines`: the lines of a content.
* `LineRange`: lines from one number to another, both included.
* `mergeRanges`: ranges that are apart, in place of some that may overlap or touch.
* `removeLines`: a content without the lines of some ranges.
-/

namespace Deadwood

/-- Lines from one number to another, both included. -/
structure LineRange where
  first : Int
  last : Int
  deriving Repr, DecidableEq

namespace LineRange

def contains (r : LineRange) (n : Nat) : Bool :=
  r.first ≤ n && (n : Int) ≤ r.last

/-- Whether a range is not empty and lies within a number of lines. -/
def fits (count : Nat) (r : LineRange) : Bool :=
  1 ≤ r.first && r.first ≤ r.last && r.last ≤ count

/-- The lines that are left without those of a range. -/
def cut (r : LineRange) (ls : List Bytes) : List Bytes :=
  ls.take (r.first - 1).toNat ++ ls.drop r.last.toNat

end LineRange

/-- Join a range with those that overlap or touch it, and these with each other. All ranges are
ordered by where they start, and `r` is the first. -/
def mergeFrom (r : LineRange) : List LineRange → List LineRange
  | [] => [r]
  | s :: rs =>
    if s.first ≤ r.last + 1 then mergeFrom ⟨r.first, max r.last s.last⟩ rs
    else r :: mergeFrom s rs

/-- Join ranges that overlap or touch. They are ordered by where they start. -/
def mergeRanges : List LineRange → List LineRange
  | [] => []
  | r :: rs => mergeFrom r rs

/-- The lines of a content, each with its line break. `line` holds the bytes of the current line,
the last one first. -/
def linesFrom (line : Bytes) : Bytes → List Bytes
  | [] => if line.isEmpty then [] else [line.reverse]
  | b :: bs => if b = 10 then (b :: line).reverse :: linesFrom [] bs else linesFrom (b :: line) bs

def lines (content : Bytes) : List Bytes :=
  linesFrom [] content

/-- A range that does not lie within the lines of a content. -/
structure RangeProblem where
  range : LineRange
  lineCount : Nat
  deriving Repr, DecidableEq

def RangeProblem.message (p : RangeProblem) : String :=
  "line range " ++ Decimal.intText p.range.first ++ "-" ++ Decimal.intText p.range.last
    ++ " outside file of " ++ Decimal.digitText p.lineCount ++ " lines"

/-- A content without the lines of some ranges. Of several ranges that do not fit, the one that
starts first is reported. Ranges are cut out from the last one to the first, so that the numbers of
the lines before them stay right. -/
def removeLines (content : Bytes) (rs : List LineRange) : Except RangeProblem Bytes :=
  if rs.isEmpty then .ok content
  else
    let ls := lines content
    let sorted := sortedBy (fun a b => a.first < b.first) rs
    match sorted.find? (!·.fits ls.length) with
    | some r => .error ⟨r, ls.length⟩
    | none => .ok ((mergeRanges sorted).foldr LineRange.cut ls).flatten

end Deadwood
