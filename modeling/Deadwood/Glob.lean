import Deadwood.Text.Utf8

/-!
# Shell patterns

A pattern describes names: `*` stands for any bytes except `/`, `?` for one character except `/`,
`[a-z]` and `[^a-z]` for one character of a class or outside it, and a backslash takes the next
character literally. A pattern is cut at its stars, and each part is read while the name is compared
with it. A part that does not read makes the text no pattern at all, also where the name has ceased
to fit long before.

Names are compared byte by byte: a star may end inside a character of several bytes, and the byte
that is then left over counts as a replacement character.

## Main definitions

* `Glob.step`: the syntax of patterns, one character at a time.
* `Glob.cut`: the parts of a pattern between its stars.
* `Glob.compare`: a part is read and compared with a name.
* `Glob.match?`: whether a name fits a pattern, unless that is malformed.
-/

namespace Deadwood.Glob

/-- What one or more bytes of a name have to be. -/
inductive Item where
  /-- Exactly this byte. -/
  | literal (b : UInt8)
  /-- Any one character but the slash. -/
  | anyChar
  /-- One character inside one of the ranges, or outside all of them when `negated`. -/
  | oneOf (negated : Bool) (ranges : List (Nat × Nat))
  deriving Repr, DecidableEq

/-! ## Reading patterns -/

/-- Where a reader of patterns stands between two characters. -/
inductive Mode where
  /-- Outside a class. -/
  | plain
  /-- Behind a backslash outside a class. -/
  | escape
  /-- Behind the bracket that opens a class. -/
  | opened
  /-- Inside a class, where a range or the closing bracket has to follow. -/
  | member (negated : Bool) (found : List (Nat × Nat))
  /-- Behind a backslash that starts a range. -/
  | lowEscape (negated : Bool) (found : List (Nat × Nat))
  /-- Behind the first character of a range. -/
  | low (negated : Bool) (found : List (Nat × Nat)) (first : Nat)
  /-- Behind the dash of a range. -/
  | dash (negated : Bool) (found : List (Nat × Nat)) (first : Nat)
  /-- Behind a backslash that follows the dash of a range. -/
  | highEscape (negated : Bool) (found : List (Nat × Nat)) (first : Nat)

def literals (c : Char) : List Item :=
  (Text.utf8 (String.singleton c)).map Item.literal

/-- One character where a range or the end of the class is due. A class has at least one range, and
a range starts neither with a dash nor with a bracket that is not escaped. -/
def stepMember (negated : Bool) (found : List (Nat × Nat)) (c : Char) :
    Option (List Item × Mode) :=
  if c = ']' then
    if found.isEmpty then none else some ([.oneOf negated found.reverse], .plain)
  else if c = '-' then none
  else if c = '\\' then some ([], .lowEscape negated found)
  else some ([], .low negated found c.toNat)

/-- One character of a pattern without stars: the items it completes and where the reader then
stands. -/
def step : Mode → Char → Option (List Item × Mode)
  | .plain, c =>
    if c = '?' then some ([.anyChar], .plain)
    else if c = '[' then some ([], .opened)
    else if c = '\\' then some ([], .escape)
    else some (literals c, .plain)
  | .escape, c => some (literals c, .plain)
  | .opened, c => if c = '^' then some ([], .member true []) else stepMember false [] c
  | .member negated found, c => stepMember negated found c
  | .lowEscape negated found, c => some ([], .low negated found c.toNat)
  | .low negated found first, c =>
    if c = '-' then some ([], .dash negated found first)
    else stepMember negated ((first, first) :: found) c
  | .dash negated found first, c =>
    if c = '-' ∨ c = ']' then none
    else if c = '\\' then some ([], .highEscape negated found first)
    else some ([], .member negated ((first, c.toNat) :: found))
  | .highEscape negated found first, c =>
    some ([], .member negated ((first, c.toNat) :: found))

/-- Characters of a pattern in a row, behind a star or not. -/
structure Part where
  star : Bool
  text : List Char
  deriving Repr, DecidableEq

/-- Whether a place lies between brackets, by the character in front of it and the place before. -/
def insideBehind (c : Char) (isInside : Bool) : Bool :=
  if c = '[' then true else if c = ']' then false else isInside

/-- The characters up to the first star, and the parts from there on. A backslash takes the next
character along, and between brackets a star is none. -/
def cutFrom : Bool → List Char → List Char × List Part
  | _, [] => ([], [])
  | isInside, '\\' :: c :: cs =>
    let (text, parts) := cutFrom isInside cs
    ('\\' :: c :: text, parts)
  | isInside, c :: cs =>
    if c = '*' ∧ !isInside then
      let (text, parts) := cutFrom false cs
      -- several stars in a row are one
      ([], if text.isEmpty && !parts.isEmpty then parts else ⟨true, text⟩ :: parts)
    else
      let (text, parts) := cutFrom (insideBehind c isInside) cs
      (c :: text, parts)

/-- The parts of a pattern. Only the last one may lack characters, and then it is a lone star. -/
def cut (pattern : List Char) : List Part :=
  let (text, parts) := cutFrom false pattern
  if text.isEmpty then parts else ⟨false, text⟩ :: parts

/-! ## Comparing names -/

/-- What is left of a name once the items have taken their bytes from its front. -/
def consume? : List Item → Bytes → Option Bytes
  | [], name => some name
  | _ :: _, [] => none
  | .literal b :: items, c :: name => if b = c then consume? items name else none
  | .anyChar :: items, c :: name =>
    if c = 0x2F then none
    else consume? items ((c :: name).drop (Text.nextChar (c :: name)).2)
  | .oneOf negated ranges :: items, c :: name =>
    let (code, width) := Text.nextChar (c :: name)
    if ranges.any (fun (lo, hi) => lo ≤ code && code ≤ hi) == negated then none
    else consume? items ((c :: name).drop width)

/-- Read a part and take its items from the front of what is left of a name, if it fits so far. A
part ends outside a class and not behind a backslash; there is no answer if it does not read. -/
def compare : Mode → List Char → Option Bytes → Option (Option Bytes)
  | .plain, [], left? => some left?
  | _, [], _ => none
  | mode, c :: cs, left? =>
    match step mode c with
    | none => none
    | some (items, next) => compare next cs (left?.bind (consume? items))

/-- Compare the beginning of a name with a part. The last part fits only the whole name. -/
def attempt (text : List Char) (isLast : Bool) (name : Bytes) : Option (Option Bytes) :=
  (compare .plain text (some name)).map (·.filter fun left => left.isEmpty || !isLast)

/-- Compare a part with the name at each place, without passing a slash, until it fits. -/
def search (text : List Char) (isLast : Bool) : Bytes → Option (Option Bytes)
  | [] => attempt text isLast []
  | c :: name =>
    match attempt text isLast (c :: name) with
    | none => none
    | some (some left) => some (some left)
    | some none => if c = 0x2F then some none else search text isLast name

/-- Compare a name with the parts. Each part takes the first place it finds; there is no second
attempt at an earlier star. Once a part does not fit, the parts behind it are only read. -/
def compareParts : List Part → Bytes → Option Bool
  | [], name => some name.isEmpty
  | part :: rest, name =>
    if part.star && part.text.isEmpty then some (!name.contains 0x2F)
    else
      match (if part.star then search else attempt) part.text rest.isEmpty name with
      | none => none
      | some (some left) => compareParts rest left
      | some none =>
        if rest.all fun p => (compare .plain p.text (some [])).isSome then some false else none

/-- Whether a name fits the pattern, if that is a pattern. -/
def match? (pattern name : String) : Option Bool :=
  compareParts (cut pattern.toList) (Text.utf8 name)

def fits (pattern name : String) : Bool :=
  match? pattern name = some true

end Deadwood.Glob
