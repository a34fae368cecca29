import Deadwood.Text.Case

/-!
# Reading numbers

Line numbers and counts are integers of 64 bits. Sums and differences that leave their range come
back at its other end.

Numbers typed by people: integers in several bases, floating-point numbers, truth values. Digits may
be separated by single underscores where a base is given by its mark or in a decimal fraction.

## Main definitions

* `Word.bound`, `Word.count`: the range of integers of 64 bits.
* `Word.wrap`: the integer of 64 bits for any integer.
* `Numeral.Fault`: why a text is no number.
* `Numeral.int`: an integer of 64 bits, the base taken from its mark.
* `Numeral.float`: a floating-point number.
* `Numeral.truth?`: a truth value.
-/

namespace Deadwood.Word

/-- The least number above all words: `2 ^ 63`. -/
def bound : Nat := 0x8000000000000000

/-- How many words there are: `2 ^ 64`. -/
def count : Nat := 0x10000000000000000

/-- The integer of 64 bits that agrees with `i` modulo `2 ^ 64`. -/
def wrap (i : Int) : Int :=
  Int.bmod i count

theorem wrap_of_bounds {i : Int} (hl : -bound ≤ i) (hh : i < bound) : wrap i = i := by
  unfold bound at hl hh
  unfold wrap count
  rw [Int.bmod_def]
  omega

end Deadwood.Word

namespace Deadwood.Numeral

/-- Why a text is no number of the wanted kind. -/
inductive Fault where
  | syntaxError
  | outOfRange
  deriving Repr, DecidableEq

def Fault.message : Fault → String
  | .syntaxError => "invalid syntax"
  | .outOfRange => "value out of range"

def digitValue? (c : Char) : Option Nat :=
  if '0' ≤ c ∧ c ≤ '9' then some (c.toNat - '0'.toNat)
  else if 'a' ≤ c ∧ c ≤ 'z' then some (c.toNat - 'a'.toNat + 10)
  else if 'A' ≤ c ∧ c ≤ 'Z' then some (c.toNat - 'A'.toNat + 10)
  else none

/-- The number that the digits write in a base, most significant first. -/
def natOfDigits? (base : Nat) (cs : List Char) : Option Nat :=
  cs.foldlM (fun acc c => do
    let d ← digitValue? c
    if d < base then some (acc * base + d) else none) 0

/-- The last kind of character seen while underscores are checked. -/
inductive Before where
  | start
  | digit
  | underscore
  | other

/-- Whether every underscore stands between two digits; `hex` admits the letters up to `f` as
digits. -/
def underscoresOk (hex : Bool) : Before → List Char → Bool
  | .underscore, [] => false
  | _, [] => true
  | before, c :: cs =>
    if c.isDigit || (hex && ((digitValue? c).any (· < 16))) then underscoresOk hex .digit cs
    else if c = '_' then
      match before with
      | .digit => underscoresOk hex .underscore cs
      | _ => false
    else
      match before with
      | .underscore => false
      | _ => underscoresOk hex .other cs

def unsigned : List Char → Bool × List Char
  | '-' :: cs => (true, cs)
  | '+' :: cs => (false, cs)
  | cs => (false, cs)

/-- The base that a text announces, and its digits. A lone leading zero means base eight. -/
def baseOf : List Char → Nat × List Char
  | '0' :: 'x' :: cs => (16, cs)
  | '0' :: 'X' :: cs => (16, cs)
  | '0' :: 'b' :: cs => (2, cs)
  | '0' :: 'B' :: cs => (2, cs)
  | '0' :: 'o' :: cs => (8, cs)
  | '0' :: 'O' :: cs => (8, cs)
  | '0' :: c :: cs => (8, c :: cs)
  | cs => (10, cs)

/-- Whether the text starts with the mark of a base, behind which an underscore may stand. -/
def marked : List Char → Bool
  | '0' :: c :: _ => ['x', 'X', 'b', 'B', 'o', 'O'].contains c
  | _ => false

def int (s : String) : Except Fault Int :=
  let (negative, cs) := unsigned s.toList
  let (base, digits) := baseOf cs
  let before := if marked cs then Before.digit else Before.start
  let checked := if marked cs then digits else cs
  if digits.isEmpty ∨ (cs.contains '_' ∧ ¬ underscoresOk (base = 16) before checked) then
    .error .syntaxError
  else
    match natOfDigits? base (digits.filter (· ≠ '_')) with
    | none => .error .syntaxError
    | some n =>
      if negative then (if n ≤ Word.bound then .ok (-(n : Int)) else .error .outOfRange)
      else if n < Word.bound then .ok n else .error .outOfRange

def decimalInt (s : String) : Except Fault Int :=
  let (negative, cs) := unsigned s.toList
  if cs.isEmpty then .error .syntaxError
  else
    match natOfDigits? 10 cs with
    | none => .error .syntaxError
    | some n =>
      if negative then (if n ≤ Word.bound then .ok (-(n : Int)) else .error .outOfRange)
      else if n < Word.bound then .ok n else .error .outOfRange

/-- The floating-point number nearest to `n * 10 ^ k`. Exponents far outside the range of the
format are settled without computing the power. -/
def ofDecimal (n : Nat) (k : Int) : Float :=
  let top := k + (Nat.toDigits 10 n).length
  if n = 0 then 0.0
  else if 330 < top then 1.0 / 0.0
  else if top < -400 then 0.0
  else if 0 ≤ k then Float.ofScientific n false k.toNat
  else Float.ofScientific n true (-k).toNat

/-- The digits before and after a point, and what follows them. -/
def mantissa (hex : Bool) (cs : List Char) : List Char × List Char × List Char :=
  let isDigit := fun (c : Char) => c.isDigit || c = '_' || (hex && (digitValue? c).any (· < 16))
  let whole := cs.takeWhile isDigit
  match cs.dropWhile isDigit with
  | '.' :: rest => (whole, rest.takeWhile isDigit, rest.dropWhile isDigit)
  | rest => (whole, [], rest)

def exponent? (cs : List Char) : Option Int :=
  let (negative, ds) := unsigned cs
  let ds' := ds.filter (· ≠ '_')
  if ds'.isEmpty ∨ (ds.head? = some '_') then none
  else (natOfDigits? 10 ds').map fun n => if negative then -(n : Int) else n

def decimalFloat? (cs : List Char) : Option Float := do
  let (whole, fraction, rest) := mantissa false cs
  let digits := (whole ++ fraction).filter (· ≠ '_')
  if digits.isEmpty then none
  let e ← match rest with
    | [] => some 0
    | c :: ds => if c = 'e' ∨ c = 'E' then exponent? ds else none
  let n ← natOfDigits? 10 digits
  return ofDecimal n (e - (fraction.filter (· ≠ '_')).length)

/-- Read an unsigned number in base sixteen, which needs a binary exponent. -/
def hexFloat? (cs : List Char) : Option Float := do
  let (whole, fraction, rest) := mantissa true cs
  let digits := (whole ++ fraction).filter (· ≠ '_')
  if digits.isEmpty then none
  let e ← match rest with
    | c :: ds => if c = 'p' ∨ c = 'P' then exponent? ds else none
    | [] => none
  let n ← natOfDigits? 16 digits
  let q := e - 4 * (fraction.filter (· ≠ '_')).length
  if n = 0 then return 0.0
  if 2000 < q then return 1.0 / 0.0
  if q < -2000 then return 0.0
  if 0 ≤ q then return Float.ofScientific (n * Nat.pow 2 q.toNat) false 0
  return Float.ofScientific (n * Nat.pow 5 (-q).toNat) true (-q).toNat

/-- Read a floating-point number, also `inf` and `nan` in any case. -/
def float (s : String) : Except Fault Float :=
  let (negative, cs) := unsigned s.toList
  let word := Text.asciiLower (String.ofList cs)
  let signed := fun (x : Float) => if negative then -x else x
  if word = "inf" ∨ word = "infinity" then .ok (signed (1.0 / 0.0))
  else if Text.asciiLower s = "nan" then .ok (0.0 / 0.0)
  else
    let hex := match cs with
      | '0' :: 'x' :: _ => true
      | '0' :: 'X' :: _ => true
      | _ => false
    let body := if hex then cs.drop 2 else cs
    let before := if hex then Before.digit else Before.start
    if cs.contains '_' ∧ ¬ underscoresOk hex before body then .error .syntaxError
    else
      match (if hex then hexFloat? body else decimalFloat? body) with
      | none => .error .syntaxError
      | some x => if x.isInf then .error .outOfRange else .ok (signed x)

def truth? (s : String) : Option Bool :=
  if ["1", "t", "T", "TRUE", "true", "True"].contains s then some true
  else if ["0", "f", "F", "FALSE", "false", "False"].contains s then some false
  else none

end Deadwood.Numeral
