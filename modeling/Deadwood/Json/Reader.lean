import Deadwood.Json.Basic
import Deadwood.Numeral

/-!
# Reading JSON

A reader takes one value from the front of a text and says what follows it. Escapes that name half
of a surrogate pair without its other half stand for the replacement character.

## Main definitions

* `Json.first?`: the value at the front of a text, and the rest.
* `Json.parse?`: a text that is one value and nothing else.
-/

namespace Deadwood.Json

def isSpace (c : Char) : Bool :=
  c = ' ' || c = '\t' || c = '\n' || c = '\r'

def skipSpace (cs : List Char) : List Char :=
  cs.dropWhile isSpace

/-! ## Texts -/

def pair (high low : Nat) : Nat :=
  0x10000 + (high - 0xD800) * 0x400 + (low - 0xDC00)

/-- The characters of code units, in which only escapes can be surrogates. -/
def joinUnits : List Nat → List Char
  | [] => []
  | [u] => [if 0xD800 ≤ u ∧ u < 0xE000 then Char.ofNat 0xFFFD else Char.ofNat u]
  | u :: v :: rest =>
    if 0xD800 ≤ u ∧ u < 0xDC00 ∧ 0xDC00 ≤ v ∧ v < 0xE000 then
      Char.ofNat (pair u v) :: joinUnits rest
    else if 0xD800 ≤ u ∧ u < 0xE000 then Char.ofNat 0xFFFD :: joinUnits (v :: rest)
    else Char.ofNat u :: joinUnits (v :: rest)

def shortEscape? (c : Char) : Option Nat :=
  match c with
  | '"' => some 0x22
  | '\\' => some 0x5C
  | '/' => some 0x2F
  | 'b' => some 0x08
  | 'f' => some 0x0C
  | 'n' => some 0x0A
  | 'r' => some 0x0D
  | 't' => some 0x09
  | _ => none

/-- The code units of a text up to its closing quote, and what follows. -/
def units? : List Char → Option (List Nat × List Char)
  | [] => none
  | '"' :: rest => some ([], rest)
  | '\\' :: 'u' :: a :: b :: c :: d :: rest => do
    let u ← Numeral.natOfDigits? 16 [a, b, c, d]
    let (us, rest') ← units? rest
    return (u :: us, rest')
  | '\\' :: e :: rest => do
    let u ← shortEscape? e
    let (us, rest') ← units? rest
    return (u :: us, rest')
  | c :: rest =>
    if c.toNat < 0x20 ∨ c = '\\' then none
    else do
      let (us, rest') ← units? rest
      return (c.toNat :: us, rest')

def textBody? (cs : List Char) : Option (String × List Char) :=
  (units? cs).map fun (us, rest) => (String.ofList (joinUnits us), rest)

/-! ## Numbers -/

def digits? (cs : List Char) : Option (List Char × List Char) :=
  match cs.takeWhile Char.isDigit with
  | [] => none
  | ds => some (ds, cs.dropWhile Char.isDigit)

/-- The digits before the point: a lone zero, or digits that start with another one. -/
def whole? : List Char → Option (List Char × List Char)
  | '0' :: rest => some (['0'], rest)
  | cs => digits? cs

def fraction? : List Char → Option (List Char × List Char)
  | '.' :: rest => (digits? rest).map fun (ds, rest') => ('.' :: ds, rest')
  | cs => some ([], cs)

def exponentPart? : List Char → Option (List Char × List Char)
  | [] => some ([], [])
  | e :: rest =>
    if e = 'e' ∨ e = 'E' then
      match rest with
      | '+' :: rest' => (digits? rest').map fun (ds, r) => (e :: '+' :: ds, r)
      | '-' :: rest' => (digits? rest').map fun (ds, r) => (e :: '-' :: ds, r)
      | _ => (digits? rest).map fun (ds, r) => (e :: ds, r)
    else some ([], e :: rest)

def number? (cs : List Char) : Option (String × List Char) := do
  let (sign, cs) := match cs with
    | '-' :: rest => (['-'], rest)
    | _ => ([], cs)
  let (whole, cs) ← whole? cs
  let (fraction, cs) ← fraction? cs
  let (power, cs) ← exponentPart? cs
  return (String.ofList (sign ++ whole ++ fraction ++ power), cs)

/-! ## Values -/

def word? (w : String) (v : Json) (cs : List Char) : Option (Json × List Char) :=
  (w.toList.isPrefixOf? cs).map fun rest => (v, rest)

mutual

/-- The value at the front. Every call takes one unit of `fuel`; a text is long enough to be its
own measure. -/
def value? : (fuel : Nat) → List Char → Option (Json × List Char)
  | 0, _ => none
  | fuel + 1, cs =>
    match skipSpace cs with
    | [] => none
    | 'n' :: rest => word? "null" .null ('n' :: rest)
    | 't' :: rest => word? "true" (.bool true) ('t' :: rest)
    | 'f' :: rest => word? "false" (.bool false) ('f' :: rest)
    | '"' :: rest => (textBody? rest).map fun (s, r) => (.text s, r)
    | '[' :: rest =>
      match skipSpace rest with
      | ']' :: r => some (.list [], r)
      | r => (items? fuel r).map fun (vs, r') => (.list vs, r')
    | c :: rest =>
      if c = '\x7b' then
        match skipSpace rest with
        | [] => none
        | d :: r =>
          if d = '\x7d' then some (.object [], r)
          else (fields? fuel (d :: r)).map fun (fs, r') => (.object fs, r')
      else (number? (c :: rest)).map fun (ds, r) => (.number ds, r)

def items? : (fuel : Nat) → List Char → Option (List Json × List Char)
  | 0, _ => none
  | fuel + 1, cs => do
    let (v, rest) ← value? fuel cs
    match skipSpace rest with
    | ',' :: r => (items? fuel r).map fun (vs, r') => (v :: vs, r')
    | ']' :: r => some ([v], r)
    | _ => none

def fields? : (fuel : Nat) → List Char → Option (List (String × Json) × List Char)
  | 0, _ => none
  | fuel + 1, cs =>
    match skipSpace cs with
    | '"' :: rest => do
      let (k, rest) ← textBody? rest
      match skipSpace rest with
      | ':' :: rest =>
        let (v, rest) ← value? fuel rest
        match skipSpace rest with
        | [] => none
        | c :: r =>
          if c = ',' then (fields? fuel r).map fun (fs, r') => ((k, v) :: fs, r')
          else if c = '\x7d' then some ([(k, v)], r)
          else none
      | _ => none
    | _ => none

end

def first? (s : String) : Option (Json × List Char) :=
  value? (s.length + 1) s.toList

def parse? (s : String) : Option Json :=
  match first? s with
  | some (v, rest) => if (skipSpace rest).isEmpty then some v else none
  | none => none

end Deadwood.Json
