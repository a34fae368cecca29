import Deadwood.Datum
import Deadwood.Text.Base64

/-!
# Plain scalars of YAML

A scalar without quotes and without a tag means what it looks like: a number, a truth value, a date,
nothing at all, or else a text.

## Main definitions

* `Yaml.plainDatum`: what a plain scalar means.
* `Yaml.taggedDatum?`: what a scalar with a tag means.
-/

namespace Deadwood.Yaml

def wordDatum? (s : String) : Option Datum :=
  if ["true", "True", "TRUE"].contains s then some (.bool true)
  else if ["false", "False", "FALSE"].contains s then some (.bool false)
  else if ["", "~", "null", "Null", "NULL"].contains s then some .null
  else if [".nan", ".NaN", ".NAN"].contains s then some (.float (0.0 / 0.0))
  else if [".inf", ".Inf", ".INF", "+.inf", "+.Inf", "+.INF"].contains s then
    some (.float (1.0 / 0.0))
  else if ["-.inf", "-.Inf", "-.INF"].contains s then some (.float (-1.0 / 0.0))
  else none

/-! ## Dates -/

/-- A number of one or two digits from `low` to `high`, and what follows. -/
def smallNat? (low high : Nat) : List Char → Option (Nat × List Char)
  | a :: b :: cs =>
    let digits := if b.isDigit then [a, b] else [a]
    match Numeral.natOfDigits? 10 digits with
    | some n =>
      if low ≤ n ∧ n ≤ high then some (n, if b.isDigit then cs else b :: cs) else none
    | none => none
  | [a] =>
    match Numeral.natOfDigits? 10 [a] with
    | some n => if low ≤ n ∧ n ≤ high then some (n, []) else none
    | none => none
  | [] => none

def monthLength (year month : Nat) : Nat :=
  if month = 2 then
    if year % 4 = 0 ∧ (year % 100 ≠ 0 ∨ year % 400 = 0) then 29 else 28
  else if [4, 6, 9, 11].contains month then 30
  else 31

def afterFraction : List Char → List Char
  | p :: d :: r =>
    if (p = '.' || p = ',') && d.isDigit then r.dropWhile Char.isDigit else p :: d :: r
  | cs => cs

def isZone : List Char → Bool
  | ['Z'] => true
  | [s, a, b, ':', c, d] =>
    (s = '+' || s = '-') &&
      (Numeral.natOfDigits? 10 [a, b]).any (· ≤ 24) && (Numeral.natOfDigits? 10 [c, d]).any (· ≤ 60)
  | _ => false

def afterTime? (cs : List Char) : Option (List Char) := do
  let (_, cs) ← smallNat? 0 23 cs
  let cs ← [':'].isPrefixOf? cs
  let (_, cs) ← smallNat? 0 59 cs
  let cs ← [':'].isPrefixOf? cs
  let (_, cs) ← smallNat? 0 59 cs
  return afterFraction cs

/-- Whether a text is a date, with or without a time. A time has a zone where it stands behind a
letter, and none where it stands behind blanks. -/
def isDate (s : String) : Bool :=
  match s.toList with
  | a :: b :: c :: d :: '-' :: cs =>
    ((do
      let year ← Numeral.natOfDigits? 10 [a, b, c, d]
      let (month, cs) ← smallNat? 1 12 cs
      let cs ← ['-'].isPrefixOf? cs
      let (_, cs) ← smallNat? 1 (monthLength year month) cs
      match cs with
      | [] => some true
      | t :: cs =>
        if t = 'T' || t = 't' then return isZone (← afterTime? cs)
        else if t = ' ' then return (← afterTime? (cs.dropWhile (· = ' '))).isEmpty
        else none : Option Bool)).getD false
  | _ => false

/-! ## Numbers -/

/-- Whether a text is a decimal number with optional fraction and exponent. -/
def isDecimal (s : String) : Bool :=
  let (_, cs) := Numeral.unsigned s.toList
  let whole := cs.takeWhile Char.isDigit
  let rest := cs.dropWhile Char.isDigit
  let (point, fraction, rest) := match rest with
    | '.' :: r => (true, r.takeWhile Char.isDigit, r.dropWhile Char.isDigit)
    | _ => (false, [], rest)
  let body := !whole.isEmpty || (point && !fraction.isEmpty)
  let tail :=
    match rest with
    | [] => true
    | e :: r =>
      (e = 'e' || e = 'E') &&
        (let ds := (Numeral.unsigned r).2
         !ds.isEmpty && ds.all Char.isDigit)
  body && tail

/-- An integer of 64 bits, with or without a sign. -/
def intDatum? (s : String) : Option Datum :=
  match Numeral.int s with
  | .ok i => some (.int i)
  | .error .syntaxError => none
  | .error .outOfRange =>
    let (base, digits) := Numeral.baseOf s.toList
    match Numeral.natOfDigits? base digits with
    | some n => if n < Word.count then some (.int n) else none
    | none => none

/-- A number whose base is marked in front of its sign. -/
def markedInt? (s : String) : Option Datum :=
  let signed (base : Nat) (cs : List Char) : Option Datum :=
    let (negative, digits) := Numeral.unsigned cs
    match Numeral.natOfDigits? base digits with
    | some n =>
      let i : Int := if negative then -(n : Int) else n
      if digits ≠ cs && -Word.bound ≤ i && i < Word.bound then some (.int i) else none
    | none => none
  match s.toList with
  | '0' :: 'b' :: cs => signed 2 cs
  | '0' :: 'o' :: cs => signed 8 cs
  | _ => none

def numberDatum? (s : String) : Option Datum :=
  let bare := String.ofList (s.toList.filter (· ≠ '_'))
  match intDatum? bare with
  | some d => some d
  | none =>
    if isDecimal bare then (Numeral.float bare).toOption.map .float else markedInt? bare

def plainDatum (s : String) : Datum :=
  match wordDatum? s with
  | some d => d
  | none =>
    match s.toList with
    | [] => .null
    | c :: _ =>
      if c.isDigit || c = '+' || c = '-' then
        if isDate s then .moment else (numberDatum? s).getD (.text s)
      else if c = '.' then
        match Numeral.float s with
        | .ok x => .float x
        | .error _ => .text s
      else .text s

/-- What a scalar with a tag means; it has to look like what the tag says. Bytes are written in base
64, and tags that are not known leave a text. -/
def taggedDatum? (tag : String) (s : String) : Option Datum :=
  match tag, plainDatum s with
  | "!!bool", .bool b => some (.bool b)
  | "!!int", .int i => some (.int i)
  | "!!float", .float x => some (.float x)
  | "!!float", .int i => if i < Word.bound then some (.float (Float.ofInt i)) else none
  | "!!null", .null => some .null
  | "!!timestamp", .moment => some .moment
  | tag, _ =>
    if ["!!bool", "!!int", "!!float", "!!null", "!!timestamp"].contains tag then none
    else if tag = "!!binary" then (Base64.decode? s).map fun bs => .text (Text.ofUtf8Lossy bs)
    else some (.text s)

end Deadwood.Yaml
