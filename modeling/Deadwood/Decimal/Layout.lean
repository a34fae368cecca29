import Deadwood.Decimal.Basic

/-!
# Number texts

One decimal number has many texts. A `Layout` fixes the choices: which magnitudes are written with
an exponent, how wide an exponent is, whether a whole number keeps a decimal point, and how the
values that are not finite are spelt.

## Main definitions

* `Layout`, `Layout.text`: the choices and the text they give.
* `fixedText`: a fixed number of places.
-/

namespace Deadwood.Decimal

def digitText (n : Nat) : String :=
  String.ofList (Nat.toDigits 10 n)

def intText (i : Int) : String :=
  if i < 0 then "-" ++ digitText i.natAbs else digitText i.natAbs

def zeros (n : Nat) : String :=
  String.ofList (List.replicate n '0')

/-- A number in at least `width` digits. -/
def padded (width n : Nat) : String :=
  let t := digitText n
  zeros (width - t.length) ++ t

/-- The text without an exponent. -/
def positional (d : Decimal) : String :=
  let ds := Nat.toDigits 10 d.digits
  if 0 ≤ d.exponent then
    if d.digits = 0 then "0" else String.ofList ds ++ zeros d.exponent.toNat
  else
    let after := (-d.exponent).toNat
    if after < ds.length then
      String.ofList (ds.take (ds.length - after)) ++ "." ++
        String.ofList (ds.drop (ds.length - after))
    else "0." ++ zeros (after - ds.length) ++ String.ofList ds

/-- Where the decimal point of the text with an exponent stands: the power of ten of the leading
digit. -/
def power (d : Decimal) : Int :=
  d.exponent + (Nat.toDigits 10 d.digits).length - 1

end Decimal

structure Layout where
  /-- Powers of the leading digit from here on are written with an exponent. -/
  exponentFrom : Option Int
  /-- Powers below this one are written with an exponent. -/
  exponentBelow : Option Int
  /-- The least number of digits of a negative exponent. -/
  negativeWidth : Nat
  /-- Whether a whole number is written with `.0`. -/
  keepPoint : Bool
  /-- Whether a negative zero has a sign. -/
  signedZero : Bool

namespace Layout

/-- Numbers in JSON documents: positional from `1e-6` up to, not including, `1e21`. -/
def json : Layout := ⟨some 21, some (-6), 1, false, true⟩

/-- Numbers in messages: positional from `1e-4` up to, not including, `1e6`. -/
def message : Layout := ⟨some 6, some (-4), 2, false, true⟩

def plain : Layout := ⟨none, none, 2, false, false⟩

/-- Always positional, with the sign of a negative zero. -/
def exact : Layout := ⟨none, none, 2, false, true⟩

/-- Always positional and never without a decimal point. -/
def pointed : Layout := ⟨none, none, 2, true, true⟩

/-- The text with an exponent: one digit before the point, and a signed exponent. -/
def exponential (l : Layout) (d : Decimal) : String :=
  let ds := Nat.toDigits 10 d.digits
  let power := d.power
  let lead := String.ofList (ds.take 1) ++
    if ds.length ≤ 1 then "" else "." ++ String.ofList (ds.drop 1)
  if power < 0 then lead ++ "e-" ++ Decimal.padded l.negativeWidth power.natAbs
  else lead ++ "e+" ++ Decimal.padded 2 power.natAbs

def magnitude (l : Layout) (d : Decimal) : String :=
  let outside :=
    d.digits ≠ 0 ∧
      (l.exponentFrom.any (· ≤ d.power) ∨ l.exponentBelow.any (d.power < ·))
  if outside then l.exponential d
  else
    let t := d.positional
    if l.keepPoint ∧ ¬ t.toList.contains '.' then t ++ ".0" else t

def ofBinary (l : Layout) (b : Binary) : String :=
  let t := l.magnitude b.shortest
  if b.negative ∧ (l.signedZero ∨ b.mantissa ≠ 0) then "-" ++ t else t

def text (l : Layout) (x : Float) : String :=
  match Binary.ofFloat? x with
  | some b => l.ofBinary b
  | none => if x.isNaN then "NaN" else if x < 0 then "-Inf" else "+Inf"

end Layout

def fixedText (n : Nat) (x : Float) : String :=
  match Binary.ofFloat? x with
  | none => if x.isNaN then "NaN" else if x < 0 then "-Inf" else "+Inf"
  | some b =>
    let units := Decimal.padded (n + 1) (b.places n)
    let whole := String.ofList (units.toList.take (units.length - n))
    let sign := if b.negative then "-" else ""
    if n = 0 then sign ++ whole
    else sign ++ whole ++ "." ++ String.ofList (units.toList.drop (units.length - n))

end Deadwood
