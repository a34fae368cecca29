/-!
# Decimal numbers

A finite binary floating-point number is `m * 2 ^ q`; a decimal number is `digits * 10 ^ exponent`.
This module finds the decimal with the fewest digits that still rounds to a given binary number,
and the decimal with a given number of places that is nearest to it. Both are done in exact integer
arithmetic.

## Main definitions

* `Decimal`: a decimal number.
* `Binary`, `Binary.ofFloat?`: sign, mantissa and exponent of a finite number.
* `Binary.shortest`: the fewest digits that read back.
* `Binary.places`: a fixed number of places.
-/

namespace Deadwood

/-- The number `digits * 10 ^ exponent`. -/
structure Decimal where
  digits : Nat
  exponent : Int
  deriving Repr, DecidableEq

structure Ratio where
  num : Nat
  den : Nat

/-- The number `± mantissa * 2 ^ exponent`. The flag says that the next smaller number is only half
as far away as the next larger one. -/
structure Binary where
  negative : Bool
  mantissa : Nat
  exponent : Int
  narrowBelow : Bool

namespace Binary

def ofFloat? (x : Float) : Option Binary :=
  let bits : Nat := x.toBits.toNat
  let negative : Bool := bits / 0x8000000000000000 = 1
  let field : Nat := bits / 0x10000000000000 % 0x800
  let fraction : Nat := bits % 0x10000000000000
  if field = 2047 then none
  else if field = 0 then some ⟨negative, fraction, -1074, false⟩
  else some ⟨negative, 0x10000000000000 + fraction, (field : Int) - 1075, fraction = 0 && 1 < field⟩

/-- The same number seen as one of 24 significant bits, when it is one of them. -/
def single? (b : Binary) : Option Binary :=
  if b.mantissa = 0 then some { b with exponent := -149, narrowBelow := false }
  else if b.exponent < -202 then none
  else
    -- Leave as many bits as the smaller format has at this magnitude.
    let drop := max 29 ((-149 - b.exponent).toNat)
    if b.mantissa % Nat.pow 2 drop ≠ 0 then none
    else
      let mantissa := b.mantissa / Nat.pow 2 drop
      let exponent := b.exponent + drop
      if 104 < exponent then none
      else some ⟨b.negative, mantissa, exponent, mantissa = 0x800000 && -149 < exponent⟩

/-- `n * 2 ^ q` as a quotient. -/
def scaled (n : Nat) (q : Int) : Ratio :=
  if 0 ≤ q then ⟨n * Nat.pow 2 q.toNat, 1⟩ else ⟨n, Nat.pow 2 (-q).toNat⟩

end Binary

namespace Ratio

def timesTen (r : Ratio) (k : Int) : Ratio :=
  if 0 ≤ k then ⟨r.num * Nat.pow 10 k.toNat, r.den⟩ else ⟨r.num, r.den * Nat.pow 10 (-k).toNat⟩

/-- The least `j` below `fuel`, counted from `j`, such that the quotient times `10 ^ j` is at least
one. -/
def lift (r : Ratio) : Nat → Nat → Nat
  | 0, j => j
  | fuel + 1, j => if r.den ≤ r.num * Nat.pow 10 j then j else lift r fuel (j + 1)

/-- The position of the leading decimal digit of a positive quotient: `k` with
`10 ^ k ≤ r < 10 ^ (k + 1)`. -/
def magnitude (r : Ratio) : Int :=
  if r.den ≤ r.num then ((Nat.toDigits 10 (r.num / r.den)).length : Int) - 1
  else -(r.lift 400 0 : Int)

end Ratio

/-- Drop zeros at the end of the digits, `fuel` of them at most. -/
def Decimal.trimmed : Nat → Nat → Int → Decimal
  | 0, digits, exponent => ⟨digits, exponent⟩
  | fuel + 1, digits, exponent =>
    if digits ≠ 0 ∧ digits % 10 = 0 then trimmed fuel (digits / 10) (exponent + 1)
    else ⟨digits, exponent⟩

namespace Binary

/-- The interval of the numbers that round to a binary number, in quarters of its last place. -/
structure Interval where
  low : Ratio
  value : Ratio
  high : Ratio
  /-- Whether the two ends round to the number as well. -/
  closed : Bool

def interval (b : Binary) : Interval :=
  let q := b.exponent - 2
  { low := scaled (4 * b.mantissa - if b.narrowBelow then 1 else 2) q
    value := scaled (4 * b.mantissa) q
    high := scaled (4 * b.mantissa + 2) q
    closed := b.mantissa % 2 = 0 }

/-- Whether `c * 10 ^ k` lies in the interval. -/
def Interval.has (i : Interval) (c : Nat) (k : Int) : Bool :=
  let low := i.low.timesTen (-k)
  let high := i.high.timesTen (-k)
  if i.closed then low.num ≤ c * low.den && c * high.den ≤ high.num
  else low.num < c * low.den && c * high.den < high.num

/-- The decimal with `n` digits that lies in the interval, the nearer of two. -/
def Interval.pick? (i : Interval) (top : Int) (n : Nat) : Option Decimal :=
  let k := top - n + 1
  let v := i.value.timesTen (-k)
  let c := v.num / v.den
  let below := i.has c k
  let above := i.has (c + 1) k
  if below && above then
    -- Twice the distance to the lower neighbour, against one step of the grid.
    let twice := 2 * (v.num - c * v.den)
    if twice < v.den || (twice = v.den && c % 2 = 0) then some ⟨c, k⟩ else some ⟨c + 1, k⟩
  else if below then some ⟨c, k⟩
  else if above then some ⟨c + 1, k⟩
  else none

/-- The decimal with the fewest digits that rounds to the magnitude of `b`. -/
def shortest (b : Binary) : Decimal :=
  if b.mantissa = 0 then ⟨0, 0⟩
  else
    let i := b.interval
    let top := i.value.magnitude
    match (List.range 17).findSome? fun n => i.pick? top (n + 1) with
    | some d => Decimal.trimmed 20 d.digits d.exponent
    | none => ⟨0, 0⟩

/-- The magnitude of `b` in units of `10 ^ -n`, a half going to the even neighbour. -/
def places (b : Binary) (n : Nat) : Nat :=
  let v := (scaled b.mantissa b.exponent).timesTen n
  let c := v.num / v.den
  let twice := 2 * (v.num - c * v.den)
  if twice < v.den || (twice = v.den && c % 2 = 0) then c else c + 1

end Binary

end Deadwood
