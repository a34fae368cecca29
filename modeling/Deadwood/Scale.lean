/-!
# Scales of confidence

Confidences, thresholds and scores are numbers on one scale. The program runs on floating-point
numbers; everything that weighs confidences is written over any scale, so that the same definitions
can also be read over exact numbers.

## Main definitions

* `Scale`: the operations that weighing confidences needs.
* `Scale.clamp`: force a number between zero and one.
-/

namespace Deadwood

/-- Numbers that can be added, multiplied and compared. -/
class Scale (R : Type) extends OfScientific R, Add R, Sub R, Mul R, LT R, LE R where
  /-- A count on the scale. -/
  count : Nat → R
  decLt : DecidableLT R
  decLe : DecidableLE R

namespace Scale

variable {R : Type} [Scale R]

instance : DecidableLT R := decLt

instance : DecidableLE R := decLe

/-- Force a number between zero and one. -/
def clamp (x : R) : R :=
  if x ≤ 0.0 then 0.0 else if 1.0 ≤ x then 1.0 else x

def least (x y : R) : R :=
  if x < y then x else y

/-- Whether a number is below zero or above one. -/
def outside (x : R) : Bool :=
  x < 0.0 || 1.0 < x

end Scale

/-- Floating-point numbers are the scale of the running program. -/
instance : Scale Float where
  count := Float.ofNat
  decLt := inferInstance
  decLe := inferInstance

/-- Exact numbers. -/
instance : Scale Rat where
  count n := n
  decLt := inferInstance
  decLe := inferInstance

end Deadwood
