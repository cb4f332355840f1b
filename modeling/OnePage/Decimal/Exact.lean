import OnePage.Text.CodePoint

/-!
# The exact value of a double

A finite double is an integer times a power of two, and `Exact.ofFloat` reads both off its bits.
Digits are then chosen, and places rounded, by arithmetic on natural numbers alone.

* `Exact` is a double with nothing left implicit: not a number, infinite, or sign, significand and
  exponent of two.
* `Exact.truncate` is the whole number next to a finite double in the direction of zero.
* `milliseconds` measures the time between two readings of a clock.
* `ofWhole` is the double nearest to a whole number. Neither way can all numbers go, and
  `RangeFault` says why not.
* `roundDiv` is a quotient rounded to the nearest whole number, halves to the even one.
-/

namespace OnePage

namespace Decimal

/-- What a double stands for. -/
inductive Exact where
  /-- No number at all. -/
  | nan
  /-- Beyond every number, above or below. -/
  | infinite (negative : Bool)
  /-- The number `significand * 2 ^ exponent`, or its negation. -/
  | finite (negative : Bool) (significand : Nat) (exponent : Int)
deriving DecidableEq

/-- One more than the largest fraction that 52 bits hold. -/
def fractionLimit : Nat := Nat.pow 2 52

/-- One more than the largest scale that eleven bits hold. -/
def scaleLimit : Nat := Nat.pow 2 11

/-- The value of a double, from its sign bit, its eleven exponent bits and its fraction bits. -/
def Exact.ofFloat (x : Float) : Exact :=
  let bits := x.toBits.toNat
  let negative := bits / fractionLimit / scaleLimit = 1
  let scale : Nat := bits / fractionLimit % scaleLimit
  let fraction := bits % fractionLimit
  if scale + 1 = scaleLimit then if fraction = 0 then .infinite negative else .nan
  else if scale = 0 then .finite negative fraction (-1074)
  else .finite negative (fractionLimit + fraction) ((scale : Int) - 1075)

/-- Why there is no whole number for a double, or no double for a whole number. -/
inductive RangeFault where
  /-- The double is no number. -/
  | nan
  /-- The double is infinite. -/
  | infinite
  /-- The whole number is beyond the largest double. -/
  | tooLarge
deriving DecidableEq

/-- The words for a number that has no counterpart. -/
def RangeFault.message : RangeFault → Text
  | nan => "cannot convert float NaN to integer"
  | infinite => "cannot convert float infinity to integer"
  | tooLarge => "int too large to convert to float"

/-- The whole number reached by dropping the fraction; only finite doubles have one. -/
def Exact.truncate : Exact → Except RangeFault Int
  | .finite negative significand exponent =>
    let magnitude := significand * Nat.pow 2 exponent.toNat / Nat.pow 2 (-exponent).toNat
    .ok (if negative then -magnitude else magnitude)
  | .nan => .error .nan
  | .infinite _ => .error .infinite

/-- Whole milliseconds between two times in seconds. -/
def milliseconds (start finish : Float) : Except RangeFault Int :=
  (Exact.ofFloat ((finish - start) * 1000.0)).truncate

/-- The double nearest to a whole number, if it is finite. -/
def ofWhole (n : Int) : Except RangeFault Float :=
  let x := Float.ofInt n
  match Exact.ofFloat x with
  | .finite _ _ _ => .ok x
  | _ => .error .tooLarge

/-- The quotient rounded to the nearest whole number; a half goes to the even neighbour. -/
def roundDiv (numerator denominator : Nat) : Nat :=
  let quotient := numerator / denominator
  let twice := 2 * (numerator % denominator)
  if twice < denominator ∨ (twice = denominator ∧ quotient % 2 = 0) then quotient
  else quotient + 1

end Decimal

end OnePage
