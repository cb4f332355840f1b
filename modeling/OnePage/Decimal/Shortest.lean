import OnePage.Decimal.Exact
import OnePage.Text.Numeral

/-!
# The fewest digits that identify a double

The decimals that are nearer to a double than to any other form an interval around it: from halfway
to the neighbour below to halfway to the neighbour above, ends included when the significand is
even. Of the decimals in that interval the one with the fewest digits is chosen, of several such the
nearest, and of two equally near the one whose last digit is even.

* `Interval` is that interval around `significand * 2 ^ exponent`, in quarters of the last place.
* `Interval.onGrid?` looks for a multiple of a power of ten in it. Only the two neighbours of the
  value need to be tried: if any multiple lies in the interval, one of those two does.
* `shortest` tries one digit, two digits and so on. Seventeen are always enough.
-/

namespace OnePage

namespace Decimal

/-- A positive decimal number: `digits` is read with the point after its first digit, and the
result is multiplied by `10 ^ exponent`. -/
structure Scientific where
  /-- The significant digits, without leading or trailing zeros. -/
  digits : Text
  /-- The power of ten of the first digit. -/
  exponent : Int
deriving DecidableEq

/-- The interval of numbers that a positive double stands for. -/
structure Interval where
  /-- The significand of the double. -/
  significand : Nat
  /-- The exponent of two that goes with it. -/
  exponent : Int
  /-- Whether the neighbour below is only half a place away. -/
  narrow : Bool

namespace Interval

/-- The interval of `significand * 2 ^ exponent`: above the least exponent, a power of two has its
lower neighbour at half the distance. -/
def of (significand : Nat) (exponent : Int) : Interval :=
  ⟨significand, exponent, significand = fractionLimit ∧ exponent ≠ -1074⟩

/-- The lower end, in quarters of the last place. -/
def low (i : Interval) : Nat := 4 * i.significand - if i.narrow then 1 else 2

/-- The upper end, in quarters of the last place. -/
def high (i : Interval) : Nat := 4 * i.significand + 2

/-- A number of quarters of the last place, as a multiple of a unit that it shares with the numbers
`decimal` measures for the same power of ten. -/
def quarters (i : Interval) (power : Int) (n : Nat) : Nat :=
  n * Nat.pow 2 (i.exponent - 2).toNat * Nat.pow 10 (-power).toNat

/-- The number `n * 10 ^ power`, as a multiple of the unit of `quarters`. -/
def decimal (i : Interval) (power : Int) (n : Nat) : Nat :=
  n * Nat.pow 10 power.toNat * Nat.pow 2 (2 - i.exponent).toNat

/-- Whether `n * 10 ^ power` lies in the interval. -/
def holds (i : Interval) (power : Int) (n : Nat) : Bool :=
  let x := i.decimal power n
  let low := i.quarters power i.low
  let high := i.quarters power i.high
  if i.significand % 2 = 0 then low ≤ x && x ≤ high else low < x && x < high

/-- The multiple of `10 ^ power` in the interval that is nearest to the double. -/
def onGrid? (i : Interval) (power : Int) : Option Nat :=
  let value := i.quarters power (4 * i.significand)
  let below := value / i.decimal power 1
  let above := below + 1
  match i.holds power below, i.holds power above with
  | true, true =>
    let twice := 2 * value
    let sum := i.decimal power below + i.decimal power above
    some (if twice < sum ∨ (twice = sum ∧ below % 2 = 0) then below else above)
  | true, false => some below
  | false, true => some above
  | false, false => none

/-- The power of ten of the first digit of the double. -/
def scale (i : Interval) : Int :=
  let scaled :=
    i.significand * Nat.pow 2 i.exponent.toNat * Nat.pow 10 400 / Nat.pow 2 (-i.exponent).toNat
  (Numeral.ofNat scaled).length - 401

end Interval

/-- The number `n * 10 ^ power` with its trailing zeros dropped. -/
def Scientific.of (n : Nat) (power : Int) : Scientific :=
  let digits := Numeral.ofNat n
  ⟨(digits.reverse.dropWhile (· = CodePoint.ofChar '0')).reverse, power + digits.length - 1⟩

/-- The shortest decimal that identifies the positive double `significand * 2 ^ exponent`; should no
grid have one, all the digits of its exact value. -/
def shortest (significand : Nat) (exponent : Int) : Scientific :=
  let i := Interval.of significand exponent
  let scale := i.scale
  let found := (List.range 17).findSome? fun (more : Nat) =>
    (i.onGrid? (scale - more)).map fun n => Scientific.of n (scale - more)
  found.getD <|
    Scientific.of (significand * Nat.pow 2 exponent.toNat * Nat.pow 5 (-exponent).toNat)
      (min exponent 0)

end Decimal

end OnePage
