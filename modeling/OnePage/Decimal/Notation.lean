import OnePage.Decimal.Shortest

/-!
# Writing doubles

Which digits a double has is settled in `OnePage.Decimal.Shortest`; how they are laid out is a
matter of taste, and `Style` records one taste.

* `Style.render` writes a double: near one positionally and with a decimal point, elsewhere with an
  exponent that always has a sign.
* `Style.plain` is how messages show a number.
* `hundredths` writes a quotient with two places after the point.
-/

namespace OnePage

namespace Decimal

/-- How doubles are laid out. -/
structure Style where
  /-- The least power of ten whose numbers are written positionally. From `10 ^ 16` on they no
  longer are. -/
  leastPositional : Int
  /-- The least number of digits of a negative exponent. -/
  negativePlaces : Nat
  /-- What stands for a double that is no number. -/
  nan : Text
  /-- What stands for positive infinity. -/
  infinity : Text
  /-- What stands for negative infinity. -/
  negativeInfinity : Text

/-- How messages show a number: positionally from `0.0001` up to `10 ^ 16`. -/
def Style.plain : Style where
  leastPositional := -4
  negativePlaces := 2
  nan := "nan"
  infinity := "inf"
  negativeInfinity := "-inf"

/-- Digits with a decimal point at their power of ten, and at least one digit on either side. -/
def Scientific.positional (s : Scientific) : Text :=
  let zeros (n : Nat) : Text := List.replicate n (CodePoint.ofChar '0')
  if s.exponent < 0 then "0." ++ zeros ((-s.exponent).toNat - 1) ++ s.digits
  else
    let whole := s.exponent.toNat + 1
    let padded := s.digits ++ zeros (whole - s.digits.length)
    let fraction := padded.drop whole
    padded.take whole ++ "." ++ if fraction.isEmpty then zeros 1 else fraction

/-- Digits with the point after the first and the power of ten after an `e`; a negative one has at
least `negativePlaces` digits. -/
def Scientific.exponential (s : Scientific) (negativePlaces : Nat) : Text :=
  let mantissa : Text := match s.digits with
    | first :: second :: rest => first :: CodePoint.ofChar '.' :: second :: rest
    | digits => digits
  let places := Numeral.ofNat s.exponent.natAbs
  if s.exponent < 0 then
    mantissa ++ "e-" ++ List.replicate (negativePlaces - places.length) (CodePoint.ofChar '0') ++
      places
  else mantissa ++ "e+" ++ places

/-- Digits laid out as the style asks. -/
def Style.layOut (style : Style) (s : Scientific) : Text :=
  if style.leastPositional ≤ s.exponent ∧ s.exponent < 16 then s.positional
  else s.exponential style.negativePlaces

/-- A double in the given style. -/
def Style.render (style : Style) (x : Float) : Text :=
  match Exact.ofFloat x with
  | .nan => style.nan
  | .infinite false => style.infinity
  | .infinite true => style.negativeInfinity
  | .finite negative significand exponent =>
    let magnitude : Text :=
      if significand = 0 then Text.ofString "0.0"
      else style.layOut (shortest significand exponent)
    if negative then "-" ++ magnitude else magnitude

/-- A finite double rounded to two places after the point, an exact half to the even neighbour. -/
def hundredths (x : Float) : Text :=
  match Exact.ofFloat x with
  | .finite negative significand exponent =>
    let rounded :=
      roundDiv (significand * Nat.pow 2 exponent.toNat * 100) (Nat.pow 2 (-exponent).toNat)
    let fraction := rounded % 100
    let magnitude := Numeral.ofNat (rounded / 100) ++ "." ++
      [CodePoint.ofDigit (fraction / 10), CodePoint.ofDigit (fraction % 10)]
    if negative then "-" ++ magnitude else magnitude
  | _ => Style.plain.render x

end Decimal

end OnePage
