import OnePage.Text.Blank
import OnePage.Text.DecimalDigit
import OnePage.Text.Numeral

/-!
# Reading doubles

* `ofDigits` is the double nearest to a decimal: whole digits, digits after the point, and a power
  of ten. Decimals that are certainly beyond the largest double, or below half the least one, are
  decided by the place of their first digit, so that no exponent is too large to be read.
* `parse?` reads a number as it is typed on a command line: with blanks around it, an underscore
  between two digits, the digits of any script, and infinity and not-a-number by name.
-/

namespace OnePage

namespace Decimal

/-- The double nearest to `digits * 10 ^ exponent`, the digits read as one whole number. -/
def ofScaledDigits (digits : Text) (exponent : Int) : Float :=
  let significant := digits.dropWhile (· = CodePoint.ofChar '0')
  let places := significant.length + exponent
  if significant.isEmpty ∨ places < -400 then 0.0
  else if 400 < places then 1.0 / 0.0
  else Float.ofScientific (Numeral.value significant) (exponent < 0) exponent.natAbs

/-- The double nearest to the decimal with the given digits before and after the point, multiplied
by a power of ten. -/
def ofDigits (whole fraction : Text) (exponent : Int) : Float :=
  ofScaledDigits (whole ++ fraction) (exponent - fraction.length)

/-! ## Numbers as they are typed -/

/-- Digits of other scripts and blanks of other alphabets, replaced by ASCII ones; nothing is left
for any other code point beyond ASCII. -/
def asciiForm? (text : Text) : Option Text :=
  text.mapM fun c =>
    if c.value < 0x7F then some c
    else if c.isBlank then some (CodePoint.ofChar ' ')
    else c.decimalValue?.map CodePoint.ofDigit

/-- An ASCII blank: a space or a control character from tab to carriage return. -/
def isPlainBlank (c : CodePoint) : Bool := c.value == 0x20 || (0x09 ≤ c.value && c.value ≤ 0x0D)

/-- The text without its underscores, each of which must stand between two digits. -/
def withoutUnderscores? : (afterDigit : Bool) → Text → Option Text
  | _, [] => some []
  | afterDigit, c :: text =>
    if c = CodePoint.ofChar '_' then
      match text with
      | d :: _ => if afterDigit && d.isDigit then withoutUnderscores? false text else none
      | [] => none
    else (withoutUnderscores? c.isDigit text).map (c :: ·)

/-- The exponent part of a number, if the text is one or empty. -/
def exponentPart? (text : Text) : Option Int :=
  match text with
  | [] => some 0
  | e :: text =>
    if e.toLower ≠ CodePoint.ofChar 'e' then none
    else
      let (negative, digits) := match text with
        | c :: digits =>
          if c = CodePoint.ofChar '-' then (true, digits)
          else if c = CodePoint.ofChar '+' then (false, digits)
          else (false, text)
        | [] => (false, text)
      if digits.isEmpty ∨ !digits.all CodePoint.isDigit then none
      else
        let value : Int := Numeral.value digits
        some (if negative then -value else value)

/-- A number without a sign. -/
def unsigned? (text : Text) : Option Float :=
  let word := text.toLower
  if word = ("inf" : Text) ∨ word = ("infinity" : Text) then some (1.0 / 0.0)
  else if word = ("nan" : Text) then some (0.0 / 0.0)
  else
    let whole := text.takeWhile CodePoint.isDigit
    let rest := text.dropWhile CodePoint.isDigit
    let afterPoint := match rest with
      | c :: rest => if c = CodePoint.ofChar '.' then some rest else none
      | [] => none
    let (fraction, rest) := match afterPoint with
      | some rest => (rest.takeWhile CodePoint.isDigit, rest.dropWhile CodePoint.isDigit)
      | none => ([], rest)
    if whole.isEmpty ∧ fraction.isEmpty then none
    else (exponentPart? rest).map (ofDigits whole fraction)

/-- The number that a text shows. -/
def parse? (text : Text) : Option Float := do
  let ascii ← asciiForm? text
  let bare := ((ascii.dropWhile isPlainBlank).reverse.dropWhile isPlainBlank).reverse
  let number ← withoutUnderscores? false bare
  match number with
  | [] => none
  | c :: rest =>
    if c = CodePoint.ofChar '-' then (unsigned? rest).map fun x => -x
    else if c = CodePoint.ofChar '+' then unsigned? rest
    else unsigned? number

end Decimal

end OnePage
