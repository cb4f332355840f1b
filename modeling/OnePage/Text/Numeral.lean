import OnePage.Text.CodePoint

/-!
# Numerals

* `Numeral.ofNat` and `Numeral.ofInt` write a number in decimal without leading zeros.
* `Numeral.value` is the number a run of digits stands for, and `Numeral.isCanonical` singles out
  the one numeral of each number: no sign, no leading zero, ASCII digits only.
* `Numeral.read` reads such a run, unless it has more than `digitLimit` digits; `Numeral.TooLong`
  says how many it has.
* `Numeral.hex` writes a number in a fixed number of lower-case hexadecimal places.
-/

namespace OnePage

namespace Numeral

/-- The decimal numeral of a natural number. -/
def ofNat (n : Nat) : Text := (Nat.toDigits 10 n).map CodePoint.ofChar

/-- The decimal numeral of an integer, negative ones with a minus sign. -/
def ofInt : Int → Text
  | .ofNat n => ofNat n
  | .negSucc n => CodePoint.ofChar '-' :: ofNat (n + 1)

/-- The number that a run of ASCII digits stands for. -/
def value (digits : Text) : Nat := digits.foldl (fun n c => 10 * n + c.digitValue) 0

/-- A run of this many digits is still read. -/
def digitLimit : Nat := 4300

/-- A run of digits that is too long to be read. -/
structure TooLong where
  /-- How many digits it has. -/
  digits : Nat
deriving DecidableEq

/-- The words for a run of digits that is too long. -/
def TooLong.message (fault : TooLong) : Text :=
  "Exceeds the limit (" ++ ofNat digitLimit ++
    " digits) for integer string conversion: value has " ++ ofNat fault.digits ++
    " digits; use sys.set_int_max_str_digits() to increase the limit"

/-- The number that a run of ASCII digits stands for, if it is not too long. -/
def read (digits : Text) : Except TooLong Nat :=
  if digitLimit < digits.length then .error ⟨digits.length⟩ else .ok (value digits)

/-- Whether the text is how `ofNat` writes a number. -/
def isCanonical (text : Text) : Bool :=
  text.all CodePoint.isDigit &&
    match text with
    | [] => false
    | c :: rest => c != CodePoint.ofChar '0' || rest.isEmpty

/-- The last `places` hexadecimal digits of a number. -/
def hex (places n : Nat) : Text :=
  let digits := (Nat.toDigits 16 (n % Nat.pow 16 places)).map CodePoint.ofChar
  List.replicate (places - digits.length) (CodePoint.ofChar '0') ++ digits

end Numeral

end OnePage
