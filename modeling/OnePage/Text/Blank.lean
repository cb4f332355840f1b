import OnePage.Text.CodePoint

/-!
# Blank code points

* `CodePoint.isBlank` is the class of code points that separate words: the Unicode spaces and line
  separators, and the control characters from tab to carriage return and from file separator to
  unit separator.
* `Text.trim` removes blanks at both ends.
-/

namespace OnePage

/-- Spaces, line separators and the control characters that act as such. -/
def CodePoint.isBlank (c : CodePoint) : Bool :=
  (0x09 ≤ c.value && c.value ≤ 0x0D) || (0x1C ≤ c.value && c.value ≤ 0x20) ||
  c.value == 0x85 || c.value == 0xA0 || c.value == 0x1680 ||
  (0x2000 ≤ c.value && c.value ≤ 0x200A) || c.value == 0x2028 || c.value == 0x2029 ||
  c.value == 0x202F || c.value == 0x205F || c.value == 0x3000

namespace Text

/-- The text without the blanks it starts with. -/
def trimStart (text : Text) : Text := text.dropWhile CodePoint.isBlank

/-- The text without the blanks at either end. -/
def trim (text : Text) : Text := (trimStart (trimStart text).reverse).reverse

end Text

end OnePage
