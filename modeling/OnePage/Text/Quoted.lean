import OnePage.Text.Numeral
import OnePage.Text.Visible

/-!
# Quotations

A value that a message repeats is put between quotation marks, so that its ends and its invisible
code points can be seen. The marks are single; a text that holds single marks and no double ones is
put between double marks instead. A backslash goes before a backslash and before the mark in use;
line feed, carriage return and tab have a letter each, and everything else that is not visible is
given by its number, in as few of two, four or eight hexadecimal places as will hold it.
-/

namespace OnePage

namespace Text

/-- A code point by its number: two, four or eight hexadecimal places after a letter that says how
many there are. -/
def numbered (c : CodePoint) : Text :=
  if c.value < 0x100 then "\\x" ++ Numeral.hex 2 c.value
  else if c.value < 0x10000 then "\\u" ++ Numeral.hex 4 c.value
  else "\\U" ++ Numeral.hex 8 c.value

/-- How a code point is shown between two `mark`s. -/
def quotedCodePoint (mark c : CodePoint) : Text :=
  if c = mark ∨ c = CodePoint.ofChar '\\' then [CodePoint.ofChar '\\', c]
  else if c = CodePoint.ofChar '\n' then "\\n"
  else if c = CodePoint.ofChar '\r' then "\\r"
  else if c = CodePoint.ofChar '\t' then "\\t"
  else if c.isVisible then [c]
  else numbered c

/-- The mark a text is put between. -/
def quotationMark (text : Text) : CodePoint :=
  if CodePoint.ofChar '\'' ∈ text ∧ CodePoint.ofChar '"' ∉ text then CodePoint.ofChar '"'
  else CodePoint.ofChar '\''

/-- The text between quotation marks. -/
def quoted (text : Text) : Text :=
  let mark := quotationMark text
  mark :: text.flatMap (quotedCodePoint mark) ++ [mark]

end Text

end OnePage
