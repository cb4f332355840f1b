import OnePage.Decimal.Notation
import OnePage.Json.Value
import OnePage.Text.Quoted

/-!
# JSON values in messages

A message shows a string as it stands, and inside an array or object between quotation marks. Words
for truth values and for nothing have a capital letter.

* `Number.shown` is how a message shows a number.
* `Value.shown` is how a message shows a value.
-/

namespace OnePage

namespace Json

/-- How a message shows a number. -/
def Number.shown : Number → Text
  | .whole n => Numeral.ofInt n
  | .real x => Decimal.Style.plain.render x

mutual

/-- How a message shows a value inside others. -/
def Value.inside : Value → Text
  | .null => "None"
  | .bool true => "True"
  | .bool false => "False"
  | .number n => n.shown
  | .string text => text.quoted
  | .array items => "[" ++ Text.join ", " (insideItems items) ++ "]"
  | .object members => r"{" ++ Text.join ", " (insideMembers members) ++ r"}"

/-- How a message shows the items of an array. -/
def insideItems : List Value → List Text
  | [] => []
  | item :: items => item.inside :: insideItems items

/-- How a message shows the members of an object. -/
def insideMembers : List (Text × Value) → List Text
  | [] => []
  | (key, value) :: members => (key.quoted ++ ": " ++ value.inside) :: insideMembers members

end

/-- How a message shows a value. -/
def Value.shown : Value → Text
  | .string text => text
  | value => value.inside

end Json

end OnePage
