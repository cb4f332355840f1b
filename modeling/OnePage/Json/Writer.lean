import OnePage.Decimal.Notation
import OnePage.Json.Value

/-!
# Writing JSON

JSON is written without any space between its parts, objects with their members in order.

* `Layout` says how: how doubles are laid out, and whether everything beyond ASCII is escaped.
* `Layout.standard`, `Layout.compact` and `Layout.ascii` are the three layouts in use. The compact
  one has no words for what is not a number, writes `0.00001` positionally and spares the zero in
  small negative exponents; otherwise it agrees with the standard one.
* `write` writes a value. What it writes, the reader reads.
* An `Encoder` writes values for a page, with the help of a fast encoder if there is one. That is
  not part of the program: `encodeCompact` is one that writes in the compact layout what fits, and
  `Value.fitsCompact` says what does.
* `embed` is how a value appears in a page. It fails if containers nest deeper than the standard
  encoder follows.
-/

namespace OnePage

namespace Json

/-- How JSON is written. -/
structure Layout where
  /-- How doubles are laid out. -/
  style : Decimal.Style
  /-- Whether code points beyond ASCII are escaped. -/
  asciiOnly : Bool

/-- The words of JSON readers for what is not a number, and otherwise the style of messages. -/
def standardStyle : Decimal.Style where
  leastPositional := -4
  negativePlaces := 2
  nan := "NaN"
  infinity := "Infinity"
  negativeInfinity := "-Infinity"

/-- The style of the compact layout. -/
def compactStyle : Decimal.Style where
  leastPositional := -5
  negativePlaces := 1
  nan := "null"
  infinity := "null"
  negativeInfinity := "null"

/-- The layout any value can be written in. -/
def Layout.standard : Layout := ⟨standardStyle, false⟩

/-- The layout of fast encoders. -/
def Layout.compact : Layout := ⟨compactStyle, false⟩

/-- The standard layout with everything beyond ASCII escaped. -/
def Layout.ascii : Layout := ⟨standardStyle, true⟩

/-! ## Strings -/

/-- An escape with the number of a 16-bit unit. -/
def unitEscape (n : Nat) : Text := "\\u" ++ Numeral.hex 4 n

/-- A code point inside a string. -/
def writeCodePoint (layout : Layout) (c : CodePoint) : Text :=
  if c = CodePoint.ofChar '"' then "\\\""
  else if c = CodePoint.ofChar '\\' then "\\\\"
  else if c = CodePoint.ofChar '\n' then "\\n"
  else if c = CodePoint.ofChar '\r' then "\\r"
  else if c = CodePoint.ofChar '\t' then "\\t"
  else if c.value = 0x0C then "\\f"
  else if c.value = 0x08 then "\\b"
  else if c.value < 0x20 ∨ (layout.asciiOnly ∧ 0x7F ≤ c.value ∧ c.value < 0x10000) then
    unitEscape c.value
  else if layout.asciiOnly ∧ 0x10000 ≤ c.value then
    let beyond := c.value - 0x10000
    unitEscape (0xD800 + beyond / 0x400) ++ unitEscape (0xDC00 + beyond % 0x400)
  else [c]

/-- A string with its quotes. -/
def writeString (layout : Layout) (text : Text) : Text :=
  CodePoint.ofChar '"' :: text.flatMap (writeCodePoint layout) ++ [CodePoint.ofChar '"']

/-! ## Values -/

/-- A number. -/
def writeNumber (layout : Layout) : Number → Text
  | .whole n => Numeral.ofInt n
  | .real x => layout.style.render x

mutual

/-- A value. -/
def write (layout : Layout) : Value → Text
  | .null => "null"
  | .bool true => "true"
  | .bool false => "false"
  | .number n => writeNumber layout n
  | .string text => writeString layout text
  | .array items => CodePoint.ofChar '[' :: writeItems layout items ++ [CodePoint.ofChar ']']
  | .object members => CodePoint.ofChar '{' :: writeMembers layout members ++ [CodePoint.ofChar '}']

/-- The items of an array with commas between them. -/
def writeItems (layout : Layout) : List Value → Text
  | [] => []
  | [item] => write layout item
  | item :: next :: items =>
    write layout item ++ CodePoint.ofChar ',' :: writeItems layout (next :: items)

/-- The members of an object with commas between them. -/
def writeMembers (layout : Layout) : List (Text × Value) → Text
  | [] => []
  | [(key, value)] => writeString layout key ++ CodePoint.ofChar ':' :: write layout value
  | (key, value) :: next :: members =>
    writeString layout key ++ CodePoint.ofChar ':' :: write layout value ++
      CodePoint.ofChar ',' :: writeMembers layout (next :: members)

end

/-! ## What fits the compact layout -/

/-- Whether a text holds no surrogate. -/
def isEncodable (text : Text) : Bool := text.all fun c => !c.isSurrogate

mutual

/-- Whether every whole number fits into 64 bits, signed or not, and no string or key holds a
surrogate. -/
def Value.isPortable : Value → Bool
  | .number (.whole n) => -0x8000000000000000 ≤ n && n < 0x10000000000000000
  | .string text => isEncodable text
  | .array items => itemsPortable items
  | .object members => membersPortable members
  | _ => true

/-- Whether every item is portable. -/
def itemsPortable : List Value → Bool
  | [] => true
  | item :: items => item.isPortable && itemsPortable items

/-- Whether every member is portable, its key included. -/
def membersPortable : List (Text × Value) → Bool
  | [] => true
  | (key, value) :: members => isEncodable key && value.isPortable && membersPortable members

end

/-- A fast encoder follows at most this many containers inside each other. -/
def compactDepth : Nat := 254

/-- Whether a fast encoder takes the value; it refuses all of it or nothing. -/
def Value.fitsCompact (v : Value) : Bool := v.isPortable && v.depth ≤ compactDepth

/-- Writes what fits in the compact layout, and refuses everything else. -/
def encodeCompact (v : Value) : Option Text :=
  if v.fitsCompact then some (write .compact v) else none

/-! ## Values in a page -/

/-- Why a value cannot be written. -/
inductive WriteFault where
  /-- Containers lie too deep inside each other. -/
  | nesting
deriving DecidableEq

/-- The words for a value that cannot be written. -/
def WriteFault.message : WriteFault → Text
  | nesting => "maximum recursion depth exceeded while encoding a JSON object"

/-- The encoders at hand. -/
structure Encoder where
  /-- The fast one, if there is one. It gives the text of a value or refuses it. -/
  fast? : Option (Value → Option Text)
  /-- The standard one follows at most this many containers inside each other. -/
  room : Nat

namespace Encoder

/-- The text of an array or object from the fast encoder. -/
def fastText? (encoder : Encoder) (v : Value) : Option Text :=
  if v.isContainer then encoder.fast?.bind fun encode => encode v else none

/-- The text of a value from the standard encoder. -/
def standardText (encoder : Encoder) (v : Value) : Except WriteFault Text :=
  if v.depth ≤ encoder.room then .ok (write .standard v) else .error .nesting

end Encoder

/-- So many containers are followed by a standard encoder if calls nest a thousand deep, and a
program has come to the point where it writes values. -/
def usualRoom : Nat := 988

/-- The encoders of such a program, with a fast one. -/
def Encoder.usual : Encoder := ⟨some encodeCompact, usualRoom⟩

/-- How a value appears in a page: a string as it stands, an array or object as the fast encoder
writes it unless that refuses it, and everything else as the standard encoder does. -/
def embed (encoder : Encoder) : Value → Except WriteFault Text
  | .string text => .ok text
  | v =>
    match encoder.fastText? v with
    | some text => .ok text
    | none => encoder.standardText v

end Json

end OnePage
