import OnePage.Decimal.Literal
import OnePage.Json.Value

/-!
# Reading JSON

The reader takes standard JSON and three more words, `NaN`, `Infinity` and `-Infinity`. It walks
the text from the left and stops at the first thing that cannot be read.

* `read` is the reader. Its faults are `ReadFault`: the text is malformed at some place, a whole
  number has too many digits, or containers lie too deep inside each other. How deep they may lie
  depends on how deep calls may nest; `usualNesting` is what is left to a program that is called
  from nowhere deep.
* `Complaint` lists what can be wrong with a text, `Complaint.message` has the words for it, and
  `Place` counts where. `ReadFault.message` gives both.
* A `PartReader` returns what it has read together with the text after it.
* `readValue` recurses on how many more containers may be opened, so that it cannot run away. The
  items of one container are read by `readItems` and `readMembers`, which are handed a reader for
  what lies inside.
-/

namespace OnePage

namespace Json

/-! ## Faults -/

/-- What is wrong with a text. -/
inductive Complaint where
  /-- No value begins here. -/
  | value
  /-- A member must begin with a string. -/
  | propertyName
  /-- A colon must follow the name of a member. -/
  | colon
  /-- A comma or the end of the container must follow an item. -/
  | comma
  /-- The text goes on after its value. -/
  | extraData
  /-- A string has no end. -/
  | unterminated
  /-- A control character stands in a string. -/
  | control
  /-- A backslash is followed by nothing that it can escape. -/
  | escape
  /-- Four hexadecimal digits must follow. -/
  | unicodeEscape
  /-- The text begins with a byte order mark. -/
  | byteOrderMark
deriving DecidableEq

/-- The words for what is wrong. -/
def Complaint.message : Complaint → Text
  | value => "Expecting value"
  | propertyName => "Expecting property name enclosed in double quotes"
  | colon => "Expecting ':' delimiter"
  | comma => "Expecting ',' delimiter"
  | extraData => "Extra data"
  | unterminated => "Unterminated string starting at"
  | control => "Invalid control character at"
  | escape => "Invalid \\escape"
  | unicodeEscape => "Invalid \\uXXXX escape"
  | byteOrderMark => "Unexpected UTF-8 BOM (decode using utf-8-sig)"

/-- A place in a text. -/
structure Place where
  /-- How many code points come before it. -/
  offset : Nat
  /-- Its line, counted from one. -/
  line : Nat
  /-- Its column in that line, counted from one. -/
  column : Nat
deriving DecidableEq

/-- The place after `before`; lines end with a line feed and with nothing else. -/
def Place.after (before : Text) : Place where
  offset := before.length
  line := before.count (CodePoint.ofChar '\n') + 1
  column := (before.reverse.takeWhile (· ≠ CodePoint.ofChar '\n')).length + 1

/-- The two kinds of container. -/
inductive Container where
  /-- Items in brackets. -/
  | array
  /-- Members in braces. -/
  | object
deriving DecidableEq

/-- Why a text could not be read. -/
inductive ReadFault where
  /-- The text is no JSON. -/
  | malformed (complaint : Complaint) (place : Place)
  /-- A whole number has too many digits. -/
  | digits (fault : Numeral.TooLong)
  /-- A container of this kind was opened inside as many others as the reader follows. -/
  | nesting (container : Container)
deriving DecidableEq

/-- The word for a kind of container. -/
def Container.word : Container → Text
  | array => "array"
  | object => "object"

/-- The words for a complaint about a place. -/
def Complaint.messageAt (complaint : Complaint) (place : Place) : Text :=
  complaint.message ++ ": line " ++ Numeral.ofNat place.line ++ " column " ++
    Numeral.ofNat place.column ++ " (char " ++ Numeral.ofNat place.offset ++ ")"

/-- The words for a text that could not be read. -/
def ReadFault.message : ReadFault → Text
  | malformed complaint place => complaint.messageAt place
  | digits fault => fault.message
  | nesting container =>
    "maximum recursion depth exceeded while decoding a JSON " ++ container.word ++
      " from a unicode string"

/-- So many containers inside each other are followed by a reader if calls nest a thousand deep, and
a program has come to the point where it reads documents. -/
def usualNesting : Nat := 990

/-- A fault as the reader meets it: a complaint comes with the text that was still to be read. -/
inductive Stop where
  /-- The text is malformed where this much of it is left. -/
  | malformed (complaint : Complaint) (left : Text)
  /-- A whole number has too many digits. -/
  | digits (fault : Numeral.TooLong)
  /-- Containers lie too deep inside each other. -/
  | nesting (container : Container)

/-- A reader of one part: it returns the part and the text after it. -/
abbrev PartReader (α : Type) := Text → Except Stop (α × Text)

/-- The code points that may stand between the parts of a document. -/
def isSpace (c : CodePoint) : Bool :=
  c = CodePoint.ofChar ' ' || c = CodePoint.ofChar '\t' || c = CodePoint.ofChar '\n' ||
    c = CodePoint.ofChar '\r'

/-- The text without the space it begins with. -/
def skipSpace (text : Text) : Text := text.dropWhile isSpace

/-! ## Strings -/

/-- A part of a string: a code point as it stands, or a 16-bit unit given by an escape. -/
inductive Piece where
  /-- A code point that needs no joining. -/
  | plain (c : CodePoint)
  /-- A unit given by four hexadecimal digits. -/
  | unit (n : Nat)

/-- The number of a hexadecimal digit. -/
def hexValue? (c : CodePoint) : Option Nat :=
  if c.isDigit then some c.digitValue
  else if 0x61 ≤ c.value ∧ c.value ≤ 0x66 then some (c.value - 0x57)
  else if 0x41 ≤ c.value ∧ c.value ≤ 0x46 then some (c.value - 0x37)
  else none

/-- What a letter after a backslash stands for. -/
def escaped? (c : CodePoint) : Option CodePoint :=
  if c = CodePoint.ofChar '"' ∨ c = CodePoint.ofChar '\\' ∨ c = CodePoint.ofChar '/' then some c
  else if c = CodePoint.ofChar 'b' then some (CodePoint.ofNat 0x08)
  else if c = CodePoint.ofChar 'f' then some (CodePoint.ofNat 0x0C)
  else if c = CodePoint.ofChar 'n' then some (CodePoint.ofChar '\n')
  else if c = CodePoint.ofChar 'r' then some (CodePoint.ofChar '\r')
  else if c = CodePoint.ofChar 't' then some (CodePoint.ofChar '\t')
  else none

/-- The pieces up to the closing quote; `opening` is the text from the opening quote on. -/
def readPieces (opening : Text) : PartReader (List Piece)
  | [] => .error (.malformed .unterminated opening)
  | c :: text =>
    if c = CodePoint.ofChar '"' then .ok ([], text)
    else if c = CodePoint.ofChar '\\' then
      match text with
      | [] => .error (.malformed .unterminated opening)
      | e :: rest =>
        if e = CodePoint.ofChar 'u' then
          match rest with
          | h₃ :: h₂ :: h₁ :: h₀ :: next :: rest =>
            match hexValue? h₃, hexValue? h₂, hexValue? h₁, hexValue? h₀ with
            | some n₃, some n₂, some n₁, some n₀ => do
              let (pieces, left) ← readPieces opening (next :: rest)
              return (.unit (((n₃ * 16 + n₂) * 16 + n₁) * 16 + n₀) :: pieces, left)
            | _, _, _, _ => .error (.malformed .unicodeEscape text)
          | _ => .error (.malformed .unicodeEscape text)
        else match escaped? e with
          | some c => do
            let (pieces, left) ← readPieces opening rest
            return (.plain c :: pieces, left)
          | none => .error (.malformed .escape (c :: text))
    else if c.value < 0x20 then .error (.malformed .control (c :: text))
    else do
      let (pieces, left) ← readPieces opening text
      return (.plain c :: pieces, left)

/-- The text that pieces make up: two units that are the halves of a surrogate pair give one code
point, and every other piece one of its own. -/
def joinPieces : List Piece → Text
  | [] => []
  | .plain c :: pieces => c :: joinPieces pieces
  | [.unit n] => [CodePoint.ofNat n]
  | .unit high :: .unit low :: pieces =>
    if (CodePoint.ofNat high).isHighSurrogate ∧ (CodePoint.ofNat low).isLowSurrogate then
      CodePoint.ofNat (0x10000 + (high - 0xD800) * 0x400 + (low - 0xDC00)) :: joinPieces pieces
    else CodePoint.ofNat high :: joinPieces (.unit low :: pieces)
  | .unit n :: .plain c :: pieces => CodePoint.ofNat n :: c :: joinPieces pieces

/-- A string, `text` being what follows the opening quote of `opening`. -/
def readString (opening text : Text) : Except Stop (Text × Text) :=
  (readPieces opening text).map fun (pieces, left) => (joinPieces pieces, left)

/-! ## Numbers -/

/-- The digits after a decimal point, if a point with a digit after it comes next. -/
def fractionPart? (text : Text) : Option (Text × Text) :=
  match text with
  | point :: d :: rest =>
    if point = CodePoint.ofChar '.' ∧ d.isDigit then
      some ((d :: rest).takeWhile CodePoint.isDigit, (d :: rest).dropWhile CodePoint.isDigit)
    else none
  | _ => none

/-- The exponent, if a letter for one, perhaps a sign, and a digit come next. -/
def exponentPart? (text : Text) : Option (Int × Text) :=
  let unsigned (sign : Int) (digits : Text) : Option (Int × Text) :=
    if digits.head?.any CodePoint.isDigit then
      some (sign * Numeral.value (digits.takeWhile CodePoint.isDigit),
        digits.dropWhile CodePoint.isDigit)
    else none
  match text with
  | e :: rest =>
    if e.toLower = CodePoint.ofChar 'e' then
      match rest with
      | c :: digits =>
        if c = CodePoint.ofChar '-' then unsigned (-1) digits
        else if c = CodePoint.ofChar '+' then unsigned 1 digits
        else unsigned 1 rest
      | [] => none
    else none
  | [] => none

/-- The number made of a sign, whole digits and what follows them. -/
def readDigits (negative : Bool) (whole rest : Text) : Except Stop (Number × Text) :=
  let fraction := fractionPart? rest
  let afterFraction := (fraction.map (·.2)).getD rest
  let exponent := exponentPart? afterFraction
  let left := (exponent.map (·.2)).getD afterFraction
  if fraction.isNone ∧ exponent.isNone then
    match Numeral.read whole with
    | .error fault => .error (.digits fault)
    | .ok n => .ok (.whole (if negative then -n else n), left)
  else
    let x := Decimal.ofDigits whole ((fraction.map (·.1)).getD []) ((exponent.map (·.1)).getD 0)
    .ok (.real (if negative then -x else x), left)

/-- A number that begins with a minus sign or a digit; its whole part has no leading zero. -/
def readNumber (text : Text) : Except Stop (Number × Text) :=
  let (negative, digits) := match text with
    | c :: rest => if c = CodePoint.ofChar '-' then (true, rest) else (false, text)
    | [] => (false, text)
  match digits with
  | d :: rest =>
    if d = CodePoint.ofChar '0' then readDigits negative [d] rest
    else if d.isDigit then
      readDigits negative (digits.takeWhile CodePoint.isDigit) (digits.dropWhile CodePoint.isDigit)
    else .error (.malformed .value text)
  | [] => .error (.malformed .value text)

/-! ## Values -/

/-- The words that are values of their own. -/
def words : List (Text × Value) :=
  [ ("null", .null), ("true", .bool true), ("false", .bool false),
    ("NaN", .number (.real (0.0 / 0.0))), ("Infinity", .number (.real (1.0 / 0.0))),
    ("-Infinity", .number (.real (-1.0 / 0.0))) ]

/-- The word that the text begins with, and what follows it. -/
def readWord? (text : Text) : Option (Value × Text) :=
  words.findSome? fun (word, value) => (Text.after? word text).map fun left => (value, left)

/-- The items of an array up to its closing bracket, each read by `item`. Every item takes at least
one code point, so `budget` is never used up when it is the length of the text. -/
def readItems (item : PartReader Value) : (budget : Nat) → PartReader (List Value)
  | 0, text => .error (.malformed .value text)
  | budget + 1, text => do
    let (value, rest) ← item text
    match skipSpace rest with
    | [] => .error (.malformed .comma [])
    | c :: after =>
      if c = CodePoint.ofChar ']' then return ([value], after)
      else if c = CodePoint.ofChar ',' then
        let (values, left) ← readItems item budget (skipSpace after)
        return (value :: values, left)
      else .error (.malformed .comma (c :: after))

/-- The name of a member and the text after its colon. -/
def readName (text : Text) : Except Stop (Text × Text) := do
  match text with
  | [] => .error (.malformed .propertyName [])
  | c :: rest =>
    if c = CodePoint.ofChar '"' then
      let (name, after) ← readString text rest
      match skipSpace after with
      | [] => .error (.malformed .colon [])
      | d :: left =>
        if d = CodePoint.ofChar ':' then return (name, skipSpace left)
        else .error (.malformed .colon (d :: left))
    else .error (.malformed .propertyName text)

/-- The members of an object up to its closing brace, each value read by `item`; see `readItems`. -/
def readMembers (item : PartReader Value) : (budget : Nat) → PartReader (List (Text × Value))
  | 0, text => .error (.malformed .propertyName text)
  | budget + 1, text => do
    let (name, beginning) ← readName text
    let (value, rest) ← item beginning
    match skipSpace rest with
    | [] => .error (.malformed .comma [])
    | c :: after =>
      if c = CodePoint.ofChar '}' then return ([(name, value)], after)
      else if c = CodePoint.ofChar ',' then
        let (members, left) ← readMembers item budget (skipSpace after)
        return ((name, value) :: members, left)
      else .error (.malformed .comma (c :: after))

/-- An array, `text` being what follows its opening bracket. -/
def readArray (item : PartReader Value) (text : Text) :
    Except Stop (Value × Text) :=
  let start := skipSpace text
  match Text.after? "]" start with
  | some left => .ok (.array [], left)
  | none => (readItems item (start.length + 1) start).map fun (items, left) => (.array items, left)

/-- An object, `text` being what follows its opening brace. -/
def readObject (item : PartReader Value) (text : Text) :
    Except Stop (Value × Text) :=
  let start := skipSpace text
  match Text.after? r"}" start with
  | some left => .ok (.object [], left)
  | none =>
    (readMembers item (start.length + 1) start).map fun (pairs, left) =>
      (.object (Keyed.ofPairs pairs), left)

/-- A value in which at most `room` containers lie inside each other. -/
def readValue (room : Nat) (text : Text) : Except Stop (Value × Text) :=
  match text with
  | [] => .error (.malformed .value [])
  | c :: rest =>
    if c = CodePoint.ofChar '"' then
      (readString text rest).map fun (s, left) => (.string s, left)
    else if c = CodePoint.ofChar '[' then
      match room with
      | 0 => .error (.nesting .array)
      | room + 1 => readArray (readValue room) rest
    else if c = CodePoint.ofChar '{' then
      match room with
      | 0 => .error (.nesting .object)
      | room + 1 => readObject (readValue room) rest
    else match readWord? text with
      | some reading => .ok reading
      | none => (readNumber text).map fun (n, left) => (.number n, left)

/-- A whole document: one value with nothing but space around it, in which at most `room` containers
lie inside each other. -/
def readDocument (room : Nat) (text : Text) : Except Stop Value := do
  match text with
  | c :: _ =>
    if c.value = 0xFEFF then throw (.malformed .byteOrderMark text)
  | [] => pure ()
  let (value, rest) ← readValue room (skipSpace text)
  match skipSpace rest with
  | [] => return value
  | left => throw (.malformed .extraData left)

/-- Reads a JSON document in which at most `room` containers lie inside each other. -/
def read (room : Nat) (text : Text) : Except ReadFault Value :=
  (readDocument room text).mapError fun
    | .malformed complaint left =>
      .malformed complaint (.after (text.take (text.length - left.length)))
    | .digits fault => .digits fault
    | .nesting container => .nesting container

end Json

end OnePage
