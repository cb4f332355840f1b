/-!
# Code points and texts

Everything the program reads, joins and writes is a *text*: a list of Unicode code points.

* `CodePoint` is a number below `0x110000`. Surrogates are included, because an escape inside a
  JSON document can name one on its own; they can be held and compared, but not written out.
* `Text` is a list of code points, so that a cut, a search or a concatenation is a statement about
  lists. Literals are ordinary strings, read through `Text.ofString`.
* `Text.after?`, `Text.cutAt?` and `Text.replaceFirst` are the searches the page assembly rests on:
  what follows a given start, the first place where a pattern occurs, and one substitution there.
* `Text.le` is the order by code point, which is the order names are listed in.
-/

namespace OnePage

/-- A Unicode code point, surrogates included. -/
structure CodePoint where
  /-- The scalar number of the code point. -/
  value : Nat
  /-- Code points end at `0x10FFFF`. -/
  value_lt : value < 0x110000
deriving DecidableEq

namespace CodePoint

/-- The code point of a character. -/
def ofChar (c : Char) : CodePoint :=
  ⟨c.toNat, by
    have valid := c.valid
    simp only [UInt32.isValidChar, Nat.isValidChar] at valid
    have toNat_eq : c.toNat = c.val.toNat := rfl
    omega⟩

instance : Coe Char CodePoint := ⟨ofChar⟩

/-- The replacement character, which stands for numbers that name no code point. -/
def replacement : CodePoint := ⟨0xFFFD, by decide⟩

/-- The code point with a given number; numbers past the end give `replacement`. -/
def ofNat (n : Nat) : CodePoint :=
  if valid : n < 0x110000 then ⟨n, valid⟩ else replacement

/-- The first half of a surrogate pair. -/
def isHighSurrogate (c : CodePoint) : Bool := 0xD800 ≤ c.value && c.value < 0xDC00

/-- The second half of a surrogate pair. -/
def isLowSurrogate (c : CodePoint) : Bool := 0xDC00 ≤ c.value && c.value < 0xE000

/-- Either half of a surrogate pair. -/
def isSurrogate (c : CodePoint) : Bool := 0xD800 ≤ c.value && c.value < 0xE000

/-- The character of a code point; surrogates are none, and the replacement character stands for
them. -/
def toChar (c : CodePoint) : Char := if c.isSurrogate then '\ufffd' else Char.ofNat c.value

/-- One of the ten digits `0` to `9`. -/
def isDigit (c : CodePoint) : Bool := 0x30 ≤ c.value && c.value ≤ 0x39

/-- The number an ASCII digit stands for. -/
def digitValue (c : CodePoint) : Nat := c.value - 0x30

/-- The ASCII digit for a number; only the last decimal place of the number counts. -/
def ofDigit (n : Nat) : CodePoint := ofNat (0x30 + n % 10)

/-- ASCII capitals become small letters, and every other code point stays. This is enough wherever
the result is compared with ASCII words: no other code point has one of their letters alone as its
small form, apart from the Kelvin sign, whose letter `k` no such word contains. -/
def toLower (c : CodePoint) : CodePoint :=
  if 0x41 ≤ c.value ∧ c.value ≤ 0x5A then ofNat (c.value + 0x20) else c

end CodePoint

/-- A text is a list of code points. -/
abbrev Text := List CodePoint

namespace Text

/-! ## Literals -/

/-- The text of a string, character by character. -/
def ofString (s : String) : Text := s.toList.map CodePoint.ofChar

instance : Coe String Text := ⟨ofString⟩

/-- The string of a text; see `CodePoint.toChar`. -/
def toString (text : Text) : String := String.ofList (text.map CodePoint.toChar)

/-- A line break. -/
def newline : Text := [CodePoint.ofChar '\n']

/-! ## Putting texts together -/

/-- The parts in order, with `separator` between neighbours. -/
def join (separator : Text) : List Text → Text
  | [] => []
  | [part] => part
  | part :: rest => part ++ separator ++ join separator rest

/-- The pieces between the occurrences of `separator`; there is always at least one piece. -/
def splitOn (separator : CodePoint) : Text → List Text
  | [] => [[]]
  | c :: rest =>
    if c = separator then [] :: splitOn separator rest
    else match splitOn separator rest with
      | [] => [[c]]
      | piece :: pieces => (c :: piece) :: pieces

theorem splitOn_ne_nil (separator : CodePoint) (text : Text) : splitOn separator text ≠ [] := by
  cases text with
  | nil => simp [splitOn]
  | cons c rest =>
    rw [splitOn]
    split
    · simp
    · split <;> simp

/-! ## Searching -/

/-- What follows `start` in a text that begins with it. -/
def after? : (start text : Text) → Option Text
  | [], text => some text
  | _ :: _, [] => none
  | s :: start, c :: text => if s = c then after? start text else none

/-- The text before and after the first occurrence of `pattern`. -/
def cutAt? (pattern : Text) : Text → Option (Text × Text)
  | [] => (after? pattern []).map fun rest => ([], rest)
  | c :: text =>
    match after? pattern (c :: text) with
    | some rest => some ([], rest)
    | none => (cutAt? pattern text).map fun (before, rest) => (c :: before, rest)

/-- Whether `pattern` occurs anywhere. -/
def contains (pattern text : Text) : Bool := (cutAt? pattern text).isSome

/-- The text with the first occurrence of `pattern` replaced; without one it stays as it is. -/
def replaceFirst (pattern replacement text : Text) : Text :=
  match cutAt? pattern text with
  | some (before, rest) => before ++ replacement ++ rest
  | none => text

/-- How often `pattern` occurs from left to right without overlap, `skip` code points being part of
an occurrence already counted. -/
def countFrom (pattern : Text) : (skip : Nat) → Text → Nat
  | _, [] => 0
  | skip + 1, _ :: text => countFrom pattern skip text
  | 0, c :: text =>
    if (after? pattern (c :: text)).isSome then countFrom pattern (pattern.length - 1) text + 1
    else countFrom pattern 0 text

/-- How often `pattern` occurs, counted from left to right without overlap. -/
def occurrences (pattern text : Text) : Nat := countFrom pattern 0 text

/-- What comes before `ending` in a text that ends with it. -/
def before? (ending text : Text) : Option Text :=
  if ending.isSuffixOf text then some (text.take (text.length - ending.length)) else none

/-! ## Order and case -/

/-- Order by code point: at the first difference the smaller code point comes first, and a text
comes before every longer text that it begins. -/
def le : Text → Text → Bool
  | [], _ => true
  | _ :: _, [] => false
  | a :: s, b :: t => a.value < b.value || (a == b && le s t)

/-- The texts in ascending order by code point. -/
def sort (texts : List Text) : List Text := texts.mergeSort le

/-- The text in small letters; see `CodePoint.toLower`. -/
def toLower (text : Text) : Text := text.map CodePoint.toLower

end Text

end OnePage
