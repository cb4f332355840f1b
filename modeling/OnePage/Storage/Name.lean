import OnePage.Text.Utf8

/-!
# Names as bytes

The disk knows names by their bytes, and bytes need not be UTF-8. A byte that belongs to no
character is shown as an *escape*, a surrogate that stands for this byte, and an escape is written
as its byte. So all bytes can be shown and written again, but there may be several texts for one
name, of which the disk shows one.

* `Name.encode` are the bytes of a text, and `byteLength` says how many they are. Only an escape
  stands for a byte: with any other surrogate, a text has no bytes, and `Name.fault?` names it.
* `Name.decode` is how bytes are shown.
* `entryName` is how the disk shows the name that a text stands for.
-/

namespace OnePage

/-- A surrogate that stands for a byte which belongs to no character. -/
def CodePoint.isEscape (c : CodePoint) : Bool := 0xDC80 ≤ c.value && c.value < 0xDD00

namespace Storage

namespace Name

/-! ## Writing -/

/-- The bytes of a code point: the one it is the escape of, or those of UTF-8. -/
def encodeCodePoint (c : CodePoint) : Bytes :=
  if c.isEscape then [UInt8.ofNat (c.value - 0xDC00)] else Utf8.encodeCodePoint c

/-- The bytes of a text. -/
def encode (name : Text) : Bytes := name.flatMap encodeCodePoint

/-- What keeps a text from being written: the first surrogate that is no escape, with all that
follow it in the same run. The text begins at position `start`. -/
def fault? (start : Nat) : Text → Option Utf8.EncodeFault
  | [] => none
  | c :: text =>
    if c.isSurrogate && !c.isEscape then
      some ⟨start, c, (text.takeWhile CodePoint.isSurrogate).length⟩
    else fault? (start + 1) text

/-! ## Reading -/

/-- The character that bytes begin with, if they begin with one. -/
def character? (bytes : Bytes) : Option CodePoint :=
  [1, 2, 3, 4].findSome? fun n =>
    match Utf8.decode (bytes.take n) with
    | .ok [c] => some c
    | _ => none

/-- The escape of a byte. -/
def escape (byte : UInt8) : CodePoint := CodePoint.ofNat (0xDC00 + byte.toNat)

/-- How bytes are shown, the first `skip` of them being part of a character already read. -/
def decodeFrom : (skip : Nat) → Bytes → Text
  | _, [] => []
  | skip + 1, _ :: bytes => decodeFrom skip bytes
  | 0, byte :: bytes =>
    match character? (byte :: bytes) with
    | some c => c :: decodeFrom ((Utf8.encodeCodePoint c).length - 1) bytes
    | none => escape byte :: decodeFrom 0 bytes

/-- How bytes are shown. -/
def decode (bytes : Bytes) : Text := decodeFrom 0 bytes

end Name

/-- How many bytes a name or a path has. -/
def byteLength (name : Text) : Nat := (Name.encode name).length

theorem byteLength_append (s t : Text) : byteLength (s ++ t) = byteLength s + byteLength t := by
  simp [byteLength, Name.encode]

/-- The name of the entry that a part of a path stands for, as the disk shows it. -/
def entryName (part : Text) : Text := Name.decode (Name.encode part)

end Storage

end OnePage
