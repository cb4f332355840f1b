import OnePage.Text.Quoted

/-!
# Texts as bytes

Files hold bytes, texts hold code points, and UTF-8 is the only bridge between the two.

* `Utf8.encode?` writes a text. It refuses surrogates, and `Utf8.EncodeFault` names the first run
  of them.
* `Utf8.decode` reads bytes one at a time. `Utf8.Pending` is a character of which some bytes have
  been read: it says how many are owed and in which range the next one lies, so overlong forms,
  surrogates and numbers past the last code point are all refused at the first byte that rules them
  out. `Utf8.DecodeFault` gives the bytes that were still acceptable together.
-/

namespace OnePage

/-- The contents of a file. -/
abbrev Bytes := List UInt8

namespace Utf8

/-! ## Writing -/

/-- A continuation byte that carries the last six bits of `n`. -/
def tail (n : Nat) : UInt8 := UInt8.ofNat (0x80 + n % 0x40)

/-- One code point in one to four bytes, whether or not it may be written. -/
def encodeCodePoint (c : CodePoint) : Bytes :=
  let n := c.value
  if n < 0x80 then [UInt8.ofNat n]
  else if n < 0x800 then [UInt8.ofNat (0xC0 + n / 0x40), tail n]
  else if n < 0x10000 then [UInt8.ofNat (0xE0 + n / 0x1000), tail (n / 0x40), tail n]
  else [UInt8.ofNat (0xF0 + n / 0x40000), tail (n / 0x1000), tail (n / 0x40), tail n]

/-- The first run of surrogates in a text. -/
structure EncodeFault where
  /-- How many code points come before the run. -/
  start : Nat
  /-- The surrogate that begins it. -/
  first : CodePoint
  /-- How many surrogates follow in the same run. -/
  more : Nat
deriving DecidableEq

/-- The words for a text that cannot be written. -/
def EncodeFault.message (fault : EncodeFault) : Text :=
  let place : Text := match fault.more with
    | 0 => "character '" ++ Text.numbered fault.first ++ "' in position " ++
      Numeral.ofNat fault.start
    | more => "characters in position " ++ Numeral.ofNat fault.start ++ "-" ++
      Numeral.ofNat (fault.start + more)
  "'utf-8' codec can't encode " ++ place ++ ": surrogates not allowed"

/-- The first run of surrogates, the text beginning at position `start`. -/
def firstSurrogates? (start : Nat) : Text → Option EncodeFault
  | [] => none
  | c :: text =>
    if c.isSurrogate then some ⟨start, c, (text.takeWhile CodePoint.isSurrogate).length⟩
    else firstSurrogates? (start + 1) text

/-- The bytes of a text, unless it holds a surrogate. -/
def encode (text : Text) : Except EncodeFault Bytes :=
  match firstSurrogates? 0 text with
  | some fault => .error fault
  | none => .ok (text.flatMap encodeCodePoint)

/-! ## Reading -/

/-- Why bytes are no text. -/
inductive DecodeReason where
  /-- The byte begins no character. -/
  | start
  /-- The next byte does not continue the character. -/
  | continuation
  /-- The bytes end inside a character. -/
  | truncated
deriving DecidableEq

/-- The bytes at which reading stopped. -/
structure DecodeFault where
  /-- How many bytes come before the character. -/
  start : Nat
  /-- The byte that begins it. -/
  first : UInt8
  /-- How many bytes of it were acceptable after the first. -/
  more : Nat
  /-- What was wrong with what followed. -/
  reason : DecodeReason
deriving DecidableEq

/-- The words for what was wrong. -/
def DecodeReason.message : DecodeReason → Text
  | start => "invalid start byte"
  | continuation => "invalid continuation byte"
  | truncated => "unexpected end of data"

/-- The words for bytes that are no text. -/
def DecodeFault.message (fault : DecodeFault) : Text :=
  let place : Text := match fault.more with
    | 0 => "byte 0x" ++ Numeral.hex 2 fault.first.toNat ++ " in position " ++
      Numeral.ofNat fault.start
    | more => "bytes in position " ++ Numeral.ofNat fault.start ++ "-" ++
      Numeral.ofNat (fault.start + more)
  "'utf-8' codec can't decode " ++ place ++ ": " ++ fault.reason.message

/-- A character of which at least one byte has been read. -/
structure Pending where
  /-- How many bytes come before the character. -/
  start : Nat
  /-- The byte that begins it. -/
  first : UInt8
  /-- How many bytes have been read after the first. -/
  more : Nat
  /-- The number the bytes read so far make up. -/
  number : Nat
  /-- How many bytes are owed after the next one. -/
  owed : Nat
  /-- The least value the next byte may have. -/
  low : Nat
  /-- The greatest value the next byte may have. -/
  high : Nat

namespace Pending

/-- The character begun by the byte `first` at position `start`, if that byte begins one of several
bytes. -/
def begin? (start : Nat) (first : UInt8) : Option Pending :=
  let n := first.toNat
  let pending (number owed low high : Nat) : Option Pending :=
    some ⟨start, first, 0, number, owed, low, high⟩
  if n < 0xC2 then none
  else if n < 0xE0 then pending (n - 0xC0) 0 0x80 0xBF
  else if n = 0xE0 then pending 0 1 0xA0 0xBF
  else if n = 0xED then pending 0xD 1 0x80 0x9F
  else if n < 0xF0 then pending (n - 0xE0) 1 0x80 0xBF
  else if n = 0xF0 then pending 0 2 0x90 0xBF
  else if n < 0xF4 then pending (n - 0xF0) 2 0x80 0xBF
  else if n = 0xF4 then pending 4 2 0x80 0x8F
  else none

/-- The fault of a character that does not go on as it should. -/
def fault (p : Pending) (reason : DecodeReason) : DecodeFault := ⟨p.start, p.first, p.more, reason⟩

end Pending

/-- Reads bytes from position `position` on, with or without a character begun before. -/
def decodeFrom : Option Pending → (position : Nat) → Bytes → Except DecodeFault Text
  | none, _, [] => .ok []
  | some p, _, [] => .error (p.fault .truncated)
  | none, position, byte :: bytes =>
    if byte.toNat < 0x80 then
      (decodeFrom none (position + 1) bytes).map (CodePoint.ofNat byte.toNat :: ·)
    else match Pending.begin? position byte with
      | none => .error ⟨position, byte, 0, .start⟩
      | some p => decodeFrom (some p) (position + 1) bytes
  | some p, position, byte :: bytes =>
    let n := byte.toNat
    if p.low ≤ n ∧ n ≤ p.high then
      let number := p.number * 0x40 + (n - 0x80)
      match p.owed with
      | 0 => (decodeFrom none (position + 1) bytes).map (CodePoint.ofNat number :: ·)
      | owed + 1 =>
        decodeFrom (some { p with more := p.more + 1, number, owed, low := 0x80, high := 0xBF })
          (position + 1) bytes
    else .error (p.fault .continuation)

/-- The text that bytes stand for. -/
def decode (bytes : Bytes) : Except DecodeFault Text := decodeFrom none 0 bytes

end Utf8

end OnePage
