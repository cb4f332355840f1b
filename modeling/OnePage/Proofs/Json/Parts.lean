import OnePage.Proofs.Decimal.Written
import OnePage.Proofs.Json.Layouts
import OnePage.Proofs.Json.Readable
import OnePage.Proofs.Text.Search
import OnePage.Proofs.Text.Utf8

/-!
# Strings and numbers are read as they have been written

What the reader makes of a string or of a number that a layout has written, whatever is behind it
that ends a value.

* `writeCodePoint_cases` — a code point in a string is written in one of three ways.
* **`readString_writeString`** — strings are read back, control characters, quotes, surrogates and
  all.
* **`readNumber_whole`** and **`readNumber_render`** — so are whole numbers that are not too long,
  and doubles whose digits are read back.  Both stop at the first mark behind them.
* `readValue_of_readNumber` — no number is mistaken for something else, and `read_of_isCanonical` —
  numerals of too many digits are refused.
* `head_of_readValue` — what a value cannot begin with.
-/

namespace OnePage

namespace Json

open Decimal (Style Written signed signedFloat IsFinite)

/-! ## Strings -/

/-- **What a code point is written as**: an escape with a letter, an escape with a number, or
itself. -/
lemma writeCodePoint_cases {layout : Layout} (hlayout : layout.asciiOnly = false) (c : CodePoint) :
    (∃ e, e ≠ CodePoint.ofChar 'u' ∧ escaped? e = some c ∧
        writeCodePoint layout c = [CodePoint.ofChar '\\', e]) ∨
      (c.value < 0x20 ∧ writeCodePoint layout c = unitEscape c.value) ∨
      (c ≠ CodePoint.ofChar '"' ∧ c ≠ CodePoint.ofChar '\\' ∧ ¬ c.value < 0x20 ∧
        writeCodePoint layout c = [c]) := by
  rw [writeCodePoint]
  simp only [hlayout, Bool.false_eq_true, false_and, or_false, if_false]
  split_ifs with hquote hback hnewline hreturn htab hfeed hspace hcontrol
  · exact .inl ⟨CodePoint.ofChar '"', by decide, by rw [hquote]; decide, rfl⟩
  · exact .inl ⟨CodePoint.ofChar '\\', by decide, by rw [hback]; decide, rfl⟩
  · exact .inl ⟨CodePoint.ofChar 'n', by decide, by rw [hnewline]; decide, rfl⟩
  · exact .inl ⟨CodePoint.ofChar 'r', by decide, by rw [hreturn]; decide, rfl⟩
  · exact .inl ⟨CodePoint.ofChar 't', by decide, by rw [htab]; decide, rfl⟩
  · obtain rfl : CodePoint.ofNat 0x0C = c := hfeed ▸ CodePoint.ofNat_value c
    exact .inl ⟨CodePoint.ofChar 'f', by decide, by decide, rfl⟩
  · obtain rfl : CodePoint.ofNat 0x08 = c := hspace ▸ CodePoint.ofNat_value c
    exact .inl ⟨CodePoint.ofChar 'b', by decide, by decide, rfl⟩
  · exact .inr (.inl ⟨hcontrol, rfl⟩)
  · exact .inr (.inr ⟨hquote, hback, hcontrol, rfl⟩)

section Pieces

variable {opening text left : Text} {pieces : List Piece} {c : CodePoint}

lemma readPieces_quote (opening rest : Text) :
    readPieces opening (CodePoint.ofChar '"' :: rest) = .ok ([], rest) := by
  rw [readPieces.eq_def]
  exact if_pos rfl

variable (h : readPieces opening text = .ok (pieces, left))

include h

lemma readPieces_plain (hquote : c ≠ CodePoint.ofChar '"') (hescape : c ≠ CodePoint.ofChar '\\')
    (hcontrol : ¬ c.value < 0x20) :
    readPieces opening (c :: text) = .ok (.plain c :: pieces, left) := by
  rw [readPieces.eq_def]
  simp only [if_neg hquote, if_neg hescape, if_neg hcontrol, h]
  rfl

lemma readPieces_escape {e : CodePoint} (hletter : e ≠ CodePoint.ofChar 'u')
    (hescaped : escaped? e = some c) :
    readPieces opening (CodePoint.ofChar '\\' :: e :: text) = .ok (.plain c :: pieces, left) := by
  have hquote : CodePoint.ofChar '\\' ≠ CodePoint.ofChar '"' := by decide
  rw [readPieces.eq_def]
  simp only [if_neg hquote, if_neg hletter, hescaped, h, if_true]
  rfl

/-- The escape of a control character is read as its number. -/
lemma readPieces_unitEscape {n : Nat} (hn : n < 0x20) :
    readPieces opening (unitEscape n ++ text) = .ok (.unit n :: pieces, left) := by
  have hquote : CodePoint.ofChar '\\' ≠ CodePoint.ofChar '"' := by decide
  have hdigits : ∀ n < 0x20, (Numeral.hex 4 n).map hexValue? =
      [some 0, some 0, some (n / 16), some (n % 16)] := by decide
  have hsplit := hdigits n hn
  obtain ⟨h₃, digits, hhex, hh₃, hsplit⟩ := List.map_eq_cons_iff.1 hsplit
  obtain ⟨h₂, digits, rfl, hh₂, hsplit⟩ := List.map_eq_cons_iff.1 hsplit
  obtain ⟨h₁, digits, rfl, hh₁, hsplit⟩ := List.map_eq_cons_iff.1 hsplit
  obtain ⟨h₀, digits, rfl, hh₀, hsplit⟩ := List.map_eq_cons_iff.1 hsplit
  obtain rfl := List.map_eq_nil_iff.1 hsplit
  obtain ⟨next, text, rfl⟩ : ∃ next rest, text = next :: rest := by
    cases text with
    | nil => rw [readPieces.eq_def] at h; cases h
    | cons next rest => exact ⟨next, rest, rfl⟩
  have hescape : unitEscape n ++ next :: text =
      CodePoint.ofChar '\\' :: CodePoint.ofChar 'u' :: h₃ :: h₂ :: h₁ :: h₀ :: next :: text := by
    rw [unitEscape, hhex]
    rfl
  have hvalue : ((0 * 16 + 0) * 16 + n / 16) * 16 + n % 16 = n := by omega
  rw [hescape, readPieces.eq_def]
  simp only [if_neg hquote, if_true, hh₃, hh₂, hh₁, hh₀, h, hvalue]
  rfl

omit h in
lemma joinPieces_plain (c : CodePoint) (pieces : List Piece) :
    joinPieces (.plain c :: pieces) = c :: joinPieces pieces := by
  rw [joinPieces]

omit h in
/-- A unit that is no half of a pair stands for itself. -/
lemma joinPieces_unit {n : Nat} (hn : n < 0xD800) (pieces : List Piece) :
    joinPieces (.unit n :: pieces) = CodePoint.ofNat n :: joinPieces pieces := by
  have hhalf : (CodePoint.ofNat n).isHighSurrogate = false := by
    have hvalid : n < 0x110000 := by omega
    rw [CodePoint.ofNat, dif_pos hvalid, CodePoint.isHighSurrogate]
    simp
    omega
  cases pieces with
  | nil => rfl
  | cons piece pieces =>
    cases piece with
    | plain c => rw [joinPieces, joinPieces]
    | unit low => rw [joinPieces, if_neg (by simp [hhalf])]

/-- **A code point is read as it has been written.** -/
lemma exists_readPieces_writeCodePoint {layout : Layout} (hlayout : layout.asciiOnly = false)
    (c : CodePoint) : ∃ piece, readPieces opening (writeCodePoint layout c ++ text) =
      .ok (piece :: pieces, left) ∧ joinPieces (piece :: pieces) = c :: joinPieces pieces := by
  rcases writeCodePoint_cases hlayout c with
    ⟨e, hletter, hescaped, hwrite⟩ | ⟨hcontrol, hwrite⟩ | ⟨hquote, hescape, hcontrol, hwrite⟩
  · rw [hwrite]
    exact ⟨_, readPieces_escape h hletter hescaped, joinPieces_plain c pieces⟩
  · rw [hwrite]
    exact ⟨_, readPieces_unitEscape h hcontrol,
      by rw [joinPieces_unit (by omega), CodePoint.ofNat_value]⟩
  · rw [hwrite]
    exact ⟨_, readPieces_plain h hquote hescape hcontrol, joinPieces_plain c pieces⟩

end Pieces

/-- **A string is read as it has been written.** -/
lemma readString_writeString {layout : Layout} (hlayout : layout.asciiOnly = false)
    (opening text rest : Text) :
    readString opening
      (text.flatMap (writeCodePoint layout) ++ CodePoint.ofChar '"' :: rest) =
        .ok (text, rest) := by
  obtain ⟨pieces, hread, hjoin⟩ : ∃ pieces, readPieces opening
      (text.flatMap (writeCodePoint layout) ++ CodePoint.ofChar '"' :: rest) = .ok (pieces, rest) ∧
        joinPieces pieces = text := by
    induction text with
    | nil => exact ⟨[], readPieces_quote opening rest, rfl⟩
    | cons c text ih =>
      obtain ⟨pieces, hread, hjoin⟩ := ih
      obtain ⟨piece, hread', hjoin'⟩ := exists_readPieces_writeCodePoint hread hlayout c
      rw [List.flatMap_cons, List.append_assoc]
      exact ⟨piece :: pieces, hread', by rw [hjoin', hjoin]⟩
  rw [readString, hread, ← hjoin]
  rfl

/-! ## Numbers -/

/-- A text does not go on with a digit. -/
def EndsDigits (rest : Text) : Prop := ∀ c ∈ rest.head?, c.isDigit = false

section Digits

variable {digits rest : Text} (hdigits : ∀ c ∈ digits, c.isDigit) (hrest : EndsDigits rest)

include hdigits hrest

lemma takeWhile_digits : (digits ++ rest).takeWhile CodePoint.isDigit = digits := by
  rw [List.takeWhile_append_of_pos hdigits]
  cases rest with
  | nil => simp
  | cons c rest =>
    rw [List.takeWhile_cons_of_neg (by simpa using hrest c rfl), List.append_nil]

lemma dropWhile_digits : (digits ++ rest).dropWhile CodePoint.isDigit = rest := by
  rw [List.dropWhile_append_of_pos hdigits]
  cases rest with
  | nil => rfl
  | cons c rest => rw [List.dropWhile_cons_of_neg (by simpa using hrest c rfl)]

/-- Digits behind a point are read as far as they go. -/
lemma fractionPart?_point (hne : digits ≠ []) :
    fractionPart? ("." ++ (digits ++ rest)) = some (digits, rest) := by
  obtain ⟨d, others, rfl⟩ := List.exists_cons_of_ne_nil hne
  have hd : d.isDigit := hdigits d List.mem_cons_self
  have htake := takeWhile_digits hdigits hrest
  have hdrop := dropWhile_digits hdigits hrest
  have hpoint : Text.ofString "." ++ (d :: others ++ rest) =
      CodePoint.ofChar '.' :: d :: (others ++ rest) := rfl
  rw [hpoint, fractionPart?]
  simp only [hd, and_self, if_true]
  exact congrArg some (Prod.ext htake hdrop)

/-- A power of ten is read as far as its digits go. -/
lemma exponentPart?_scale (hne : digits ≠ []) (negative : Bool) :
    exponentPart? ((if negative then "e-" else "e+" : Text) ++ (digits ++ rest)) =
      some (if negative then -(Numeral.value digits : Int) else Numeral.value digits, rest) := by
  obtain ⟨d, others, rfl⟩ := List.exists_cons_of_ne_nil hne
  have hd : d.isDigit := hdigits d List.mem_cons_self
  have htake := takeWhile_digits hdigits hrest
  have hdrop := dropWhile_digits hdigits hrest
  have hhead : ((d :: others ++ rest).head?.any CodePoint.isDigit) = true := hd
  have hletter : (CodePoint.ofChar 'e').toLower = CodePoint.ofChar 'e' := by decide
  have hplus : CodePoint.ofChar '+' ≠ CodePoint.ofChar '-' := by decide
  cases negative with
  | true =>
    have htext : Text.ofString "e-" ++ (d :: others ++ rest) =
        CodePoint.ofChar 'e' :: CodePoint.ofChar '-' :: (d :: others ++ rest) := rfl
    simp only [if_true, htext, exponentPart?, hletter, hhead, htake, hdrop, neg_one_mul]
  | false =>
    have htext : Text.ofString "e+" ++ (d :: others ++ rest) =
        CodePoint.ofChar 'e' :: CodePoint.ofChar '+' :: (d :: others ++ rest) := rfl
    simp only [Bool.false_eq_true, if_false, if_true, htext, exponentPart?, hletter, hplus, hhead,
      htake, hdrop, one_mul]

end Digits

lemma fractionPart?_eq_none {text : Text} (h : ∀ c ∈ text.head?, c ≠ CodePoint.ofChar '.') :
    fractionPart? text = none := by
  match text with
  | [] | [_] => rfl
  | c :: d :: rest =>
    have hc := h c rfl
    simp [fractionPart?, hc]

lemma exponentPart?_eq_none {text : Text}
    (h : ∀ c ∈ text.head?, c.toLower ≠ CodePoint.ofChar 'e') : exponentPart? text = none := by
  cases text with
  | nil => rfl
  | cons c rest =>
    have hc := h c rfl
    simp [exponentPart?, hc]

/-- A number in front of which there may be a sign is read from its digits. -/
lemma readNumber_signed {whole rest : Text} (negative : Bool) (hwhole : Numeral.isCanonical whole)
    (hrest : EndsDigits rest) :
    readNumber (signed negative (whole ++ rest)) = readDigits negative whole rest := by
  obtain ⟨hne, hdigits, hzero⟩ := Numeral.isCanonical_eq_true_iff.1 hwhole
  have htake := takeWhile_digits hdigits hrest
  have hdrop := dropWhile_digits hdigits hrest
  obtain ⟨d, others, rfl⟩ := List.exists_cons_of_ne_nil hne
  have hd : d.isDigit := hdigits d List.mem_cons_self
  have hminus : d ≠ CodePoint.ofChar '-' := by
    rintro rfl
    revert hd
    decide
  have hunsigned : (if d = CodePoint.ofChar '0' then
        readDigits negative [d] (others ++ rest)
      else if d.isDigit then readDigits negative ((d :: others ++ rest).takeWhile CodePoint.isDigit)
        ((d :: others ++ rest).dropWhile CodePoint.isDigit)
      else .error (.malformed .value (signed negative (d :: others ++ rest)))) =
      readDigits negative (d :: others) rest := by
    by_cases hd0 : d = CodePoint.ofChar '0'
    · have hothers : others = [] := (List.cons.inj (hzero (by rw [hd0]; rfl))).2
      rw [if_pos hd0, hothers]
      rfl
    · rw [if_neg hd0, if_pos hd, htake, hdrop]
  rw [← hunsigned, readNumber.eq_def]
  cases negative with
  | true => rfl
  | false =>
    have htext : signed false (d :: others ++ rest) = d :: (others ++ rest) := rfl
    simp only [htext, if_neg hminus]
    rfl

section Numbers

variable {rest : Text} (hrest : Stops rest)

include hrest

/-- What is behind a number continues neither its digits nor its fraction nor its exponent. -/
lemma Stops.head?_ne : ∀ c ∈ rest.head?,
    c.isDigit = false ∧ c ≠ CodePoint.ofChar '.' ∧ c.toLower ≠ CodePoint.ofChar 'e' := by
  have hmarks : ∀ c ∈ marks,
      c.isDigit = false ∧ c ≠ CodePoint.ofChar '.' ∧ c.toLower ≠ CodePoint.ofChar 'e' := by decide
  exact fun c hc => hmarks c (hrest c hc)

lemma readNumber_whole {n : Int} (hn : n.natAbs < 10 ^ Numeral.digitLimit) :
    readNumber (Numeral.ofInt n ++ rest) = .ok (.whole n, rest) := by
  have hends : EndsDigits rest := fun c hc => (hrest.head?_ne c hc).1
  have hfraction : fractionPart? rest = none :=
    fractionPart?_eq_none fun c hc => (hrest.head?_ne c hc).2.1
  have hexponent : exponentPart? rest = none :=
    exponentPart?_eq_none fun c hc => (hrest.head?_ne c hc).2.2
  have hsigned : Numeral.ofInt n ++ rest =
      signed (decide (n < 0)) (Numeral.ofNat n.natAbs ++ rest) := by
    cases n with
    | ofNat n => rfl
    | negSucc n =>
      rw [decide_eq_true (Int.negSucc_lt_zero n)]
      rfl
  have hvalue : (if decide (n < 0) then -(n.natAbs : Int) else n.natAbs) = n := by
    simp only [decide_eq_true_eq]
    split <;> omega
  rw [hsigned, readNumber_signed _ (Numeral.isCanonical_ofNat _) hends, readDigits]
  simp only [hfraction, hexponent, Option.isNone_none, and_self, if_true, Option.map_none,
    Option.getD_none, Numeral.read_ofNat hn, hvalue]

/-- What is behind the digits of a decimal. -/
lemma scale_append_head?_ne (w : Written) : ∀ c ∈ (w.scale ++ rest).head?,
    c.isDigit = false ∧ c ≠ CodePoint.ofChar '.' := by
  rw [Written.scale]
  cases w.power with
  | none => exact fun c hc => ⟨(hrest.head?_ne c hc).1, (hrest.head?_ne c hc).2.1⟩
  | some power =>
    obtain ⟨negative, digits⟩ := power
    cases negative <;> rintro c hc <;> obtain rfl := Option.some.inj hc <;> decide

/-- The digits behind the point of a decimal are found, if there are any. -/
lemma fractionPart?_written (w : Written) : fractionPart? (w.point ++ (w.scale ++ rest)) =
    if w.fraction = [] then none else some (w.fraction, w.scale ++ rest) := by
  have hscale := scale_append_head?_ne hrest w
  rw [Written.point]
  split
  · exact fractionPart?_eq_none fun c hc => (hscale c hc).2
  · next hne =>
    rw [List.append_assoc]
    exact fractionPart?_point w.isDigit_fraction (fun c hc => (hscale c hc).1) hne

/-- So is its power of ten. -/
lemma exponentPart?_written (w : Written) : exponentPart? (w.scale ++ rest) =
    if w.power = none then none else some (w.exponent, rest) := by
  rw [Written.scale, Written.exponent]
  cases hpower : w.power with
  | none => exact exponentPart?_eq_none fun c hc => (hrest.head?_ne c hc).2.2
  | some power =>
    obtain ⟨sign, digits⟩ := power
    obtain ⟨hne, hdigits⟩ := w.isDigit_power sign digits hpower
    rw [List.append_assoc, if_neg (Option.some_ne_none (sign, digits))]
    exact exponentPart?_scale hdigits (fun c hc => (hrest.head?_ne c hc).1) hne sign

/-- **A decimal is read as it has been written.** -/
lemma readNumber_written (negative : Bool) (w : Written) :
    readNumber (signed negative w.text ++ rest) =
      .ok (.real (signedFloat negative w.toFloat), rest) := by
  have hends : EndsDigits (w.point ++ (w.scale ++ rest)) := by
    rw [Written.point]
    split
    · exact fun c hc => (scale_append_head?_ne hrest w c hc).1
    · rintro c hc
      obtain rfl := Option.some.inj hc
      decide
  have htext : signed negative w.text ++ rest =
      signed negative (w.whole ++ (w.point ++ (w.scale ++ rest))) := by
    cases negative <;> simp [signed, Written.text]
  -- nothing found stands for no digits behind the point, or for the power zero
  have hdigits : ((if w.fraction = [] then none else some (w.fraction, w.scale ++ rest) :
      Option (Text × Text)).map (·.1)).getD [] = w.fraction := by
    split
    · next hnil => exact hnil.symm
    · rfl
  have hbehind : ((if w.fraction = [] then none else some (w.fraction, w.scale ++ rest) :
      Option (Text × Text)).map (·.2)).getD (w.point ++ (w.scale ++ rest)) = w.scale ++ rest := by
    rw [Written.point]
    split <;> rfl
  have hpower : ((if w.power = none then none else some (w.exponent, rest) :
      Option (Int × Text)).map (·.1)).getD 0 = w.exponent := by
    split
    · next hnone => rw [Written.exponent, hnone]; rfl
    · rfl
  have hleft : ((if w.power = none then none else some (w.exponent, rest) :
      Option (Int × Text)).map (·.2)).getD (w.scale ++ rest) = rest := by
    split
    · next hnone => rw [Written.scale, hnone]; rfl
    · rfl
  have hreal : ¬ ((if w.fraction = [] then none else some (w.fraction, w.scale ++ rest) :
        Option (Text × Text)).isNone ∧
      (if w.power = none then none else some (w.exponent, rest) : Option (Int × Text)).isNone) := by
    rintro ⟨hnofraction, hnopower⟩
    rcases w.isReal with hne | hne
    · simp [if_neg hne] at hnofraction
    · simp [if_neg hne] at hnopower
  rw [htext, readNumber_signed _ w.isCanonical_whole hends, readDigits]
  simp only [fractionPart?_written hrest, hbehind, exponentPart?_written hrest, hdigits, hpower,
    hleft, if_neg hreal]
  rfl

/-- **A double is read as it has been written**, if it is a number. -/
lemma readNumber_render {x : Float} (hfinite : IsFinite x) (style : Style) :
    readNumber (style.render x ++ rest) = .ok (.real x, rest) := by
  obtain ⟨negative, w, htext, hfloat⟩ := Decimal.exists_written_render hfinite style
  rw [htext, readNumber_written hrest, hfloat]

end Numbers

/-! ## How a value begins -/

/-- A number begins with a digit, or with a minus sign and a digit. -/
lemma exists_digit_of_readNumber {text left : Text} {n : Number}
    (h : readNumber text = .ok (n, left)) :
    ∃ negative d rest, text = signed negative (d :: rest) ∧ d.isDigit := by
  have hdigit {d : CodePoint} (hd : d = CodePoint.ofChar '0' ∨ d.isDigit) : d.isDigit := by
    rcases hd with rfl | hd
    · decide
    · exact hd
  rw [readNumber.eq_def] at h
  cases text with
  | nil => cases h
  | cons c text =>
    by_cases hc : c = CodePoint.ofChar '-'
    · simp only [if_pos hc] at h
      cases text with
      | nil => cases h
      | cons d text =>
        refine ⟨true, d, text, by rw [hc]; rfl, hdigit ?_⟩
        by_contra hnone
        rw [not_or] at hnone
        simp [hnone] at h
    · simp only [if_neg hc] at h
      refine ⟨false, c, text, rfl, hdigit ?_⟩
      by_contra hnone
      rw [not_or] at hnone
      simp [hnone] at h

/-- No digit is among the first two code points of a word. -/
lemma readWord?_signed {d : CodePoint} (hd : d.isDigit) (negative : Bool) (rest : Text) :
    readWord? (signed negative (d :: rest)) = none := by
  have hwords : ∀ entry ∈ words, ∃ a b others, entry.1 = a :: b :: others ∧
      a.isDigit = false ∧ b.isDigit = false := by
    simp only [words, List.forall_mem_cons]
    refine ⟨?_, ?_, ?_, ?_, ?_, ?_, by simp⟩ <;> exact ⟨_, _, _, rfl, by decide, by decide⟩
  rw [readWord?, List.findSome?_eq_none_iff]
  rintro ⟨word, value⟩ hentry
  obtain ⟨a, b, others, rfl, ha, hb⟩ := hwords _ hentry
  rw [Option.map_eq_none_iff, Text.after?_eq_none_iff]
  intro hprefix
  cases negative with
  | false =>
    obtain rfl := (List.cons_prefix_cons.1 hprefix).1
    simp [ha] at hd
  | true =>
    obtain rfl := (List.cons_prefix_cons.1 (List.cons_prefix_cons.1 hprefix).2).1
    simp [hb] at hd

/-- What begins with a digit, or with a sign and a digit, is read as a number. -/
lemma readValue_signed {d : CodePoint} (hd : d.isDigit) (negative : Bool) (rest : Text)
    (room : Nat) : readValue room (signed negative (d :: rest)) =
      (readNumber (signed negative (d :: rest))).map fun (n, left) => (.number n, left) := by
  have hword := readWord?_signed hd negative rest
  obtain ⟨c, others, hcons, hc⟩ : ∃ c others, signed negative (d :: rest) = c :: others ∧
      c ∉ Text.ofString r#""[{"# := by
    cases negative with
    | true => exact ⟨_, _, rfl, by decide⟩
    | false =>
      refine ⟨d, rest, rfl, fun hmem => ?_⟩
      have hnone : ∀ c ∈ Text.ofString r#""[{"#, ¬ c.isDigit := by decide
      exact hnone d hmem hd
  have hquote : c ≠ CodePoint.ofChar '"' := by rintro rfl; exact hc (by decide)
  have hbracket : c ≠ CodePoint.ofChar '[' := by rintro rfl; exact hc (by decide)
  have hbrace : c ≠ CodePoint.ofChar '{' := by rintro rfl; exact hc (by decide)
  rw [hcons] at hword ⊢
  rw [readValue.eq_def]
  simp only [if_neg hquote, if_neg hbracket, if_neg hbrace, hword]

/-- What can be read as a number is read as one. -/
lemma readValue_of_readNumber {room : Nat} {text left : Text} {n : Number}
    (h : readNumber text = .ok (n, left)) : readValue room text = .ok (.number n, left) := by
  obtain ⟨negative, d, rest, rfl, hd⟩ := exists_digit_of_readNumber h
  rw [readValue_signed hd, h]
  rfl

lemma skipSpace_cons {c : CodePoint} (h : isSpace c = false) (text : Text) :
    skipSpace (c :: text) = c :: text :=
  List.dropWhile_cons_of_neg (by simpa using h)

lemma isSpace_of_isDigit {d : CodePoint} (hd : d.isDigit) : isSpace d = false := by
  by_contra hspace
  rw [Bool.not_eq_false] at hspace
  simp only [isSpace, Bool.or_eq_true, decide_eq_true_eq] at hspace
  rcases hspace with ((rfl | rfl) | rfl) | rfl <;> exact absurd hd (by decide)

/-- **A numeral of too many digits** is refused. -/
lemma read_of_isCanonical {room : Nat} {numeral : Text} (h : Numeral.isCanonical numeral)
    (hlong : Numeral.digitLimit < numeral.length) :
    read room numeral = .error (.digits ⟨numeral.length⟩) := by
  have hnumber : readNumber numeral = .error (.digits ⟨numeral.length⟩) := by
    have hsigned : readNumber (signed false (numeral ++ [])) = readDigits false numeral [] :=
      readNumber_signed false h (by simp [EndsDigits])
    have hread : Numeral.read numeral = .error ⟨numeral.length⟩ := if_pos hlong
    rw [List.append_nil] at hsigned
    rw [show numeral = signed false numeral from rfl, hsigned, readDigits]
    simp only [hread]
    rfl
  obtain ⟨hne, hdigits, -⟩ := Numeral.isCanonical_eq_true_iff.1 h
  obtain ⟨d, others, rfl⟩ := List.exists_cons_of_ne_nil hne
  have hd : d.isDigit := hdigits d List.mem_cons_self
  have hmark : d.value ≠ 0xFEFF := by
    simp only [CodePoint.isDigit, Bool.and_eq_true, decide_eq_true_eq] at hd
    omega
  have hvalue : readValue room (d :: others) = _ := readValue_signed hd false others _
  rw [show signed false (d :: others) = d :: others from rfl, hnumber] at hvalue
  rw [read, readDocument.eq_def]
  simp only [if_neg hmark, skipSpace_cons (isSpace_of_isDigit hd), hvalue]
  rfl

/-- A value begins neither with space nor with the bracket that ends an array. -/
lemma head_of_readValue {room : Nat} {c : CodePoint} {text left : Text} {v : Value}
    (h : readValue room (c :: text) = .ok (v, left)) :
    isSpace c = false ∧ c ≠ CodePoint.ofChar ']' := by
  by_contra hc
  have hforeign : c ∈ Text.ofString " \t\n\r]" := by
    rw [not_and_or, Bool.not_eq_false, not_not] at hc
    rcases hc with hc | hc
    · simp only [isSpace, Bool.or_eq_true, decide_eq_true_eq] at hc
      rcases hc with ((rfl | rfl) | rfl) | rfl <;> decide
    · rw [hc]
      decide
  have hshape : ∀ c ∈ Text.ofString " \t\n\r]", c ≠ CodePoint.ofChar '"' ∧
      c ≠ CodePoint.ofChar '[' ∧ c ≠ CodePoint.ofChar '{' ∧ c ≠ CodePoint.ofChar '-' ∧
        c.isDigit = false := by decide
  obtain ⟨hquote, hbracket, hbrace, hminus, hdigit⟩ := hshape c hforeign
  have hword : readWord? (c :: text) = none := by
    have hwords : ∀ entry ∈ words, ∃ a others, entry.1 = a :: others ∧
        a ∉ Text.ofString " \t\n\r]" := by
      simp only [words, List.forall_mem_cons]
      refine ⟨?_, ?_, ?_, ?_, ?_, ?_, by simp⟩ <;> exact ⟨_, _, rfl, by decide⟩
    rw [readWord?, List.findSome?_eq_none_iff]
    rintro ⟨word, value⟩ hentry
    obtain ⟨a, others, rfl, ha⟩ := hwords _ hentry
    rw [Option.map_eq_none_iff, Text.after?_eq_none_iff]
    intro hprefix
    obtain rfl := (List.cons_prefix_cons.1 hprefix).1
    exact ha hforeign
  rw [readValue.eq_def] at h
  simp only [if_neg hquote, if_neg hbracket, if_neg hbrace, hword] at h
  obtain ⟨⟨n, left⟩, hnumber, -⟩ := except_map_eq_ok.1 h
  obtain ⟨negative, d, rest, htext, hd⟩ := exists_digit_of_readNumber hnumber
  cases negative with
  | true => exact hminus (List.cons.inj htext).1
  | false =>
    obtain rfl := (List.cons.inj htext).1
    simp [hdigit] at hd

end Json

end OnePage
