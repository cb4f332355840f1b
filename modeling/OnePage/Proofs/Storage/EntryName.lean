import OnePage.Proofs.Text.Utf8
import OnePage.Storage.Node

/-!
# Names as the disk shows them

A part of a path is a text, and the disk shows the entry that it stands for with a text of its own.
The two have the same bytes, and the disk shows the same bytes with the same text.

* `Name.character?_eq_some_iff` — bytes begin with a character exactly if they begin with what is
  written for it.  So a character in front is shown as what it is (`Name.decode_append`).
* **`Name.encode_decode`** — what is shown for bytes is written as these bytes.
* `entryName_eq_self` — without escapes a text is shown as it stands.
* `entryName_entryName` and `byteLength_entryName` — a name is shown as itself, and it has the bytes
  of the parts that stand for it.
* `mem_entryName_iff` and `entryName_eq_iff` — what is ASCII in a part is in the name, and only an
  ASCII text itself stands for the name that it is.
* **`validName_entryName`** — a part that can be followed stands for a valid name.
-/

namespace OnePage

variable {c : CodePoint} {text : Text} {bytes rest : Bytes}

/-- A code point that a path can be made of. -/
def CodePoint.IsWritable (c : CodePoint) : Prop := c.isSurrogate = false ∨ c.isEscape = true

instance (c : CodePoint) : Decidable c.IsWritable := inferInstanceAs (Decidable (_ ∨ _))

lemma CodePoint.isSurrogate_eq_false_of_lt (h : c.value < 0x80) : c.isSurrogate = false :=
  Utf8.isSurrogate_eq_false_iff.2 (.inl (by omega))

lemma CodePoint.isEscape_eq_false (h : c.isSurrogate = false) : c.isEscape = false := by
  rw [Utf8.isSurrogate_eq_false_iff] at h
  simp only [CodePoint.isEscape, Bool.and_eq_false_iff, decide_eq_false_iff_not]
  omega

namespace Storage

namespace Name

/-! ## Characters and escapes -/

lemma encodeCodePoint_of_isSurrogate_eq_false (h : c.isSurrogate = false) :
    Name.encodeCodePoint c = Utf8.encodeCodePoint c := by
  rw [Name.encodeCodePoint, c.isEscape_eq_false h]
  rfl

lemma exists_encodeCodePoint_eq_cons (c : CodePoint) :
    ∃ first tail, Utf8.encodeCodePoint c = first :: tail := by
  rw [Utf8.encodeCodePoint]
  split_ifs <;> exact ⟨_, _, rfl⟩

lemma encodeCodePoint_ne_nil (c : CodePoint) : Name.encodeCodePoint c ≠ [] := by
  obtain ⟨first, tail, hfirst⟩ := exists_encodeCodePoint_eq_cons c
  rw [Name.encodeCodePoint, hfirst]
  split_ifs <;> simp

lemma encodeCodePoint_of_lt (h : c.value < 0x80) :
    Name.encodeCodePoint c = [UInt8.ofNat c.value] := by
  rw [encodeCodePoint_of_isSurrogate_eq_false (CodePoint.isSurrogate_eq_false_of_lt h),
    Utf8.encodeCodePoint, if_pos h]

/-- **The first byte tells how many belong to a character.** -/
lemma length_encodeCodePoint {first : UInt8} {tail : Bytes}
    (h : Utf8.encodeCodePoint c = first :: tail) :
    tail.length = if first.toNat < 0x80 then 0 else if first.toNat < 0xE0 then 1
      else if first.toNat < 0xF0 then 2 else 3 := by
  have hlt := c.value_lt
  simp only [Utf8.encodeCodePoint] at h
  split_ifs at h with hone htwo hthree <;> obtain ⟨rfl, rfl⟩ := List.cons.inj h <;>
    rw [Utf8.toNat_ofNat (by omega)]
  · simp [hone]
  · simp only [List.length_singleton]
    rw [if_neg (by omega), if_pos (by omega)]
  · simp only [List.length_cons, List.length_nil]
    rw [if_neg (by omega), if_neg (by omega), if_pos (by omega)]
  · simp only [List.length_cons, List.length_nil]
    rw [if_neg (by omega), if_neg (by omega), if_neg (by omega)]

/-- The bytes that continue a character are not ASCII. -/
lemma le_of_mem_tail {first byte : UInt8} {tail : Bytes}
    (h : Utf8.encodeCodePoint c = first :: tail) (hbyte : byte ∈ tail) : 0x80 ≤ byte.toNat := by
  have htail (n : Nat) : 0x80 ≤ (Utf8.tail n).toNat := (Utf8.isTail_tail n).1
  simp only [Utf8.encodeCodePoint] at h
  split_ifs at h <;> obtain ⟨-, rfl⟩ := List.cons.inj h <;>
    simp only [List.mem_cons, List.not_mem_nil, or_false] at hbyte
  · rw [hbyte]
    exact htail _
  · rcases hbyte with rfl | rfl <;> exact htail _
  · rcases hbyte with rfl | rfl | rfl <;> exact htail _

/-- What is written for a character is read as this character. -/
lemma decode_encodeCodePoint (h : c.isSurrogate = false) :
    Utf8.decode (Utf8.encodeCodePoint c) = .ok [c] :=
  Utf8.decode_eq_ok_iff.2 (Utf8.encode_eq_ok_iff.2 ⟨by simpa using h, by simp⟩)

lemma eq_encodeCodePoint_of_decode (h : Utf8.decode bytes = .ok [c]) :
    c.isSurrogate = false ∧ bytes = Utf8.encodeCodePoint c := by
  obtain ⟨hall, hbytes⟩ := Utf8.encode_eq_ok_iff.1 (Utf8.decode_eq_ok_iff.1 h)
  exact ⟨hall c (by simp), by simpa using hbytes.symm⟩

/-- A beginning of bytes that is read as one character is what they begin with. -/
lemma eq_of_decode_take {d : CodePoint} {n : Nat} (hc : c.isSurrogate = false)
    (h : Utf8.decode ((Utf8.encodeCodePoint c ++ rest).take n) = .ok [d]) : d = c := by
  obtain ⟨-, htake⟩ := eq_encodeCodePoint_of_decode h
  obtain ⟨first, tail, hfirst⟩ := exists_encodeCodePoint_eq_cons c
  obtain ⟨first', tail', hfirst'⟩ := exists_encodeCodePoint_eq_cons d
  obtain ⟨n, rfl⟩ : ∃ m, n = m + 1 :=
    Nat.exists_eq_succ_of_ne_zero fun hzero => by simp [hzero, hfirst'] at htake
  rw [hfirst, hfirst', List.cons_append, List.take_succ_cons, List.cons.injEq] at htake
  obtain ⟨rfl, htail⟩ := htake
  have hlength : tail'.length = tail.length :=
    (length_encodeCodePoint hfirst').trans (length_encodeCodePoint hfirst).symm
  have hshort : tail.length ≤ n := by
    rw [← hlength, ← htail]
    exact List.length_take_le _ _
  have hsame : tail' = tail := by
    rw [← htail, List.take_append, List.length_append] at hlength
    rw [← htail, List.take_append, List.take_of_length_le hshort]
    rw [List.take_of_length_le hshort] at hlength
    rw [List.eq_nil_of_length_eq_zero (l := rest.take (n - tail.length)) (by omega),
      List.append_nil]
  have hread := decode_encodeCodePoint hc
  have hread' := decode_encodeCodePoint (eq_encodeCodePoint_of_decode h).1
  rw [hfirst] at hread
  rw [hfirst', hsame, hread] at hread'
  simpa using hread'.symm

/-- **Bytes begin with a character** exactly if they begin with what is written for it. -/
lemma character?_eq_some_iff : character? bytes = some c ↔
    c.isSurrogate = false ∧ ∃ rest, bytes = Utf8.encodeCodePoint c ++ rest := by
  constructor
  · intro h
    obtain ⟨n, -, hn⟩ := List.exists_of_findSome?_eq_some h
    split at hn
    · next d hread =>
      obtain rfl := Option.some.inj hn
      obtain ⟨hd, htake⟩ := eq_encodeCodePoint_of_decode hread
      exact ⟨hd, bytes.drop n, by rw [← htake, List.take_append_drop]⟩
    · simp at hn
  · rintro ⟨hc, rest, rfl⟩
    obtain ⟨first, tail, hfirst⟩ := exists_encodeCodePoint_eq_cons c
    have hlength : (Utf8.encodeCodePoint c).length ∈ [1, 2, 3, 4] := by
      rw [hfirst, List.length_cons, length_encodeCodePoint hfirst]
      split_ifs <;> decide
    have hwhole : Utf8.decode ((Utf8.encodeCodePoint c ++ rest).take
        (Utf8.encodeCodePoint c).length) = .ok [c] := by
      rw [List.take_left, decode_encodeCodePoint hc]
    cases hfound : character? (Utf8.encodeCodePoint c ++ rest) with
    | none =>
      have hnot := List.findSome?_eq_none_iff.1 hfound _ hlength
      rw [hwhole] at hnot
      simp at hnot
    | some d =>
      obtain ⟨n, -, hn⟩ := List.exists_of_findSome?_eq_some hfound
      split at hn
      · next e hread => rw [← Option.some.inj hn, eq_of_decode_take hc hread]
      · simp at hn

lemma character?_ascii {byte : UInt8} (h : byte.toNat < 0x80) (bytes : Bytes) :
    character? (byte :: bytes) = some (CodePoint.ofNat byte.toNat) := by
  have hvalue : (CodePoint.ofNat byte.toNat).value = byte.toNat := Utf8.value_ofNat (by omega)
  have hsound : (CodePoint.ofNat byte.toNat).isSurrogate = false :=
    CodePoint.isSurrogate_eq_false_of_lt (by omega)
  refine character?_eq_some_iff.2 ⟨hsound, bytes, ?_⟩
  rw [← encodeCodePoint_of_isSurrogate_eq_false hsound, encodeCodePoint_of_lt (by omega), hvalue,
    UInt8.ofNat_toNat]
  rfl

/-- A byte with which no character begins is not ASCII. -/
lemma le_of_character?_eq_none {byte : UInt8} (h : character? (byte :: bytes) = none) :
    0x80 ≤ byte.toNat := by
  by_contra hshort
  simp [character?_ascii (Nat.lt_of_not_le hshort)] at h

/-- An escape stands for its byte. -/
lemma encodeCodePoint_escape {byte : UInt8} (h : 0x80 ≤ byte.toNat) :
    (escape byte).isEscape = true ∧ Name.encodeCodePoint (escape byte) = [byte] := by
  have hlt := byte.toNat_lt
  have hvalue : (escape byte).value = 0xDC00 + byte.toNat := Utf8.value_ofNat (by omega)
  have hescape : (escape byte).isEscape = true := by
    simp only [CodePoint.isEscape, hvalue, Bool.and_eq_true, decide_eq_true_eq]
    omega
  refine ⟨hescape, ?_⟩
  rw [Name.encodeCodePoint, if_pos hescape, hvalue, Nat.add_sub_cancel_left, UInt8.ofNat_toNat]

/-! ## What is shown -/

lemma decodeFrom_append (front : Bytes) :
    decodeFrom front.length (front ++ bytes) = decodeFrom 0 bytes := by
  induction front with
  | nil => rfl
  | cons byte front ih => rw [List.length_cons, List.cons_append, decodeFrom, ih]

/-- A character in front is read as what it is. -/
lemma decode_append (h : c.isSurrogate = false) (bytes : Bytes) :
    decode (Utf8.encodeCodePoint c ++ bytes) = c :: decode bytes := by
  obtain ⟨first, tail, hfirst⟩ := exists_encodeCodePoint_eq_cons c
  have hfound : character? (first :: (tail ++ bytes)) = some c :=
    character?_eq_some_iff.2 ⟨h, bytes, by rw [hfirst]; rfl⟩
  rw [decode, hfirst, List.cons_append, decodeFrom, hfound]
  simp only [hfirst, List.length_cons, Nat.add_sub_cancel]
  rw [decodeFrom_append, decode]

/-- **What is shown for bytes is written as these bytes.** -/
lemma encode_decode (bytes : Bytes) : encode (decode bytes) = bytes := by
  have hskip (skip : Nat) (bytes : Bytes) : encode (decodeFrom skip bytes) = bytes.drop skip := by
    induction bytes generalizing skip with
    | nil => cases skip <;> rfl
    | cons byte bytes ih =>
      cases skip with
      | succ skip => rw [decodeFrom, ih, List.drop_succ_cons]
      | zero =>
        rw [decodeFrom]
        split
        · next c hfound =>
          obtain ⟨hc, rest, hrest⟩ := character?_eq_some_iff.1 hfound
          obtain ⟨first, tail, hfirst⟩ := exists_encodeCodePoint_eq_cons c
          rw [hfirst, List.cons_append, List.cons.injEq] at hrest
          obtain ⟨rfl, rfl⟩ := hrest
          rw [encode, List.flatMap_cons, ← encode, ih,
            encodeCodePoint_of_isSurrogate_eq_false hc, hfirst, List.length_cons,
            Nat.add_sub_cancel, List.drop_left]
          rfl
        · next hnone =>
          rw [encode, List.flatMap_cons, ← encode, ih,
            (encodeCodePoint_escape (le_of_character?_eq_none hnone)).2]
          rfl
  exact hskip 0 bytes

/-- What is shown can be written. -/
lemma isWritable_of_mem_decode (h : c ∈ decode bytes) : c.IsWritable := by
  have hskip (skip : Nat) (bytes : Bytes) (h : c ∈ decodeFrom skip bytes) : c.IsWritable := by
    induction bytes generalizing skip with
    | nil => cases skip <;> simp [decodeFrom] at h
    | cons byte bytes ih =>
      cases skip with
      | succ skip => exact ih skip h
      | zero =>
        rw [decodeFrom] at h
        split at h
        · next d hfound =>
          rcases List.mem_cons.1 h with rfl | h
          · exact .inl (character?_eq_some_iff.1 hfound).1
          · exact ih _ h
        · next hnone =>
          rcases List.mem_cons.1 h with rfl | h
          · exact .inr (encodeCodePoint_escape (le_of_character?_eq_none hnone)).1
          · exact ih _ h
  exact hskip 0 bytes h

/-! ## Bytes of texts -/

lemma fault?_eq_none_iff {start : Nat} :
    fault? start text = none ↔ ∀ c ∈ text, c.IsWritable := by
  induction text generalizing start with
  | nil => simp [fault?]
  | cons c text ih =>
    rw [fault?]
    cases hc : c.isSurrogate <;> cases he : c.isEscape <;>
      simp [hc, he, ih, CodePoint.IsWritable]

lemma encode_append (front rest : Text) : encode (front ++ rest) = encode front ++ encode rest :=
  List.flatMap_append

/-- A code point beyond ASCII has no ASCII bytes. -/
lemma le_of_mem_encodeCodePoint {byte : UInt8} (h : 0x80 ≤ c.value)
    (hbyte : byte ∈ Name.encodeCodePoint c) : 0x80 ≤ byte.toNat := by
  rw [Name.encodeCodePoint] at hbyte
  split at hbyte
  · next hescape =>
    simp only [CodePoint.isEscape, Bool.and_eq_true, decide_eq_true_eq] at hescape
    rw [List.mem_singleton.1 hbyte, Utf8.toNat_ofNat (by omega)]
    omega
  · obtain ⟨first, tail, hfirst⟩ := exists_encodeCodePoint_eq_cons c
    rw [hfirst] at hbyte
    rcases List.mem_cons.1 hbyte with rfl | hbyte
    · have hlt := c.value_lt
      simp only [Utf8.encodeCodePoint] at hfirst
      split_ifs at hfirst <;> rw [← (List.cons.inj hfirst).1, Utf8.toNat_ofNat (by omega)] <;> omega
    · exact le_of_mem_tail hfirst hbyte

/-- An ASCII byte stands for an ASCII code point, and for nothing else. -/
lemma mem_encode_iff (h : c.value < 0x80) : UInt8.ofNat c.value ∈ encode text ↔ c ∈ text := by
  have hbyte : (UInt8.ofNat c.value).toNat = c.value := Utf8.toNat_ofNat (by omega)
  rw [encode, List.mem_flatMap]
  constructor
  · rintro ⟨d, hd, hmem⟩
    by_cases hlong : 0x80 ≤ d.value
    · have := le_of_mem_encodeCodePoint hlong hmem
      omega
    · rw [encodeCodePoint_of_lt (Nat.lt_of_not_le hlong), List.mem_singleton] at hmem
      have hvalue : c.value = d.value := by
        rw [← hbyte, hmem, Utf8.toNat_ofNat (by omega)]
      rwa [← CodePoint.ofNat_value c, hvalue, CodePoint.ofNat_value]
  · intro hc
    refine ⟨c, hc, ?_⟩
    rw [encodeCodePoint_of_lt h]
    exact List.mem_singleton_self _

/-- **The bytes of a text are ASCII** exactly if the text is. -/
lemma forall_mem_encode_lt_iff :
    (∀ byte ∈ encode text, byte.toNat < 0x80) ↔ ∀ c ∈ text, c.value < 0x80 := by
  constructor
  · intro h c hc
    by_contra hlong
    obtain ⟨byte, hbyte⟩ := List.exists_mem_of_ne_nil _ (encodeCodePoint_ne_nil c)
    have hshort := h byte (List.mem_flatMap.2 ⟨c, hc, hbyte⟩)
    have hle := le_of_mem_encodeCodePoint (Nat.le_of_not_lt hlong) hbyte
    omega
  · intro h byte hbyte
    obtain ⟨c, hc, hbyte⟩ := List.mem_flatMap.1 hbyte
    have hshort := h c hc
    rw [encodeCodePoint_of_lt hshort, List.mem_singleton] at hbyte
    rwa [hbyte, Utf8.toNat_ofNat (by omega)]

end Name

/-! ## Names of entries -/

/-- **Without escapes a text is shown as it stands.** -/
lemma entryName_eq_self (h : ∀ c ∈ text, c.isSurrogate = false) : entryName text = text := by
  induction text with
  | nil => rfl
  | cons c text ih =>
    obtain ⟨hc, htext⟩ := List.forall_mem_cons.1 h
    rw [entryName, Name.encode, List.flatMap_cons, ← Name.encode,
      Name.encodeCodePoint_of_isSurrogate_eq_false hc, Name.decode_append hc, ← entryName, ih htext]

lemma encode_entryName (part : Text) : Name.encode (entryName part) = Name.encode part :=
  Name.encode_decode _

@[simp]
lemma entryName_entryName (part : Text) : entryName (entryName part) = entryName part := by
  rw [entryName, encode_entryName, ← entryName]

@[simp]
lemma byteLength_entryName (part : Text) : byteLength (entryName part) = byteLength part := by
  rw [byteLength, encode_entryName, byteLength]

lemma isWritable_of_mem_entryName {part : Text} (h : c ∈ entryName part) : c.IsWritable :=
  Name.isWritable_of_mem_decode h

/-- What is ASCII in a part is in the name, and nothing else is. -/
lemma mem_entryName_iff {part : Text} (h : c.value < 0x80) : c ∈ entryName part ↔ c ∈ part := by
  rw [← Name.mem_encode_iff h, encode_entryName, Name.mem_encode_iff h]

/-- Only an ASCII text itself stands for the name that it is. -/
lemma entryName_eq_iff {part : Text} (htext : ∀ c ∈ text, c.value < 0x80) :
    entryName part = text ↔ part = text := by
  have hself {text : Text} (htext : ∀ c ∈ text, c.value < 0x80) : entryName text = text :=
    entryName_eq_self fun c hc => CodePoint.isSurrogate_eq_false_of_lt (htext c hc)
  refine ⟨fun h => ?_, fun h => by rw [h, hself htext]⟩
  have hbytes : Name.encode part = Name.encode text := by
    rw [← h, encode_entryName]
  rw [← Name.forall_mem_encode_lt_iff, ← hbytes, Name.forall_mem_encode_lt_iff] at htext
  rw [← h, hself htext]

/-- **A part that can be followed stands for a valid name.** -/
lemma validName_entryName {part : Text} (hempty : part ≠ []) (hdot : part ≠ dot)
    (hup : part ≠ dotDot) (hslash : slash ∉ part) (hnul : CodePoint.ofNat 0 ∉ part)
    (hshort : byteLength part ≤ nameLimit) : validName (entryName part) := by
  have hne {text : Text} (htext : ∀ c ∈ text, c.value < 0x80) (h : part ≠ text) :
      entryName part ≠ text := mt (entryName_eq_iff htext).1 h
  have hempty' : entryName part ≠ [] := hne (by simp) hempty
  have hdot' : entryName part ≠ dot := hne (by decide) hdot
  have hup' : entryName part ≠ dotDot := hne (by decide) hup
  have hslash' : slash ∉ entryName part := mt (mem_entryName_iff (by decide)).1 hslash
  have hnul' : CodePoint.ofNat 0 ∉ entryName part := mt (mem_entryName_iff (by decide)).1 hnul
  simp [validName, hempty', hdot', hup', hslash', hnul', hshort]

end Storage

end OnePage
