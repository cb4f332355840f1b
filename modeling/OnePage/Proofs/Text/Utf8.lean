import OnePage.Proofs.Outcome
import OnePage.Text.Utf8

/-!
# Bytes and the texts they stand for

Reading bytes as a text and writing a text as bytes are inverse to each other, and what is written
is what the standard library calls UTF-8.

* `Utf8.Pending.EndsIn` — the bytes that a character still takes once it has been begun, and the
  code point that it is then.  Reading goes on after them: `Utf8.decodeFrom_of_endsIn` and
  `Utf8.exists_endsIn_of_decodeFrom`.
* `Utf8.encodeCodePoint_of_endsIn` and `Utf8.exists_endsIn` — a character begins and ends in certain
  bytes exactly if these are written for its code point, and that is no surrogate.  Overlong forms,
  surrogates and numbers past the last code point do not come up.
* **`Utf8.decode_eq_ok_iff`** — bytes are read as a text exactly if they are what is written for it.
* **`Utf8.isValidUTF8_iff`** — they are the bytes of some text exactly if they are valid in the
  sense of `ByteArray.IsValidUTF8`.
-/

namespace OnePage

lemma CodePoint.ofNat_value (c : CodePoint) : CodePoint.ofNat c.value = c := by
  rw [CodePoint.ofNat, dif_pos c.value_lt]

namespace Utf8

variable {bytes rest tail : Bytes} {text : Text} {c : CodePoint} {position start : Nat}
  {p : Pending} {a b d e : UInt8}

/-! ## The rest of a character -/

namespace Pending

/-- A character of which one byte more has been read, and `owed` are owed after the next one. -/
def goOn (p : Pending) (byte : UInt8) (owed : Nat) : Pending :=
  { p with
    more := p.more + 1, number := p.number * 0x40 + (byte.toNat - 0x80), owed,
    low := 0x80, high := 0xBF }

/-- **The bytes that a character still takes**, and the code point that it is then. -/
def EndsIn : Pending → Bytes → CodePoint → Prop
  | _, [], _ => False
  | p, byte :: bytes, c => (p.low ≤ byte.toNat ∧ byte.toNat ≤ p.high) ∧
    match p.owed with
    | 0 => bytes = [] ∧ c = CodePoint.ofNat (p.number * 0x40 + (byte.toNat - 0x80))
    | owed + 1 => (p.goOn byte owed).EndsIn bytes c

lemma endsIn_last (howed : p.owed = 0) : p.EndsIn tail c ↔
    ∃ b : UInt8, tail = [b] ∧ (p.low ≤ b.toNat ∧ b.toNat ≤ p.high) ∧
      c = CodePoint.ofNat (p.number * 0x40 + (b.toNat - 0x80)) := by
  cases tail with
  | nil => simp [EndsIn]
  | cons b tail => simp [EndsIn, howed]; tauto

lemma endsIn_more (owed : Nat) (howed : p.owed = owed + 1) : p.EndsIn tail c ↔
    ∃ (b : UInt8) (more : Bytes), tail = b :: more ∧ (p.low ≤ b.toNat ∧ b.toNat ≤ p.high) ∧
      (p.goOn b owed).EndsIn more c := by
  cases tail with
  | nil => simp [EndsIn]
  | cons b tail => simp [EndsIn, howed, and_assoc]

end Pending

/-- A character that ends as it should is read, and reading goes on after it. -/
lemma decodeFrom_of_endsIn (h : p.EndsIn tail c) : decodeFrom (some p) position (tail ++ rest) =
    (decodeFrom none (position + tail.length) rest).map (c :: ·) := by
  induction tail generalizing p position with
  | nil => exact h.elim
  | cons byte tail ih =>
    obtain ⟨hbyte, hend⟩ := h
    rw [List.cons_append, decodeFrom]
    simp only [hbyte, and_self, if_true]
    cases howed : p.owed with
    | zero =>
      simp only [howed] at hend
      rw [hend.1, hend.2, List.nil_append, List.length_singleton]
    | succ owed =>
      simp only [howed] at hend
      have hlength : position + (byte :: tail).length = position + 1 + tail.length := by
        simp only [List.length_cons]
        omega
      rw [hlength]
      exact ih hend

/-- A character that has been read has ended as it should. -/
lemma exists_endsIn_of_decodeFrom (h : decodeFrom (some p) position bytes = .ok text) :
    ∃ tail rest c text', bytes = tail ++ rest ∧ p.EndsIn tail c ∧ text = c :: text' ∧
      decodeFrom none (position + tail.length) rest = .ok text' := by
  induction bytes generalizing p position text with
  | nil => simp [decodeFrom] at h
  | cons byte bytes ih =>
    rw [decodeFrom] at h
    dsimp only at h
    split at h
    · next hbyte =>
      split at h
      · next howed =>
        obtain ⟨text', hrest, rfl⟩ := except_map_eq_ok.1 h
        refine ⟨[byte], bytes, _, text', rfl, ⟨hbyte, ?_⟩, rfl, hrest⟩
        simp only [howed, and_self]
      · next owed howed =>
        obtain ⟨tail, rest, c, text', rfl, hend, htext, hrest⟩ := ih h
        refine ⟨byte :: tail, rest, c, text', rfl, ⟨hbyte, ?_⟩, htext, ?_⟩
        · simp only [howed]
          exact hend
        · have hlength : position + (byte :: tail).length = position + 1 + tail.length := by
            simp only [List.length_cons]
            omega
          rw [hlength]
          exact hrest
    · simp at h

/-! ## Numbers and bytes -/

lemma value_ofNat {n : Nat} (h : n < 0x110000) : (CodePoint.ofNat n).value = n := by
  rw [CodePoint.ofNat, dif_pos h]

lemma eq_ofNat {n : Nat} (h : c.value = n) : c = CodePoint.ofNat n := by
  rw [← h, CodePoint.ofNat_value]

lemma isSurrogate_eq_false_iff :
    c.isSurrogate = false ↔ c.value < 0xD800 ∨ 0xE000 ≤ c.value := by
  simp only [CodePoint.isSurrogate, Bool.and_eq_false_iff, decide_eq_false_iff_not]
  omega

lemma toNat_ofNat {n : Nat} (h : n < 0x100) : (UInt8.ofNat n).toNat = n := by
  rw [UInt8.toNat_ofNat']
  exact Nat.mod_eq_of_lt h

lemma toNat_tail (n : Nat) : (Utf8.tail n).toNat = 0x80 + n % 0x40 := by
  have hlt : n % 0x40 < 0x40 := Nat.mod_lt n (by decide)
  exact toNat_ofNat (by omega)

lemma ofNat_eq {n : Nat} (h : n = a.toNat) : UInt8.ofNat n = a := by
  rw [h, UInt8.ofNat_toNat]

/-- A byte that continues a character. -/
def IsTail (byte : UInt8) : Prop := 0x80 ≤ byte.toNat ∧ byte.toNat ≤ 0xBF

lemma isTail_tail (n : Nat) : IsTail (Utf8.tail n) := by
  rw [IsTail, toNat_tail]
  omega

/-! ## What is written -/

lemma encodeCodePoint_one (h : a.toNat < 0x80) :
    encodeCodePoint (CodePoint.ofNat a.toNat) = [a] := by
  have hvalue : (CodePoint.ofNat a.toNat).value = a.toNat := value_ofNat (by omega)
  simp [encodeCodePoint, hvalue, h]

lemma encodeCodePoint_two (ha : 0xC2 ≤ a.toNat) (ha' : a.toNat < 0xE0) (hb : IsTail b)
    (hvalue : c.value = (a.toNat - 0xC0) * 0x40 + (b.toNat - 0x80)) :
    encodeCodePoint c = [a, b] := by
  obtain ⟨hb, hb'⟩ := hb
  have hfirst : 0xC0 + c.value / 0x40 = a.toNat := by omega
  have hlast : 0x80 + c.value % 0x40 = b.toNat := by omega
  rw [encodeCodePoint, if_neg (by omega), if_pos (by omega), ofNat_eq hfirst, Utf8.tail,
    ofNat_eq hlast]

lemma encodeCodePoint_three (ha : 0xE0 ≤ a.toNat) (ha' : a.toNat < 0xF0) (hb : IsTail b)
    (hd : IsTail d) (hlow : 0x800 ≤ c.value) (hvalue : c.value =
      ((a.toNat - 0xE0) * 0x40 + (b.toNat - 0x80)) * 0x40 + (d.toNat - 0x80)) :
    encodeCodePoint c = [a, b, d] := by
  obtain ⟨hb, hb'⟩ := hb
  obtain ⟨hd, hd'⟩ := hd
  have hfirst : 0xE0 + c.value / 0x1000 = a.toNat := by omega
  have hsecond : 0x80 + c.value / 0x40 % 0x40 = b.toNat := by omega
  have hlast : 0x80 + c.value % 0x40 = d.toNat := by omega
  rw [encodeCodePoint, if_neg (by omega), if_neg (by omega), if_pos (by omega), ofNat_eq hfirst,
    Utf8.tail, ofNat_eq hsecond, Utf8.tail, ofNat_eq hlast]

lemma encodeCodePoint_four (ha : 0xF0 ≤ a.toNat) (hb : IsTail b) (hd : IsTail d) (he : IsTail e)
    (hlow : 0x10000 ≤ c.value) (hvalue : c.value =
      (((a.toNat - 0xF0) * 0x40 + (b.toNat - 0x80)) * 0x40 + (d.toNat - 0x80)) * 0x40 +
        (e.toNat - 0x80)) :
    encodeCodePoint c = [a, b, d, e] := by
  obtain ⟨hb, hb'⟩ := hb
  obtain ⟨hd, hd'⟩ := hd
  obtain ⟨he, he'⟩ := he
  have hfirst : 0xF0 + c.value / 0x40000 = a.toNat := by omega
  have hsecond : 0x80 + c.value / 0x1000 % 0x40 = b.toNat := by omega
  have hthird : 0x80 + c.value / 0x40 % 0x40 = d.toNat := by omega
  have hlast : 0x80 + c.value % 0x40 = e.toNat := by omega
  rw [encodeCodePoint, if_neg (by omega), if_neg (by omega), if_neg (by omega), ofNat_eq hfirst,
    Utf8.tail, ofNat_eq hsecond, Utf8.tail, ofNat_eq hthird, Utf8.tail, ofNat_eq hlast]

/-! ## How a character begins -/

namespace Pending

/-- **How a character of several bytes begins**: its first byte says how many follow, and in some
cases that the second one is bounded more narrowly. -/
lemma begin?_eq (start : Nat) (first : UInt8) : begin? start first =
    if first.toNat < 0xC2 then none
    else if first.toNat < 0xE0 then
      some ⟨start, first, 0, first.toNat - 0xC0, 0, 0x80, 0xBF⟩
    else if first.toNat < 0xF0 then
      some ⟨start, first, 0, first.toNat - 0xE0, 1, if first.toNat = 0xE0 then 0xA0 else 0x80,
        if first.toNat = 0xED then 0x9F else 0xBF⟩
    else if first.toNat ≤ 0xF4 then
      some ⟨start, first, 0, first.toNat - 0xF0, 2, if first.toNat = 0xF0 then 0x90 else 0x80,
        if first.toNat = 0xF4 then 0x8F else 0xBF⟩
    else none := by
  rw [begin?]
  generalize first.toNat = n
  dsimp only
  split_ifs <;> grind

lemma begin?_two (ha : 0xC2 ≤ a.toNat) (ha' : a.toNat < 0xE0) :
    begin? start a = some ⟨start, a, 0, a.toNat - 0xC0, 0, 0x80, 0xBF⟩ := by
  rw [begin?_eq, if_neg (by omega), if_pos ha']

lemma begin?_three (ha : 0xE0 ≤ a.toNat) (ha' : a.toNat < 0xF0) :
    begin? start a = some ⟨start, a, 0, a.toNat - 0xE0, 1, if a.toNat = 0xE0 then 0xA0 else 0x80,
      if a.toNat = 0xED then 0x9F else 0xBF⟩ := by
  rw [begin?_eq, if_neg (by omega), if_neg (by omega), if_pos ha']

lemma begin?_four (ha : 0xF0 ≤ a.toNat) (ha' : a.toNat ≤ 0xF4) :
    begin? start a = some ⟨start, a, 0, a.toNat - 0xF0, 2, if a.toNat = 0xF0 then 0x90 else 0x80,
      if a.toNat = 0xF4 then 0x8F else 0xBF⟩ := by
  rw [begin?_eq, if_neg (by omega), if_neg (by omega), if_neg (by omega), if_pos ha']

lemma begin?_range (h : begin? start a = some p) : 0xC2 ≤ a.toNat ∧ a.toNat ≤ 0xF4 := by
  rw [begin?_eq] at h
  split_ifs at h <;> omega

end Pending

/-! ## One character -/

section Character

variable (hbegin : Pending.begin? start a = some p) (hend : p.EndsIn tail c)

include hbegin hend

lemma encodeCodePoint_of_endsIn_two (ha : 0xC2 ≤ a.toNat) (ha' : a.toNat < 0xE0) :
    encodeCodePoint c = a :: tail ∧ c.isSurrogate = false := by
  obtain rfl := Option.some.inj ((Pending.begin?_two ha ha').symm.trans hbegin)
  obtain ⟨b, rfl, hb, hc⟩ := (Pending.endsIn_last (by rfl)).1 hend
  dsimp only at hb hc
  have hvalue : c.value = (a.toNat - 0xC0) * 0x40 + (b.toNat - 0x80) := by
    rw [hc, value_ofNat (by omega)]
  refine ⟨encodeCodePoint_two ha ha' hb hvalue, ?_⟩
  rw [isSurrogate_eq_false_iff]
  omega

lemma encodeCodePoint_of_endsIn_three (ha : 0xE0 ≤ a.toNat) (ha' : a.toNat < 0xF0) :
    encodeCodePoint c = a :: tail ∧ c.isSurrogate = false := by
  obtain rfl := Option.some.inj ((Pending.begin?_three ha ha').symm.trans hbegin)
  obtain ⟨b, more, rfl, hb, hend⟩ := (Pending.endsIn_more 0 (by rfl)).1 hend
  obtain ⟨d, rfl, hd, hc⟩ := (Pending.endsIn_last (by rfl)).1 hend
  dsimp only [Pending.goOn] at hb hd hc
  -- the second byte keeps the form from being overlong and from giving a surrogate
  have hsecond : IsTail b ∧ (a.toNat = 0xE0 → 0xA0 ≤ b.toNat) ∧
      (a.toNat = 0xED → b.toNat ≤ 0x9F) := by
    rw [IsTail]
    split_ifs at hb <;> omega
  obtain ⟨⟨hb, hb'⟩, hoverlong, hsurrogate⟩ := hsecond
  have hvalue :
      c.value = ((a.toNat - 0xE0) * 0x40 + (b.toNat - 0x80)) * 0x40 + (d.toNat - 0x80) := by
    rw [hc, value_ofNat (by omega)]
  refine ⟨encodeCodePoint_three ha ha' ⟨hb, hb'⟩ hd (by omega) hvalue, ?_⟩
  rw [isSurrogate_eq_false_iff]
  omega

lemma encodeCodePoint_of_endsIn_four (ha : 0xF0 ≤ a.toNat) (ha' : a.toNat ≤ 0xF4) :
    encodeCodePoint c = a :: tail ∧ c.isSurrogate = false := by
  obtain rfl := Option.some.inj ((Pending.begin?_four ha ha').symm.trans hbegin)
  obtain ⟨b, more, rfl, hb, hend⟩ := (Pending.endsIn_more 1 (by rfl)).1 hend
  obtain ⟨d, more, rfl, hd, hend⟩ := (Pending.endsIn_more 0 (by rfl)).1 hend
  obtain ⟨e, rfl, he, hc⟩ := (Pending.endsIn_last (by rfl)).1 hend
  dsimp only [Pending.goOn] at hb hd he hc
  -- the second byte keeps the form from being overlong and the number from being too great
  have hsecond : IsTail b ∧ (a.toNat = 0xF0 → 0x90 ≤ b.toNat) ∧
      (a.toNat = 0xF4 → b.toNat ≤ 0x8F) := by
    rw [IsTail]
    split_ifs at hb <;> omega
  obtain ⟨⟨hb, hb'⟩, hoverlong, hgreat⟩ := hsecond
  have hvalue : c.value = (((a.toNat - 0xF0) * 0x40 + (b.toNat - 0x80)) * 0x40 +
      (d.toNat - 0x80)) * 0x40 + (e.toNat - 0x80) := by
    rw [hc, value_ofNat (by omega)]
  refine ⟨encodeCodePoint_four ha ⟨hb, hb'⟩ hd he (by omega) hvalue, ?_⟩
  rw [isSurrogate_eq_false_iff]
  omega

/-- **A character that has been begun and ended** is what is written for its code point, which is no
surrogate. -/
lemma encodeCodePoint_of_endsIn : encodeCodePoint c = a :: tail ∧ c.isSurrogate = false := by
  obtain ⟨ha, ha'⟩ := Pending.begin?_range hbegin
  by_cases htwo : a.toNat < 0xE0
  · exact encodeCodePoint_of_endsIn_two hbegin hend ha htwo
  by_cases hthree : a.toNat < 0xF0
  · exact encodeCodePoint_of_endsIn_three hbegin hend (by omega) hthree
  · exact encodeCodePoint_of_endsIn_four hbegin hend (by omega) ha'

end Character

/-- **What is written for a code point** other than a surrogate begins a character and ends it. -/
lemma exists_endsIn (start : Nat) (hc : c.isSurrogate = false) (hlong : 0x80 ≤ c.value) :
    ∃ first p tail, encodeCodePoint c = first :: tail ∧ ¬ first.toNat < 0x80 ∧
      Pending.begin? start first = some p ∧ p.EndsIn tail c := by
  have hlt := c.value_lt
  rw [isSurrogate_eq_false_iff] at hc
  rw [encodeCodePoint, if_neg (by omega)]
  by_cases htwo : c.value < 0x800
  · have ha : (UInt8.ofNat (0xC0 + c.value / 0x40)).toNat = 0xC0 + c.value / 0x40 :=
      toNat_ofNat (by omega)
    rw [if_pos htwo]
    refine ⟨_, _, _, rfl, by omega, Pending.begin?_two (by omega) (by omega), ?_⟩
    refine (Pending.endsIn_last (by rfl)).2 ⟨_, rfl, isTail_tail _, eq_ofNat ?_⟩
    dsimp only
    rw [ha, toNat_tail]
    omega
  by_cases hthree : c.value < 0x10000
  · have ha : (UInt8.ofNat (0xE0 + c.value / 0x1000)).toNat = 0xE0 + c.value / 0x1000 :=
      toNat_ofNat (by omega)
    rw [if_neg htwo, if_pos hthree]
    refine ⟨_, _, _, rfl, by omega, Pending.begin?_three (by omega) (by omega), ?_⟩
    refine (Pending.endsIn_more 0 (by rfl)).2 ⟨_, _, rfl, ?_, ?_⟩
    · dsimp only
      rw [ha, toNat_tail]
      constructor <;> split_ifs <;> omega
    · refine (Pending.endsIn_last (by rfl)).2 ⟨_, rfl, isTail_tail _, eq_ofNat ?_⟩
      dsimp only [Pending.goOn]
      rw [ha, toNat_tail, toNat_tail]
      omega
  · have ha : (UInt8.ofNat (0xF0 + c.value / 0x40000)).toNat = 0xF0 + c.value / 0x40000 :=
      toNat_ofNat (by omega)
    rw [if_neg htwo, if_neg hthree]
    refine ⟨_, _, _, rfl, by omega, Pending.begin?_four (by omega) (by omega), ?_⟩
    refine (Pending.endsIn_more 1 (by rfl)).2 ⟨_, _, rfl, ?_, ?_⟩
    · dsimp only
      rw [ha, toNat_tail]
      constructor <;> split_ifs <;> omega
    · refine (Pending.endsIn_more 0 (by rfl)).2 ⟨_, _, rfl, isTail_tail _, ?_⟩
      refine (Pending.endsIn_last (by rfl)).2 ⟨_, rfl, isTail_tail _, eq_ofNat ?_⟩
      dsimp only [Pending.goOn]
      rw [ha, toNat_tail, toNat_tail, toNat_tail]
      omega

/-! ## Texts -/

lemma firstSurrogates?_eq_none_iff :
    firstSurrogates? start text = none ↔ ∀ c ∈ text, c.isSurrogate = false := by
  induction text generalizing start with
  | nil => simp [firstSurrogates?]
  | cons c text ih =>
    rw [firstSurrogates?]
    cases hc : c.isSurrogate <;> simp [hc, ih]

lemma encode_eq_ok_iff : encode text = .ok bytes ↔
    (∀ c ∈ text, c.isSurrogate = false) ∧ text.flatMap encodeCodePoint = bytes := by
  rw [encode]
  cases hfirst : firstSurrogates? 0 text with
  | none =>
    rw [and_iff_right (firstSurrogates?_eq_none_iff.1 hfirst)]
    simp
  | some fault =>
    have hnot : ¬ ∀ c ∈ text, c.isSurrogate = false := by
      intro hall
      simp [firstSurrogates?_eq_none_iff.2 hall] at hfirst
    simp [hnot]

/-- What has been written is read again. -/
lemma decodeFrom_flatMap (htext : ∀ c ∈ text, c.isSurrogate = false) :
    decodeFrom none position (text.flatMap encodeCodePoint) = .ok text := by
  induction text generalizing position with
  | nil => rfl
  | cons c text ih =>
    obtain ⟨hc, htext⟩ := List.forall_mem_cons.1 htext
    rw [List.flatMap_cons]
    by_cases hshort : c.value < 0x80
    · have hbyte : (UInt8.ofNat c.value).toNat = c.value := toNat_ofNat (by omega)
      rw [encodeCodePoint, if_pos hshort, List.singleton_append, decodeFrom, hbyte, if_pos hshort,
        ih htext, ← eq_ofNat rfl]
      rfl
    · obtain ⟨first, p, tail, hencode, hlong, hbegin, hend⟩ := exists_endsIn position hc (by omega)
      rw [hencode, List.cons_append, decodeFrom, if_neg hlong, hbegin]
      dsimp only
      rw [decodeFrom_of_endsIn hend, ih htext]
      rfl

/-- What has been read has been written so. -/
lemma flatMap_of_decodeFrom (h : decodeFrom none position bytes = .ok text) :
    (∀ c ∈ text, c.isSurrogate = false) ∧ text.flatMap encodeCodePoint = bytes := by
  -- by the number of bytes, since a character takes several of them at once
  induction hlength : bytes.length using Nat.strongRecOn generalizing bytes position text with
  | ind n ih =>
    subst hlength
    cases bytes with
    | nil =>
      obtain rfl : [] = text := Except.ok.inj h
      simp
    | cons first bytes =>
      rw [decodeFrom] at h
      split at h
      · next hshort =>
        obtain ⟨text', hrest, rfl⟩ := except_map_eq_ok.1 h
        obtain ⟨hall, hbytes⟩ := ih bytes.length (by simp) hrest rfl
        have hvalue : (CodePoint.ofNat first.toNat).value = first.toNat := value_ofNat (by omega)
        refine ⟨List.forall_mem_cons.2 ⟨?_, hall⟩, ?_⟩
        · rw [isSurrogate_eq_false_iff, hvalue]
          omega
        · rw [List.flatMap_cons, encodeCodePoint_one hshort, hbytes]
          rfl
      · split at h
        · simp at h
        · next p hbegin =>
          obtain ⟨tail, rest, c, text', rfl, hend, rfl, hrest⟩ := exists_endsIn_of_decodeFrom h
          obtain ⟨hencode, hc⟩ := encodeCodePoint_of_endsIn hbegin hend
          have hshorter : rest.length < (first :: (tail ++ rest)).length := by
            rw [List.length_cons, List.length_append]
            omega
          obtain ⟨hall, hbytes⟩ := ih rest.length hshorter hrest rfl
          refine ⟨List.forall_mem_cons.2 ⟨hc, hall⟩, ?_⟩
          rw [List.flatMap_cons, hencode, hbytes]
          rfl

/-- **Reading and writing are inverse to each other**: bytes are read as a text exactly if they are
what is written for it. -/
theorem decode_eq_ok_iff : decode bytes = .ok text ↔ encode text = .ok bytes := by
  rw [encode_eq_ok_iff]
  constructor
  · intro h
    exact flatMap_of_decodeFrom h
  · rintro ⟨htext, rfl⟩
    exact decodeFrom_flatMap htext

/-! ## The standard library's UTF-8 -/

/-- What is written for a character is what the standard library writes. -/
lemma encodeCodePoint_ofChar (char : Char) :
    encodeCodePoint (CodePoint.ofChar char) = String.utf8EncodeChar char := by
  have hlt := (CodePoint.ofChar char).value_lt
  have hvalue : (CodePoint.ofChar char).value = char.val.toNat := rfl
  rw [hvalue] at hlt
  rw [encodeCodePoint, String.utf8EncodeChar, hvalue]
  generalize char.val.toNat = n at hlt
  have hsame {k m : Nat} (h : k = m) : UInt8.ofNat k = UInt8.ofNat m := congrArg UInt8.ofNat h
  dsimp only [Utf8.tail]
  by_cases hone : n < 0x80
  · rw [if_pos hone, if_pos (show n ≤ 127 by omega)]
  rw [if_neg hone, if_neg (show ¬ n ≤ 127 by omega)]
  by_cases htwo : n < 0x800
  · rw [if_pos htwo, if_pos (show n ≤ 2047 by omega)]
    simp only [List.cons.injEq, and_true]
    exact ⟨hsame (by omega), hsame (by omega)⟩
  rw [if_neg htwo, if_neg (show ¬ n ≤ 2047 by omega)]
  by_cases hthree : n < 0x10000
  · rw [if_pos hthree, if_pos (show n ≤ 65535 by omega)]
    simp only [List.cons.injEq, and_true]
    exact ⟨hsame (by omega), hsame (by omega), hsame (by omega)⟩
  · rw [if_neg hthree, if_neg (show ¬ n ≤ 65535 by omega)]
    simp only [List.cons.injEq, and_true]
    exact ⟨hsame (by omega), hsame (by omega), hsame (by omega), hsame (by omega)⟩

lemma isSurrogate_ofChar (char : Char) : (CodePoint.ofChar char).isSurrogate = false := by
  have hvalid : char.val.toNat < 0xD800 ∨ 0xDFFF < char.val.toNat ∧ _ := char.valid
  have hvalue : (CodePoint.ofChar char).value = char.val.toNat := rfl
  rw [isSurrogate_eq_false_iff, hvalue]
  omega

lemma ofChar_toChar (hc : c.isSurrogate = false) : CodePoint.ofChar c.toChar = c := by
  have hvalid : c.value.isValidChar := by
    have hlt := c.value_lt
    rw [isSurrogate_eq_false_iff] at hc
    rw [Nat.isValidChar]
    omega
  have hvalue : (CodePoint.ofChar c.toChar).value = c.value := by
    rw [CodePoint.toChar, hc, if_neg Bool.false_ne_true, Char.ofNat, dif_pos hvalid]
    rfl
  rw [eq_ofNat hvalue, ← eq_ofNat rfl]

/-- **Bytes are the bytes of a text** exactly if they are valid in the sense of the standard
library. -/
theorem isValidUTF8_iff : bytes.toByteArray.IsValidUTF8 ↔ ∃ text, encode text = .ok bytes := by
  constructor
  · rintro ⟨chars, hchars⟩
    have hbytes : bytes = chars.flatMap String.utf8EncodeChar := by
      have h := congrArg (fun array => array.data.toList) hchars
      simpa only [List.utf8Encode, List.toList_data_toByteArray] using h
    refine ⟨chars.map CodePoint.ofChar, encode_eq_ok_iff.2 ⟨?_, ?_⟩⟩
    · intro c hc
      obtain ⟨char, -, rfl⟩ := List.mem_map.1 hc
      exact isSurrogate_ofChar char
    · rw [hbytes, List.flatMap_map]
      exact List.flatMap_congr fun char _ => encodeCodePoint_ofChar char
  · rintro ⟨text, htext⟩
    obtain ⟨hall, rfl⟩ := encode_eq_ok_iff.1 htext
    refine ⟨text.map CodePoint.toChar, ?_⟩
    rw [List.utf8Encode, List.flatMap_map]
    congr 1
    refine List.flatMap_congr fun c hc => ?_
    rw [← encodeCodePoint_ofChar, ofChar_toChar (hall c hc)]

end Utf8

end OnePage
