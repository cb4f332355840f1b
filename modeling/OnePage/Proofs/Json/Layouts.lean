import OnePage.Json.Writer
import OnePage.Proofs.Decimal.Digits

/-!
# Where two layouts agree

A value in a page may be written in one of two layouts, and which of them depends on the encoder at
hand.  This file says for which values that makes no difference.

* `Value.numbers` and `Value.texts` — all numbers in a value, and all strings and keys.
* `Value.IsRefused` — the fast encoder refuses a value for one of three reasons.
* `IsShared` — a double that both layouts write alike.
* **`Layout.Comparable.write_append_eq_iff`** — two layouts that escape the same code points write
  a value alike exactly if they write every double in it alike.  A number ends at the first mark
  behind it, so what is different in one place is never made up for in another.
* `IsCompact` — what is known of a fast encoder: when it refuses a value, and what it writes else.
* **`embed_fast_eq_iff`** — a value appears the same with such an encoder as without exactly if it
  is no container, or is refused, or holds only doubles that are written alike.
-/

namespace OnePage

namespace Json

open Decimal (Scientific Style Exact shortest)

/-! ## Numbers that are written alike -/

/-- The two styles lay digits out alike unless their power of ten is small and negative. -/
lemma layOut_eq_iff {s : Scientific} (hdigits : ∀ c ∈ s.digits, c.isDigit) :
    compactStyle.layOut s = standardStyle.layOut s ↔ ¬ (-9 ≤ s.exponent ∧ s.exponent ≤ -5) := by
  have hcompact : compactStyle.layOut s =
      if -5 ≤ s.exponent ∧ s.exponent < 16 then s.positional else s.exponential 1 := rfl
  have hstandard : standardStyle.layOut s =
      if -4 ≤ s.exponent ∧ s.exponent < 16 then s.positional else s.exponential 2 := rfl
  have hplaces := Scientific.exponential_one_eq_two_iff (s := s)
  rw [hcompact, hstandard]
  split
  · next hpositional =>
    split
    · next hboth => simp; omega
    · next hnot =>
      have hne := Scientific.positional_ne_exponential hdigits 2
      exact ⟨fun heq => absurd heq hne, fun h => by omega⟩
  · next hexponential =>
    rw [if_neg (by omega), hplaces]
    omega

/-- **A double that both layouts write alike**: it is a number, it is finite, and if it is not zero,
the power of ten of its first digit does not lie between the fifth and the ninth negative one. -/
def IsShared (x : Float) : Prop :=
  match Exact.ofFloat x with
  | .nan => False
  | .infinite _ => False
  | .finite _ significand exponent =>
    significand = 0 ∨ ¬ (-9 ≤ (shortest significand exponent).exponent ∧
      (shortest significand exponent).exponent ≤ -5)

lemma render_eq_iff (x : Float) :
    compactStyle.render x = standardStyle.render x ↔ IsShared x := by
  rw [IsShared, Style.render, Style.render]
  cases Exact.ofFloat x with
  | nan => exact iff_of_false (by decide) id
  | infinite negative => cases negative <;> exact iff_of_false (by decide) id
  | finite negative significand exponent =>
    have hlayOut := layOut_eq_iff (s := shortest significand exponent) fun c =>
      Decimal.isDigit_of_mem_shortest
    by_cases hzero : significand = 0
    · simp [hzero]
    · cases negative <;> simp [hzero, hlayOut]

/-! ## Where a number ends -/

/-- The marks that stand behind the parts of an array or object. -/
def marks : Text := r",]}"

/-- No mark stands in a text. -/
def Unmarked (text : Text) : Prop := ∀ c ∈ text, c ∉ marks

/-- A text is empty or begins with a mark. -/
def Stops (text : Text) : Prop := ∀ c ∈ text.head?, c ∈ marks

lemma stops_nil : Stops [] := by simp [Stops]

lemma stops_cons (c : CodePoint) (rest : Text) (h : c ∈ marks) : Stops (c :: rest) := by
  simpa [Stops] using h

/-- **A text without marks ends at the first mark.** -/
lemma append_eq_append_iff_of_stops {s t rest rest' : Text} (hs : Unmarked s) (ht : Unmarked t)
    (hrest : Stops rest) (hrest' : Stops rest') :
    s ++ rest = t ++ rest' ↔ s = t ∧ rest = rest' := by
  have htake : ∀ front back : Text, Unmarked front → Stops back →
      (front ++ back).takeWhile (· ∉ marks) = front := by
    intro front back hfront hback
    rw [List.takeWhile_append_of_pos fun c hc => by simpa using hfront c hc]
    cases back with
    | nil => simp
    | cons c back =>
      have hc : c ∈ marks := hback c (by simp)
      rw [List.takeWhile_cons_of_neg (by simpa using hc), List.append_nil]
  constructor
  · intro h
    have hfront : s = t := by rw [← htake s rest hs hrest, h, htake t rest' ht hrest']
    exact ⟨hfront, List.append_cancel_left (hfront ▸ h)⟩
  · rintro ⟨rfl, rfl⟩
    rfl

/-- The words of a style hold no marks. -/
structure HasPlainWords (style : Style) : Prop where
  /-- Not the one for what is no number. -/
  nan : Unmarked style.nan
  /-- Not the one for positive infinity. -/
  infinity : Unmarked style.infinity
  /-- Not the one for negative infinity. -/
  negativeInfinity : Unmarked style.negativeInfinity

instance (text : Text) : Decidable (Unmarked text) := by
  unfold Unmarked; infer_instance

lemma hasPlainWords_compactStyle : HasPlainWords compactStyle := ⟨by decide, by decide, by decide⟩

lemma hasPlainWords_standardStyle : HasPlainWords standardStyle := ⟨by decide, by decide, by decide⟩

/-- No mark stands in a number. -/
lemma HasPlainWords.unmarked_render {style : Style} (h : HasPlainWords style) (x : Float) :
    Unmarked (style.render x) := by
  have hmarks : ∀ c ∈ marks, ¬ (c.isDigit ∨ c ∈ Text.ofString ".e+-") := by decide
  intro c hc hmark
  rcases Style.mem_render hc with hnumeric | hword | hword | hword
  · exact hmarks c hmark hnumeric
  · exact h.nan c hword hmark
  · exact h.infinity c hword hmark
  · exact h.negativeInfinity c hword hmark

/-! ## What lies in a value -/

namespace Value

mutual

/-- The numbers in a value. -/
def numbers : Value → List Number
  | number n => [n]
  | array items => numbersOfItems items
  | object members => numbersOfMembers members
  | _ => []

/-- The numbers in some items. -/
def numbersOfItems : List Value → List Number
  | [] => []
  | item :: items => item.numbers ++ numbersOfItems items

/-- The numbers in some members. -/
def numbersOfMembers : List (Text × Value) → List Number
  | [] => []
  | (_, value) :: members => value.numbers ++ numbersOfMembers members

end

/-- The numbers of an item are among those of all. -/
lemma mem_numbersOfItems {items : List Value} {item : Value} {n : Number} (hitem : item ∈ items)
    (hn : n ∈ item.numbers) : n ∈ numbersOfItems items := by
  induction items with
  | nil => cases hitem
  | cons first items ih =>
    rw [numbersOfItems, List.mem_append]
    rcases List.mem_cons.1 hitem with rfl | hitem
    · exact .inl hn
    · exact .inr (ih hitem)

lemma mem_numbersOfMembers {members : List (Text × Value)} {member : Text × Value} {n : Number}
    (hmember : member ∈ members) (hn : n ∈ member.2.numbers) :
    n ∈ numbersOfMembers members := by
  induction members with
  | nil => cases hmember
  | cons first members ih =>
    rw [numbersOfMembers, List.mem_append]
    rcases List.mem_cons.1 hmember with rfl | hmember
    · exact .inl hn
    · exact .inr (ih hmember)

mutual

/-- The strings and keys in a value. -/
def texts : Value → List Text
  | string text => [text]
  | array items => textsOfItems items
  | object members => textsOfMembers members
  | _ => []

/-- The strings and keys in some items. -/
def textsOfItems : List Value → List Text
  | [] => []
  | item :: items => item.texts ++ textsOfItems items

/-- The strings and keys in some members. -/
def textsOfMembers : List (Text × Value) → List Text
  | [] => []
  | (key, value) :: members => key :: value.texts ++ textsOfMembers members

end

/-- **The fast encoder refuses a value** that holds a whole number beyond 64 bits, or a string or
key with a surrogate, or more than 254 containers inside each other. -/
def IsRefused (v : Value) : Prop :=
  (∃ n, .whole n ∈ v.numbers ∧ ¬ (-2 ^ 63 ≤ n ∧ n ≤ 2 ^ 64 - 1)) ∨
    (∃ text ∈ v.texts, ∃ c ∈ text, c.isSurrogate) ∨ 254 < v.depth

/-- Whether a text may be written is a question of its surrogates. -/
lemma isEncodable_iff (text : Text) : isEncodable text ↔ ∀ c ∈ text, c.isSurrogate = false := by
  simp [isEncodable]

mutual

/-- A value is portable if its whole numbers fit and its texts may be written. -/
lemma isPortable_iff : ∀ v : Value, v.isPortable ↔
    (∀ n, .whole n ∈ v.numbers → -2 ^ 63 ≤ n ∧ n ≤ 2 ^ 64 - 1) ∧
      ∀ text ∈ v.texts, ∀ c ∈ text, c.isSurrogate = false
  | .null | .bool _ | .number (.real _) => by simp [isPortable, numbers, texts]
  | .number (.whole n) => by simp [isPortable, numbers, texts]; omega
  | .string text => by simp [isPortable, numbers, texts, isEncodable_iff]
  | .array items => itemsPortable_iff items
  | .object members => membersPortable_iff members

lemma itemsPortable_iff : ∀ items : List Value, itemsPortable items ↔
    (∀ n, .whole n ∈ numbersOfItems items → -2 ^ 63 ≤ n ∧ n ≤ 2 ^ 64 - 1) ∧
      ∀ text ∈ textsOfItems items, ∀ c ∈ text, c.isSurrogate = false
  | [] => by simp [itemsPortable, numbersOfItems, textsOfItems]
  | item :: items => by
    have hitem := isPortable_iff item
    have hitems := itemsPortable_iff items
    simp only [itemsPortable, numbersOfItems, textsOfItems, Bool.and_eq_true, hitem, hitems,
      List.mem_append, or_imp, forall_and]
    tauto

lemma membersPortable_iff : ∀ members : List (Text × Value), membersPortable members ↔
    (∀ n, .whole n ∈ numbersOfMembers members → -2 ^ 63 ≤ n ∧ n ≤ 2 ^ 64 - 1) ∧
      ∀ text ∈ textsOfMembers members, ∀ c ∈ text, c.isSurrogate = false
  | [] => by simp [membersPortable, numbersOfMembers, textsOfMembers]
  | (key, value) :: members => by
    have hvalue := isPortable_iff value
    have hmembers := membersPortable_iff members
    simp only [membersPortable, numbersOfMembers, textsOfMembers, Bool.and_eq_true, hvalue,
      hmembers, isEncodable_iff, List.cons_append, List.mem_cons, List.mem_append, or_imp,
      forall_and, forall_eq]
    tauto

end

/-- The fast encoder takes what it does not refuse. -/
lemma fitsCompact_eq_false_iff (v : Value) : v.fitsCompact = false ↔ v.IsRefused := by
  rw [← Bool.not_eq_true, fitsCompact, Bool.and_eq_true, isPortable_iff, IsRefused, compactDepth,
    decide_eq_true_iff, ← not_le, ← or_assoc, not_and_or, not_and_or]
  refine or_congr_left (or_congr ?_ ?_)
  · push Not
    rfl
  · push Not
    simp

end Value

/-! ## Two layouts -/

section Layouts

variable {l l' : Layout}

/-- **Two layouts that differ only in how they write doubles**: they escape the same code points,
and neither writes a mark in a number. -/
structure Layout.Comparable (l l' : Layout) : Prop where
  /-- The same code points are escaped. -/
  asciiOnly : l.asciiOnly = l'.asciiOnly
  /-- The words of the one hold no marks. -/
  left : HasPlainWords l.style
  /-- The words of the other hold no marks. -/
  right : HasPlainWords l'.style

namespace Layout.Comparable

lemma compact_standard : Comparable .compact .standard :=
  ⟨rfl, hasPlainWords_compactStyle, hasPlainWords_standardStyle⟩

lemma writeString_eq (h : Comparable l l') (text : Text) :
    writeString l text = writeString l' text := by
  have hcodePoint : writeCodePoint l = writeCodePoint l' := by
    funext c
    simp only [writeCodePoint, h.asciiOnly]
  rw [writeString, writeString, hcodePoint]

mutual

/-- **Two layouts write a value alike exactly if they write its doubles alike**, whatever stands
behind it. -/
lemma write_append_eq_iff (h : Comparable l l') : ∀ (v : Value) {rest rest' : Text},
    Stops rest → Stops rest' →
    (write l v ++ rest = write l' v ++ rest' ↔
      (∀ x, .real x ∈ v.numbers → l.style.render x = l'.style.render x) ∧ rest = rest')
  | .null, _, _, _, _ => by simp [write, Value.numbers]
  | .bool true, _, _, _, _ => by simp [write, Value.numbers]
  | .bool false, _, _, _, _ => by simp [write, Value.numbers]
  | .number (.whole n), _, _, _, _ => by simp [write, writeNumber, Value.numbers]
  | .number (.real x), _, _, hrest, hrest' => by
    have hends := append_eq_append_iff_of_stops (h.left.unmarked_render x)
      (h.right.unmarked_render x) hrest hrest'
    simpa [write, writeNumber, Value.numbers] using hends
  | .string text, _, _, _, _ => by simp [write, h.writeString_eq text, Value.numbers]
  | .array items, rest, rest', _, _ => by
    have hitems := writeItems_append_eq_iff h items rest rest'
    simpa [write, Value.numbers] using hitems
  | .object members, rest, rest', _, _ => by
    have hmembers := writeMembers_append_eq_iff h members rest rest'
    simpa [write, Value.numbers] using hmembers

/-- The same for the items of an array, which a bracket ends. -/
lemma writeItems_append_eq_iff (h : Comparable l l') : ∀ (items : List Value) (rest rest' : Text),
    (writeItems l items ++ CodePoint.ofChar ']' :: rest =
        writeItems l' items ++ CodePoint.ofChar ']' :: rest' ↔
      (∀ x, .real x ∈ Value.numbersOfItems items → l.style.render x = l'.style.render x) ∧
        rest = rest')
  | [], _, _ => by simp [writeItems, Value.numbersOfItems]
  | [item], rest, rest' => by
    have hitem := write_append_eq_iff h item (stops_cons (CodePoint.ofChar ']') rest (by decide))
      (stops_cons (CodePoint.ofChar ']') rest' (by decide))
    simpa [writeItems, Value.numbersOfItems] using hitem
  | item :: next :: items, rest, rest' => by
    have hitems := writeItems_append_eq_iff h (next :: items) rest rest'
    have hitem := write_append_eq_iff h item
      (stops_cons (CodePoint.ofChar ',')
        (writeItems l (next :: items) ++ CodePoint.ofChar ']' :: rest)
        (by decide))
      (stops_cons (CodePoint.ofChar ',')
        (writeItems l' (next :: items) ++ CodePoint.ofChar ']' :: rest')
        (by decide))
    rw [writeItems, writeItems, Value.numbersOfItems]
    simp only [List.append_assoc, List.cons_append, List.mem_append, or_imp, forall_and]
    rw [hitem, List.cons.injEq, hitems]
    tauto

/-- The same for the members of an object, which a brace ends. -/
lemma writeMembers_append_eq_iff (h : Comparable l l') :
    ∀ (members : List (Text × Value)) (rest rest' : Text),
    (writeMembers l members ++ CodePoint.ofChar '}' :: rest =
        writeMembers l' members ++ CodePoint.ofChar '}' :: rest' ↔
      (∀ x, .real x ∈ Value.numbersOfMembers members → l.style.render x = l'.style.render x) ∧
        rest = rest')
  | [], _, _ => by simp [writeMembers, Value.numbersOfMembers]
  | [(key, value)], rest, rest' => by
    have hvalue := write_append_eq_iff h value
      (stops_cons (CodePoint.ofChar '}') rest (by decide))
      (stops_cons (CodePoint.ofChar '}') rest' (by decide))
    simpa [writeMembers, h.writeString_eq key, Value.numbersOfMembers] using hvalue
  | (key, value) :: next :: members, rest, rest' => by
    have hmembers := writeMembers_append_eq_iff h (next :: members) rest rest'
    have hvalue := write_append_eq_iff h value
      (stops_cons (CodePoint.ofChar ',')
        (writeMembers l (next :: members) ++ CodePoint.ofChar '}' :: rest)
        (by decide))
      (stops_cons (CodePoint.ofChar ',')
        (writeMembers l' (next :: members) ++ CodePoint.ofChar '}' :: rest')
        (by decide))
    rw [writeMembers, writeMembers, Value.numbersOfMembers, h.writeString_eq key]
    simp only [List.append_assoc, List.cons_append, List.mem_append, or_imp, forall_and,
      List.append_cancel_left_eq, List.cons.injEq, true_and]
    rw [hvalue, List.cons.injEq, hmembers]
    tauto

end

/-- Nothing stands behind the value of a placeholder. -/
lemma write_eq_iff (h : Comparable l l') (v : Value) : write l v = write l' v ↔
    ∀ x, .real x ∈ v.numbers → l.style.render x = l'.style.render x := by
  simpa using h.write_append_eq_iff v stops_nil stops_nil

end Layout.Comparable

end Layouts

/-! ## Fast encoders -/

/-- **A fast encoder that writes the compact layout.**  This is all that is known of it. -/
structure IsCompact (encode : Value → Option Text) : Prop where
  /-- Whole numbers beyond 64 bits are refused, with all of the value they are in. -/
  refuses_whole {v : Value} {n : Int} (hn : .whole n ∈ v.numbers)
    (hwide : ¬ (-2 ^ 63 ≤ n ∧ n ≤ 2 ^ 64 - 1)) : encode v = none
  /-- So are surrogates, in strings and in keys. -/
  refuses_text {v : Value} {text : Text} {c : CodePoint} (htext : text ∈ v.texts) (hc : c ∈ text)
    (hsurrogate : c.isSurrogate) : encode v = none
  /-- So are more than 254 containers inside each other. -/
  refuses_depth {v : Value} (hdepth : 254 < v.depth) : encode v = none
  /-- Everything else is written in the compact layout. -/
  takes {v : Value} (h : ¬ v.IsRefused) : encode v = some (write .compact v)

namespace IsCompact

variable {encode : Value → Option Text} (h : IsCompact encode)

include h

lemma refuses {v : Value} (hv : v.IsRefused) : encode v = none := by
  rcases hv with ⟨n, hn, hwide⟩ | ⟨text, htext, c, hc, hsurrogate⟩ | hdepth
  · exact h.refuses_whole hn hwide
  · exact h.refuses_text htext hc hsurrogate
  · exact h.refuses_depth hdepth

lemma eq_write {v : Value} {text : Text} (hv : encode v = some text) :
    text = write .compact v := by
  by_cases hrefused : v.IsRefused
  · rw [h.refuses hrefused] at hv
    cases hv
  · rw [h.takes hrefused] at hv
    exact (Option.some.inj hv).symm

end IsCompact

/-- There is such an encoder. -/
lemma isCompact_encodeCompact : IsCompact encodeCompact := by
  have hrefuses {v : Value} (hv : v.IsRefused) : encodeCompact v = none := by
    rw [encodeCompact, v.fitsCompact_eq_false_iff.2 hv]
    rfl
  refine ⟨fun hn hwide => hrefuses (.inl ⟨_, hn, hwide⟩),
    fun htext hc hsurrogate => hrefuses (.inr (.inl ⟨_, htext, _, hc, hsurrogate⟩)),
    fun hdepth => hrefuses (.inr (.inr hdepth)), fun {v} hv => ?_⟩
  have hfits : v.fitsCompact = true := by
    rwa [← v.fitsCompact_eq_false_iff, Bool.not_eq_false] at hv
  rw [encodeCompact, if_pos hfits]

/-! ## Values in a page -/

/-- How an array or object appears. -/
lemma embed_of_isContainer {encoder : Encoder} {v : Value} (h : v.isContainer = true) :
    embed encoder v = match encoder.fast?.bind fun encode => encode v with
      | some text => .ok text
      | none => encoder.standardText v := by
  cases v <;> first | rfl | cases h

/-- Everything else appears the same whether there is a fast encoder or not. -/
lemma embed_of_not_isContainer {v : Value} (h : v.isContainer = false)
    (fast? fast?' : Option (Value → Option Text)) (room : Nat) :
    embed ⟨fast?, room⟩ v = embed ⟨fast?', room⟩ v := by
  cases v <;> first | rfl | cases h

/-- **When the encoder makes no difference.**  Suppose that the standard encoder follows whatever
the fast one follows.  Then a value appears the same in a page with the fast encoder as with the
standard one alone exactly if it is no array or object, or the fast encoder refuses it, or it holds
only doubles that both layouts write alike. -/
theorem embed_fast_eq_iff {encode : Value → Option Text} (hfast : IsCompact encode) {room : Nat}
    (hroom : 254 ≤ room) (v : Value) :
    embed ⟨some encode, room⟩ v = embed ⟨none, room⟩ v ↔
      v.isContainer = false ∨ v.IsRefused ∨ ∀ x, .real x ∈ v.numbers → IsShared x := by
  cases hv : v.isContainer with
  | false =>
    have hsame := embed_of_not_isContainer hv (some encode) none room
    exact iff_of_true hsame (.inl rfl)
  | true =>
    rw [embed_of_isContainer hv, embed_of_isContainer hv]
    by_cases hrefused : v.IsRefused
    · simp [hfast.refuses hrefused, hrefused, Encoder.standardText]
    · have hdepth : v.depth ≤ room := by
        by_contra hdeep
        exact hrefused (.inr (.inr (by omega)))
      have hshared : (∀ x, .real x ∈ v.numbers →
            Layout.compact.style.render x = Layout.standard.style.render x) ↔
          ∀ x, .real x ∈ v.numbers → IsShared x :=
        forall₂_congr fun x _ => render_eq_iff x
      have hlayouts := Layout.Comparable.compact_standard.write_eq_iff v
      simp [hfast.takes hrefused, Encoder.standardText, hdepth, hrefused, hlayouts, hshared]

/-- A double that is written in two ways, next to a number that fits. -/
def tiny : Value := .array [.number (.real 1e-7), .number (.whole 1)]

/-- Numbers that are written alike, one of them at the edge of what fits. -/
def vast : Value := .array [.number (.real 1e16), .number (.whole (2 ^ 64 - 1))]

/-- The same double next to a number that does not fit. -/
def mixed : Value := .array [.number (.real 1e-7), .number (.whole (2 ^ 64))]

/-- The encoder makes a difference to the first of these values, but not to the others. -/
theorem embed_fast_eq_iff_powers : IsCompact encodeCompact ∧ 254 ≤ usualRoom ∧
    embed ⟨some encodeCompact, usualRoom⟩ tiny ≠ embed ⟨none, usualRoom⟩ tiny ∧
    embed ⟨some encodeCompact, usualRoom⟩ vast = embed ⟨none, usualRoom⟩ vast ∧
    embed ⟨some encodeCompact, usualRoom⟩ mixed = embed ⟨none, usualRoom⟩ mixed := by
  have hroom : 254 ≤ usualRoom := by decide
  have hiff := embed_fast_eq_iff isCompact_encodeCompact hroom
  have hshared : IsShared 1e16 ∧ ¬ IsShared 1e-7 := by
    rw [← render_eq_iff, ← render_eq_iff]
    decide +kernel
  refine ⟨isCompact_encodeCompact, hroom, (hiff tiny).not.2 ?_, (hiff vast).2 ?_,
    (hiff mixed).2 ?_⟩
  · rintro (hcontainer | hrefused | hall)
    · cases hcontainer
    · have hfits : tiny.fitsCompact = true := by decide
      rw [← Value.fitsCompact_eq_false_iff, hfits] at hrefused
      cases hrefused
    · exact hshared.2 (hall 1e-7 (by simp [tiny, Value.numbers, Value.numbersOfItems]))
  · refine .inr (.inr fun x hx => ?_)
    obtain rfl : x = 1e16 := by
      simpa [vast, Value.numbers, Value.numbersOfItems] using hx
    exact hshared.1
  · exact .inr (.inl (mixed.fitsCompact_eq_false_iff.1 (by decide)))

end Json

end OnePage
