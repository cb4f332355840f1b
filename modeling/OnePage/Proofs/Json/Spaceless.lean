import OnePage.Proofs.Json.Parts

/-!
# No space is written

Space may stand between the parts of a JSON text and makes no difference there; in a string it is
part of the value.

* `outside` — what is in none of the strings of a text.
* `IsTight` — a text that brings no space with it outside of strings, whatever is behind it.
* **`Layout.IsSpaceless.isTight_write`** — whatever the layouts of a page write is such a text.
-/

namespace OnePage

namespace Json

open Decimal (Style)

/-! ## No space -/

/-- **What is outside of the strings** of a JSON text; `quoted` tells whether the text begins inside
of one. -/
def outside : (quoted : Bool) → Text → Text
  | _, [] => []
  | false, c :: text =>
    if c = CodePoint.ofChar '"' then outside true text else c :: outside false text
  | true, [_] => []
  | true, c :: d :: text =>
    if c = CodePoint.ofChar '"' then outside false (d :: text)
    else if c = CodePoint.ofChar '\\' then outside true text
    else outside true (d :: text)

lemma outside_quote (quoted : Bool) (text : Text) :
    outside quoted (CodePoint.ofChar '"' :: text) = outside (!quoted) text := by
  cases quoted with
  | false => rw [outside, if_pos rfl]; rfl
  | true =>
    cases text with
    | nil => rfl
    | cons d text => rw [outside, if_pos rfl]; rfl

lemma outside_escape (e : CodePoint) (text : Text) :
    outside true (CodePoint.ofChar '\\' :: e :: text) = outside true text := by
  rw [outside, if_neg (by decide), if_pos rfl]

lemma outside_plain {c : CodePoint} (hquote : c ≠ CodePoint.ofChar '"')
    (hescape : c ≠ CodePoint.ofChar '\\') (text : Text) :
    outside true (c :: text) = outside true text := by
  cases text with
  | nil => rfl
  | cons d text => rw [outside, if_neg hquote, if_neg hescape]

/-- A code point inside of a string stays inside however it is written. -/
lemma outside_writeCodePoint {layout : Layout} (hlayout : layout.asciiOnly = false)
    (c : CodePoint) (text : Text) :
    outside true (writeCodePoint layout c ++ text) = outside true text := by
  rcases writeCodePoint_cases hlayout c with
    ⟨e, -, -, hwrite⟩ | ⟨hcontrol, hwrite⟩ | ⟨hquote, hescape, -, hwrite⟩
  · rw [hwrite]
    exact outside_escape e text
  · have hhex : ∀ n < 0x20, ∀ d ∈ Numeral.hex 4 n,
        d ≠ CodePoint.ofChar '"' ∧ d ≠ CodePoint.ofChar '\\' := by decide
    have hplain (digits : Text) (h : ∀ d ∈ digits,
        d ≠ CodePoint.ofChar '"' ∧ d ≠ CodePoint.ofChar '\\') :
        outside true (digits ++ text) = outside true text := by
      induction digits with
      | nil => rfl
      | cons d digits ih =>
        rw [List.forall_mem_cons] at h
        rw [List.cons_append, outside_plain h.1.1 h.1.2, ih h.2]
    have hescape : unitEscape c.value ++ text = CodePoint.ofChar '\\' :: CodePoint.ofChar 'u' ::
        (Numeral.hex 4 c.value ++ text) := rfl
    rw [hwrite, hescape, outside_escape, hplain _ (hhex _ hcontrol)]
  · rw [hwrite]
    exact outside_plain hquote hescape text

/-- A code point may stand outside of strings, and is no space. -/
def IsBare (c : CodePoint) : Prop := c ≠ CodePoint.ofChar '"' ∧ isSpace c = false

instance (c : CodePoint) : Decidable (IsBare c) := inferInstanceAs (Decidable (_ ∧ _))

lemma isBare_of_isDigit {c : CodePoint} (h : c.isDigit) : IsBare c := by
  constructor
  · rintro rfl
    revert h
    decide
  · have hspaces : ∀ c ∈ Text.ofString " \t\n\r", ¬ c.isDigit := by decide
    rw [Bool.eq_false_iff]
    intro hspace
    simp only [isSpace, Bool.or_eq_true, decide_eq_true_eq] at hspace
    rcases hspace with ((rfl | rfl) | rfl) | rfl <;> exact hspaces _ (by decide) h

/-- **A text that brings no space with it** outside of strings. -/
def IsTight (text : Text) : Prop :=
  ∀ rest, (∀ c ∈ outside false rest, isSpace c = false) →
    ∀ c ∈ outside false (text ++ rest), isSpace c = false

lemma IsTight.append {s t : Text} (hs : IsTight s) (ht : IsTight t) : IsTight (s ++ t) := by
  intro rest hrest
  rw [List.append_assoc]
  exact hs _ (ht rest hrest)

lemma isTight_of_forall_isBare {text : Text} (h : ∀ c ∈ text, IsBare c) : IsTight text := by
  induction text with
  | nil => exact fun rest hrest => hrest
  | cons c text ih =>
    rw [List.forall_mem_cons] at h
    intro rest hrest
    rw [List.cons_append, outside, if_neg h.1.1]
    exact List.forall_mem_cons.2 ⟨h.1.2, ih h.2 rest hrest⟩

lemma isTight_cons {c : CodePoint} {text : Text} (hc : IsBare c) (h : IsTight text) :
    IsTight (c :: text) := by
  have hsingle : IsTight [c] := isTight_of_forall_isBare (by simpa using hc)
  exact hsingle.append h

/-- A string is tight, whatever is in it. -/
lemma isTight_writeString {layout : Layout} (hlayout : layout.asciiOnly = false) (text : Text) :
    IsTight (writeString layout text) := by
  intro rest hrest
  have hinside : outside true (text.flatMap (writeCodePoint layout) ++
      CodePoint.ofChar '"' :: rest) = outside false rest := by
    induction text with
    | nil => exact outside_quote true rest
    | cons c text ih =>
      rw [List.flatMap_cons, List.append_assoc, outside_writeCodePoint hlayout, ih]
  have hwrite : writeString layout text ++ rest = CodePoint.ofChar '"' ::
      (text.flatMap (writeCodePoint layout) ++ CodePoint.ofChar '"' :: rest) := by
    simp [writeString]
  rw [hwrite, outside_quote, Bool.not_false, hinside]
  exact hrest

/-- **A layout that writes no space**, and does not escape what lies beyond ASCII. -/
structure Layout.IsSpaceless (layout : Layout) : Prop where
  /-- Only what has to be escaped is. -/
  asciiOnly : layout.asciiOnly = false
  /-- No double is written with space. -/
  isBare_render : ∀ x, ∀ c ∈ layout.style.render x, IsBare c

namespace Layout.IsSpaceless

variable {layout : Layout}

lemma of_words (hlayout : layout.asciiOnly = false)
    (hwords : ∀ word ∈ [layout.style.nan, layout.style.infinity, layout.style.negativeInfinity],
      ∀ c ∈ word, IsBare c) : layout.IsSpaceless := by
  refine ⟨hlayout, fun x c hc => ?_⟩
  rcases Style.mem_render hc with (hdigit | hmark) | hword | hword | hword
  · exact isBare_of_isDigit hdigit
  · have hmarks : ∀ c ∈ Text.ofString ".e+-", IsBare c := by decide
    exact hmarks c hmark
  · exact hwords _ (by simp) c hword
  · exact hwords _ (by simp) c hword
  · exact hwords _ (by simp) c hword

lemma compact : IsSpaceless .compact := of_words rfl (by decide)

lemma standard : IsSpaceless .standard := of_words rfl (by decide)

lemma isBare_writeNumber (h : layout.IsSpaceless) :
    ∀ n, ∀ c ∈ writeNumber layout n, IsBare c
  | .whole (.ofNat n), c, hc => isBare_of_isDigit (Numeral.isDigit_of_mem_ofNat hc)
  | .whole (.negSucc n), c, hc => by
    rcases List.mem_cons.1 hc with rfl | hc
    · decide
    · exact isBare_of_isDigit (Numeral.isDigit_of_mem_ofNat hc)
  | .real x, c, hc => h.isBare_render x c hc

mutual

/-- **Nothing that is written brings space with it.** -/
lemma isTight_write (h : layout.IsSpaceless) : ∀ v : Value, IsTight (write layout v)
  | .null => isTight_of_forall_isBare (by rw [write]; decide)
  | .bool true => isTight_of_forall_isBare (by rw [write]; decide)
  | .bool false => isTight_of_forall_isBare (by rw [write]; decide)
  | .number n => isTight_of_forall_isBare (by rw [write]; exact h.isBare_writeNumber n)
  | .string text => by
    rw [write]
    exact isTight_writeString h.asciiOnly text
  | .array items => by
    rw [write]
    exact isTight_cons (by decide) ((isTight_writeItems h items).append
      (isTight_of_forall_isBare (by decide)))
  | .object members => by
    rw [write]
    exact isTight_cons (by decide) ((isTight_writeMembers h members).append
      (isTight_of_forall_isBare (by decide)))

lemma isTight_writeItems (h : layout.IsSpaceless) :
    ∀ items : List Value, IsTight (writeItems layout items)
  | [] => isTight_of_forall_isBare (by simp [writeItems])
  | [item] => isTight_write h item
  | item :: next :: items => by
    rw [writeItems]
    exact (isTight_write h item).append
      (isTight_cons (by decide) (isTight_writeItems h (next :: items)))

lemma isTight_writeMembers (h : layout.IsSpaceless) :
    ∀ members : List (Text × Value), IsTight (writeMembers layout members)
  | [] => isTight_of_forall_isBare (by simp [writeMembers])
  | [(key, value)] => by
    rw [writeMembers]
    exact (isTight_writeString h.asciiOnly key).append
      (isTight_cons (by decide) (isTight_write h value))
  | (key, value) :: next :: members => by
    rw [writeMembers]
    exact ((isTight_writeString h.asciiOnly key).append
      (isTight_cons (by decide) (isTight_write h value))).append
        (isTight_cons (by decide) (isTight_writeMembers h (next :: members)))

end

end Layout.IsSpaceless

end Json

end OnePage
