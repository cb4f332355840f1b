import OnePage.Proofs.Decimal.ReadBack

/-!
# Doubles as they are written and read

Whatever its style, a double is written as a decimal from which the chosen digits and their power of
ten can be read off again.

* `Written` — decimals with a point or an exponent, which is how doubles are told from whole
  numbers; `Written.text` and `Written.toFloat` are how one is written and what it is read as.
* `exists_written_layOut` — every layout of digits is a decimal that stands for these digits, with
  no more than some zeros in front of them or behind.
* `IsFinite` — a double is a number.
* **`exists_written_render`** — every such double is written as a decimal that is read as this
  double.
-/

namespace OnePage

namespace Decimal

open Numeral (zero)

/-- A text with a minus sign in front of it, or without one. -/
def signed (negative : Bool) (text : Text) : Text := if negative then "-" ++ text else text

/-! ## Decimals -/

/-- **A decimal** as it is written. -/
structure Written where
  /-- The digits in front of the point. -/
  whole : Text
  /-- The digits behind it; without any there is no point. -/
  fraction : Text
  /-- The sign and the digits of the power of ten, if one is given. -/
  power : Option (Bool × Text)
  /-- There is a digit in front of the point, and no zero before another digit. -/
  isCanonical_whole : Numeral.isCanonical whole
  /-- Only digits are behind the point. -/
  isDigit_fraction : ∀ c ∈ fraction, c.isDigit
  /-- A power is a number. -/
  isDigit_power : ∀ negative digits, power = some (negative, digits) →
    digits ≠ [] ∧ ∀ c ∈ digits, c.isDigit
  /-- There is something that whole numbers do not have. -/
  isReal : fraction ≠ [] ∨ power ≠ none

namespace Written

/-- The point and the digits behind it. -/
def point (w : Written) : Text := if w.fraction = [] then [] else "." ++ w.fraction

/-- The power of ten behind its letter. -/
def scale (w : Written) : Text :=
  match w.power with
  | none => []
  | some (negative, digits) => (if negative then "e-" else "e+" : Text) ++ digits

/-- How the decimal is written. -/
def text (w : Written) : Text := w.whole ++ (w.point ++ w.scale)

/-- The power of ten. -/
def exponent (w : Written) : Int :=
  match w.power with
  | none => 0
  | some (negative, digits) => if negative then -Numeral.value digits else Numeral.value digits

/-- What the decimal is read as. -/
def toFloat (w : Written) : Float := ofDigits w.whole w.fraction w.exponent

end Written

/-- Zeros in front of the digits do not count. -/
lemma ofScaledDigits_zeros_append (n : Nat) (digits : Text) (exponent : Int) :
    ofScaledDigits (List.replicate n zero ++ digits) exponent = ofScaledDigits digits exponent := by
  have hdrop : (List.replicate n zero ++ digits).dropWhile (· = zero) =
      digits.dropWhile (· = zero) :=
    List.dropWhile_append_of_pos (by simp)
  rw [ofScaledDigits, ofScaledDigits, hdrop]

/-! ## The notations -/

namespace Scientific.IsProper

variable {s : Scientific} (hs : s.IsProper)

include hs

/-- Positional notation of a small number: the digits have zeros in front of them. -/
lemma exists_written_positional_of_neg (hneg : s.exponent < 0) :
    ∃ w : Written, s.positional = w.text ∧ w.toFloat = s.toFloat 0 := by
  obtain ⟨first, rest, hcons, -⟩ := hs.exists_cons
  set n := (-s.exponent).toNat - 1 with hn
  have hfraction : List.replicate n zero ++ s.digits ≠ [] := by simp [hcons]
  refine ⟨⟨[zero], List.replicate n zero ++ s.digits, none, by decide, ?_, by simp, .inl hfraction⟩,
    ?_, ?_⟩
  · intro c hc
    rcases List.mem_append.1 hc with hc | hc
    · exact isDigit_of_mem_zeros hc
    · exact hs.isDigit c hc
  · have hpoint : Text.ofString "0." = [zero] ++ Text.ofString "." := rfl
    simp only [positional, if_pos hneg, Written.text, Written.point, Written.scale,
      if_neg hfraction, hpoint, ← hn, List.append_assoc, List.append_nil]
  · have hexponent : (0 : Int) - (List.replicate n zero ++ s.digits).length =
        s.exponent + 1 - s.digits.length - (0 : Nat) := by
      simp only [List.length_append, List.length_replicate]
      omega
    have hzeros := ofScaledDigits_zeros_append (n + 1) s.digits
    rw [List.replicate_succ, List.cons_append] at hzeros
    simp only [Written.toFloat, Written.exponent, ofDigits, hexponent, Scientific.toFloat]
    rw [List.singleton_append, hzeros, List.replicate_zero, List.append_nil]

/-- Positional notation of a number that is not small: the digits may have zeros behind them. -/
lemma exists_written_positional_of_nonneg (hlow : 0 ≤ s.exponent) :
    ∃ w : Written, s.positional = w.text ∧ ∃ zeros, w.toFloat = s.toFloat zeros := by
  obtain ⟨first, rest, hcons, hfirst⟩ := hs.exists_cons
  have hlength : 0 < s.digits.length := by simp [hcons]
  set whole := s.exponent.toNat + 1 with hwhole
  set padded := s.digits ++ List.replicate (whole - s.digits.length) zero with hpadded
  have hdigits : ∀ c ∈ padded, c.isDigit := by
    intro c hc
    rcases List.mem_append.1 hc with hc | hc
    · exact hs.isDigit c hc
    · exact isDigit_of_mem_zeros hc
  have hcanonical : Numeral.isCanonical (padded.take whole) := by
    have htake : padded.take whole = first :: (padded.tail.take s.exponent.toNat) := by
      rw [hpadded, hcons, hwhole]
      rfl
    refine Numeral.isCanonical_eq_true_iff.2
      ⟨by simp [htake], fun c hc => hdigits c (List.mem_of_mem_take hc), fun hhead => ?_⟩
    rw [htake] at hhead
    exact absurd (Option.some.inj hhead) hfirst
  set fraction := if (padded.drop whole).isEmpty then List.replicate 1 zero else padded.drop whole
    with hfraction
  have hne : fraction ≠ [] := by
    rw [hfraction]
    split
    · simp
    · next hdrop => simpa using hdrop
  refine ⟨⟨padded.take whole, fraction, none, hcanonical, ?_, by simp, .inl hne⟩, ?_, ?_⟩
  · intro c hc
    rw [hfraction] at hc
    split at hc
    · exact isDigit_of_mem_zeros hc
    · exact hdigits c (List.mem_of_mem_drop hc)
  · simp only [positional, if_neg (not_lt.2 hlow), Written.text, Written.point, Written.scale,
      if_neg hne, ← hwhole, ← hpadded, List.append_assoc, List.append_nil]
    rfl
  · by_cases hshort : s.digits.length ≤ whole
    · -- the number is whole, and a zero stands behind the point
      refine ⟨whole - s.digits.length + 1, ?_⟩
      have hfull : padded.length = whole := by simp [hpadded]; omega
      have hzero : fraction = [zero] := by
        rw [hfraction, List.drop_of_length_le hfull.le]
        rfl
      have hbehind : padded ++ [zero] =
          s.digits ++ List.replicate (whole - s.digits.length + 1) zero := by
        rw [hpadded, List.append_assoc, List.replicate_succ']
      have hexponent : (0 : Int) - ([zero] : Text).length =
          s.exponent + 1 - s.digits.length - (whole - s.digits.length + 1 : Nat) := by
        simp only [List.length_singleton]
        omega
      simp only [Written.toFloat, Written.exponent, ofDigits, hzero, hexponent, Scientific.toFloat,
        List.take_of_length_le hfull.le, hbehind]
    · refine ⟨0, ?_⟩
      have hbare : padded = s.digits := by
        rw [hpadded, Nat.sub_eq_zero_of_le (by omega), List.replicate_zero, List.append_nil]
      have hdrop : fraction = s.digits.drop whole := by
        have hleft : ¬ (s.digits.drop whole).isEmpty := by simp; omega
        rw [hfraction, hbare, if_neg hleft]
      have hexponent : (0 : Int) - (s.digits.drop whole).length =
          s.exponent + 1 - s.digits.length - (0 : Nat) := by
        rw [List.length_drop]
        omega
      simp only [Written.toFloat, Written.exponent, ofDigits, hbare, hdrop, hexponent,
        Scientific.toFloat, List.take_append_drop, List.replicate_zero, List.append_nil]

/-- Exponential notation has no zeros beside the digits. -/
lemma exists_written_exponential (places : Nat) :
    ∃ w : Written, s.exponential places = w.text ∧ w.toFloat = s.toFloat 0 := by
  obtain ⟨first, rest, hcons, hfirst⟩ := hs.exists_cons
  have hdigit : first.isDigit := hs.isDigit first (by simp [hcons])
  have hcanonical : Numeral.isCanonical [first] :=
    Numeral.isCanonical_eq_true_iff.2 ⟨by simp, by simpa using hdigit, by simp [hfirst]⟩
  set numeral := Numeral.ofNat s.exponent.natAbs with hnumeral
  set padding : Text := if s.exponent < 0 then
    List.replicate (places - numeral.length) zero else [] with hpadding
  have hpower : padding ++ numeral ≠ [] :=
    List.append_ne_nil_of_right_ne_nil _ (Numeral.ofNat_ne_nil _)
  have hpadded : ∀ c ∈ padding ++ numeral, c.isDigit := by
    intro c hc
    rcases List.mem_append.1 hc with hc | hc
    · rw [hpadding] at hc
      split at hc
      · exact isDigit_of_mem_zeros hc
      · simp at hc
    · exact Numeral.isDigit_of_mem_ofNat hc
  have hvalue : Numeral.value (padding ++ numeral) = s.exponent.natAbs := by
    rw [hpadding]
    split
    · rw [Numeral.value_zeros_append, Numeral.value_ofNat]
    · exact Numeral.value_ofNat _
  refine ⟨⟨[first], rest, some (decide (s.exponent < 0), padding ++ numeral), hcanonical,
    fun c hc => hs.isDigit c (by simp [hcons, hc]), ?_, .inr (by simp)⟩, ?_, ?_⟩
  · rintro negative digits hdigits
    obtain ⟨-, rfl⟩ := Prod.mk.inj (Option.some.inj hdigits)
    exact ⟨hpower, hpadded⟩
  · have hmantissa : s.mantissa =
        [first] ++ (if rest = [] then [] else Text.ofString "." ++ rest) := by
      rw [mantissa, hcons]
      cases rest <;> rfl
    rw [exponential_eq, hmantissa]
    simp only [Written.text, Written.point, Written.scale, hpadding, ← hnumeral]
    split <;> simp [*]
  · have hexponent : (if decide (s.exponent < 0) then -(s.exponent.natAbs : Int)
        else s.exponent.natAbs) - rest.length = s.exponent + 1 - s.digits.length - (0 : Nat) := by
      simp only [hcons, List.length_cons, decide_eq_true_eq]
      split <;> omega
    simp only [Written.toFloat, Written.exponent, ofDigits, Scientific.toFloat, hvalue, hexponent,
      List.replicate_zero, List.append_nil, hcons, List.singleton_append]

/-- **Every layout of digits is a decimal** that is read as these digits are, maybe with zeros
behind them. -/
lemma exists_written_layOut (style : Style) : ∃ w : Written,
    style.layOut s = w.text ∧ ∃ zeros, w.toFloat = s.toFloat zeros := by
  rw [Style.layOut]
  split
  · by_cases hneg : s.exponent < 0
    · obtain ⟨w, htext, hfloat⟩ := hs.exists_written_positional_of_neg hneg
      exact ⟨w, htext, 0, hfloat⟩
    · exact hs.exists_written_positional_of_nonneg (not_lt.1 hneg)
  · obtain ⟨w, htext, hfloat⟩ := hs.exists_written_exponential style.negativePlaces
    exact ⟨w, htext, 0, hfloat⟩

end Scientific.IsProper

/-! ## Doubles -/

/-- A double is neither infinite nor something other than a number. -/
def IsFinite (x : Float) : Prop :=
  ∃ negative significand exponent, Exact.ofFloat x = .finite negative significand exponent

/-- There are two zeros. -/
lemma eq_zero_of_ofFloat {x : Float} {negative : Bool} {exponent : Int}
    (h : Exact.ofFloat x = .finite negative 0 exponent) : x = signedFloat negative 0.0 := by
  have hlimits : fractionLimit = 4503599627370496 ∧ scaleLimit = 2048 := by decide
  have hzeros : (0.0 : Float).toBits = 0 ∧ (-0.0 : Float).toBits = 0x8000000000000000 := by
    decide +kernel
  have hbound := x.toBits.toNat_lt
  simp only [Exact.ofFloat, hlimits] at h
  split_ifs at h with hspecial hfraction hscale
  · obtain ⟨hsign, hfraction, -⟩ := (Exact.finite.injEq ..).mp h
    apply eq_of_toBits_eq
    rw [← UInt64.toNat_inj, signedFloat]
    cases negative with
    | false =>
      have hsign' := of_decide_eq_false hsign
      rw [if_neg (by simp), hzeros.1]
      have hnone : (0 : UInt64).toNat = 0 := rfl
      omega
    | true =>
      have hsign' := of_decide_eq_true hsign
      rw [if_pos rfl, hzeros.2]
      have hbit : (0x8000000000000000 : UInt64).toNat = 0x8000000000000000 := rfl
      omega
  · obtain ⟨-, hfraction, -⟩ := (Exact.finite.injEq ..).mp h
    omega

/-- **A double is written as a decimal that is read as this double.** -/
lemma exists_written_render {x : Float} (hfinite : IsFinite x) (style : Style) :
    ∃ (negative : Bool) (w : Written),
      style.render x = signed negative w.text ∧ signedFloat negative w.toFloat = x := by
  obtain ⟨negative, significand, exponent, hexact⟩ := hfinite
  by_cases hzero : significand = 0
  · subst hzero
    refine ⟨negative, ⟨[zero], [zero], none, by decide, by decide, by simp, by simp⟩, ?_, ?_⟩
    · rw [Style.render, hexact]
      rfl
    · exact (eq_zero_of_ofFloat hexact).symm
  · obtain ⟨w, htext, zeros, hfloat⟩ :=
      (isProper_shortest hzero exponent).exists_written_layOut style
    refine ⟨negative, w, ?_, ?_⟩
    · rw [Style.render, hexact, ← htext]
      simp only [if_neg hzero]
      rfl
    · rw [hfloat]
      exact signedFloat_toFloat_shortest hexact hzero zeros

end Decimal

end OnePage
