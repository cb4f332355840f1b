import OnePage.Decimal.Literal
import OnePage.Proofs.Decimal.Digits
import OnePage.Proofs.Decimal.Double

/-!
# Digits are read as the double they were chosen for

* `ofScientific_eq` and `float_ofScientific_eq` — a decimal is read as the double in whose interval
  it is, whichever way it is computed.
* `Scientific.toFloat` — what digits are read as, and `Scientific.toFloat_of`, that they stand for
  the number that they are the digits of.
* `exists_contains_shortest` — this number is in the interval of the double.
* **`signedFloat_toFloat_shortest`** — so the digits of a double are read as this double.
-/

namespace OnePage

namespace Decimal

open Float.Model (Format UnpackedFloat)
open Numeral (zero)

/-! ## Decimals -/

variable {significand digits : ℕ} {exponent power : ℤ}

/-- What is rounded to a double is not too small and not too large. -/
lemma IsCanonical.bounds (h : IsCanonical significand exponent) {x : ℚ}
    (hx : (Interval.of significand exponent).Contains x) :
    (2 : ℚ) ^ (-1075 : ℤ) ≤ x ∧ x < 2 ^ (1024 : ℤ) := by
  have hpos : (1 : ℚ) ≤ significand := by exact_mod_cast h.pos
  have hleast : (2 : ℚ) ^ (-1074 : ℤ) ≤ 2 ^ exponent := zpow_le_zpow_right₀ (by norm_num) h.least
  have hmost := h.most
  constructor
  · calc (2 : ℚ) ^ (-1075 : ℤ) = 1 / 2 * 2 ^ (-1074 : ℤ) := by
          rw [one_div, mul_comm, ← zpow_sub_one₀ (by norm_num)]
          norm_num
      _ ≤ 1 / 2 * 2 ^ exponent := by gcongr
      _ ≤ (significand - 1 / 2) * 2 ^ exponent := by
          gcongr
          linarith
      _ ≤ x := (hx.between h.pos).1
  · exact (h.lt_zpow hx).trans_le (zpow_le_zpow_right₀ (by norm_num) (by omega))

lemma ten_zpow_eq (power : ℤ) : (10 : ℚ) ^ power = 2 ^ power * 5 ^ power := by
  rw [← mul_zpow]
  norm_num

section Nearest

variable (h : IsCanonical significand exponent) (hpos : 0 < digits)
  (hx : (Interval.of significand exponent).Contains (digits * 10 ^ power))

include h hpos hx

/-- The power of ten is not so large that it would not be computed. -/
lemma power_le : power ≤ 2 ^ 11 := by
  by_contra hlarge
  have hmore : (2 : ℚ) ^ power ≤ digits * 10 ^ power :=
    calc (2 : ℚ) ^ power ≤ 2 ^ power * 5 ^ power :=
          le_mul_of_one_le_right (by positivity) (one_le_zpow₀ (by norm_num) (by omega))
      _ = 1 * 10 ^ power := by rw [ten_zpow_eq, one_mul]
      _ ≤ digits * 10 ^ power := by
          gcongr
          exact_mod_cast hpos
  have hless : power < 1024 :=
    (zpow_lt_zpow_iff_right₀ one_lt_two).1 (hmore.trans_lt (h.bounds hx).2)
  omega

omit hpos in
/-- Nor is it so small. -/
lemma le_power : -(2 ^ 11 + digits.log2) ≤ power := by
  by_contra hsmall
  have hless : (digits : ℚ) * 10 ^ power < 2 ^ (digits.log2 + 1 + power : ℤ) :=
    calc (digits : ℚ) * 10 ^ power < 2 ^ (digits.log2 + 1) * 10 ^ power := by
          gcongr
          exact_mod_cast Nat.lt_log2_self
      _ ≤ 2 ^ (digits.log2 + 1) * 2 ^ power := by
          gcongr
          rw [ten_zpow_eq]
          exact mul_le_of_le_one_right (by positivity)
            (zpow_le_one_of_nonpos₀ (by norm_num) (by omega))
      _ = 2 ^ (digits.log2 + 1 + power : ℤ) := by
          rw [zpow_add₀ (by norm_num)]
          norm_cast
  have hmore : -1075 < (digits.log2 + 1 + power : ℤ) :=
    (zpow_lt_zpow_iff_right₀ one_lt_two).1 ((h.bounds hx).1.trans_lt hless)
  omega

/-- The long way to a decimal, by one product or one quotient of any numbers. -/
lemma ofScientific_eq : UnpackedFloat.ofScientific Format.binary64 digits power =
    .finite .positive significand exponent h.pos := by
  rw [UnpackedFloat.ofScientific, dif_neg hpos.ne', if_neg (power_le h hpos hx).not_gt,
    if_neg (le_power h hx).not_gt]
  split
  · next hnonneg =>
    have hpower : ((10 ^ power.toNat : ℕ) : ℚ) = 10 ^ power := by
      rw [Nat.cast_pow, ← zpow_natCast, Int.toNat_of_nonneg hnonneg]
      norm_num
    have hshift : ((digits <<< 53 : ℕ) : ℚ) * 2 ^ (-53 : ℤ) = digits := by
      rw [Nat.shiftLeft_eq, zpow_neg]
      push_cast
      exact mul_inv_cancel_right₀ (by norm_num) _
    have hcontains : (Interval.of significand exponent).Contains
        ((digits <<< 53 : ℕ) * 2 ^ (-53 : ℤ) * ((10 ^ power.toNat : ℕ) * 2 ^ (0 : ℤ))) := by
      rw [hshift, hpower, zpow_zero, mul_one]
      exact hx
    have hbits : 2 ^ 52 ≤ digits <<< 53 * 10 ^ power.toNat := by
      rw [Nat.shiftLeft_eq]
      exact le_trans (by omega) (Nat.le_mul_of_pos_right _ (by positivity))
    exact h.mul_eq hbits hcontains .positive .positive
  · next hneg =>
    have hpower : ((10 ^ (-power).toNat : ℕ) : ℚ) = (10 ^ power)⁻¹ := by
      rw [Nat.cast_pow, ← zpow_natCast, Int.toNat_of_nonneg (by omega), zpow_neg]
      norm_num
    have hcontains : (Interval.of significand exponent).Contains
        (digits * 2 ^ (0 : ℤ) / ((10 ^ (-power).toNat : ℕ) * 2 ^ (0 : ℤ))) := by
      rw [hpower, zpow_zero, mul_one, mul_one, div_inv_eq_mul]
      exact hx
    exact h.div_eq hcontains .positive .positive

/-- **A decimal is read as the double in whose interval it is**, the long way or, if it is short, by
one product or one quotient of doubles. -/
lemma float_ofScientific_eq :
    Float.ofScientific digits (power < 0) power.natAbs = double .positive h := by
  rw [Float.ofScientific]
  split
  · next hshort =>
    have hwhole := isExactly_whole hpos hshort.1
    have hpower : IsExactly _ (10 ^ power.natAbs : ℕ) :=
      isExactly_power (Nat.lt_succ_of_le hshort.2)
    by_cases hneg : power < 0
    · have hquotient : (digits : ℚ) / (10 ^ power.natAbs : ℕ) = digits * 10 ^ power := by
        rw [Nat.cast_pow, ← zpow_natCast, Int.ofNat_natAbs_of_nonpos hneg.le, zpow_neg,
          div_inv_eq_mul]
        norm_cast
      simp only [hneg, decide_true, if_true]
      exact div_eq_double hwhole hpower h (hquotient ▸ hx)
    · have hproduct : (digits : ℚ) * (10 ^ power.natAbs : ℕ) = digits * 10 ^ power := by
        rw [Nat.cast_pow, ← zpow_natCast, Int.natAbs_of_nonneg (not_lt.1 hneg)]
        norm_cast
      simp only [hneg, decide_false]
      exact mul_eq_double hwhole hpower h (hproduct ▸ hx)
  · have hsigned : (if power < 0 then Int.negOfNat power.natAbs else Int.ofNat power.natAbs) =
        power := by
      split
      · rw [Int.negOfNat_eq, Int.ofNat_eq_natCast]
        omega
      · rw [Int.ofNat_eq_natCast]
        omega
    simp only [decide_eq_true_eq, hsigned]
    exact congrArg (fun unpacked => Float.ofModel (.pack unpacked))
      (ofScientific_eq h hpos hx)

end Nearest

/-! ## Digits -/

lemma two_zpow_le_ten_zpow : (2 : ℚ) ^ (1200 : ℤ) ≤ 10 ^ (400 : ℤ) :=
  calc (2 : ℚ) ^ (1200 : ℤ) = (2 ^ (3 : ℤ)) ^ (400 : ℤ) := zpow_mul 2 3 400
    _ ≤ 10 ^ (400 : ℤ) := zpow_le_zpow_left₀ (by norm_num) (by norm_num) (by norm_num)

section Places

variable {text rest : Text} {first : CodePoint} (h : IsCanonical significand exponent)
  (hdigits : ∀ c ∈ text, c.isDigit) (htext : text = first :: rest) (hfirst : first ≠ zero)
  (hx : (Interval.of significand exponent).Contains (Numeral.value text * 10 ^ power))

include h hdigits hx

/-- Digits that are rounded to a double do not begin too far behind the point. -/
lemma le_places : -400 ≤ text.length + power := by
  by_contra hplaces
  have hvalue : (Numeral.value text : ℚ) < 10 ^ text.length := by
    exact_mod_cast Numeral.value_lt hdigits
  have hless : (Numeral.value text : ℚ) * 10 ^ power < 2 ^ (-1075 : ℤ) :=
    calc (Numeral.value text : ℚ) * 10 ^ power < 10 ^ text.length * 10 ^ power := by gcongr
      _ = 10 ^ (text.length + power : ℤ) := by rw [zpow_add₀ (by norm_num), zpow_natCast]
      _ ≤ 10 ^ (-400 : ℤ) := zpow_le_zpow_right₀ (by norm_num) (by omega)
      _ ≤ 2 ^ (-1200 : ℤ) := by
          rw [zpow_neg, zpow_neg]
          exact inv_anti₀ (by positivity) two_zpow_le_ten_zpow
      _ ≤ 2 ^ (-1075 : ℤ) := zpow_le_zpow_right₀ (by norm_num) (by norm_num)
  exact absurd (h.bounds hx).1 hless.not_ge

include htext hfirst

/-- Nor too far in front of it. -/
lemma places_le : text.length + power ≤ 400 := by
  by_contra hplaces
  have hvalue : (10 : ℚ) ^ text.length ≤ 10 * Numeral.value text := by
    exact_mod_cast Numeral.pow_le_value hdigits htext hfirst
  have hmore : 2 ^ (1024 : ℤ) * 10 ≤ (Numeral.value text * 10 ^ power * 10 : ℚ) :=
    calc (2 : ℚ) ^ (1024 : ℤ) * 10 ≤ 2 ^ (1024 : ℤ) * 2 ^ (4 : ℤ) := by
          gcongr
          norm_num
      _ = 2 ^ (1028 : ℤ) := by
          rw [← zpow_add₀ (by norm_num)]
          norm_num
      _ ≤ 2 ^ (1200 : ℤ) := zpow_le_zpow_right₀ (by norm_num) (by norm_num)
      _ ≤ 10 ^ (400 : ℤ) := two_zpow_le_ten_zpow
      _ ≤ 10 ^ (text.length + power : ℤ) := zpow_le_zpow_right₀ (by norm_num) (by omega)
      _ = 10 ^ text.length * 10 ^ power := by rw [zpow_add₀ (by norm_num), zpow_natCast]
      _ ≤ 10 * Numeral.value text * 10 ^ power := by gcongr
      _ = Numeral.value text * 10 ^ power * 10 := by ring
  exact absurd (h.bounds hx).2 (le_of_mul_le_mul_right hmore (by norm_num)).not_gt

/-- Digits are read as the double in whose interval their number is. -/
lemma ofScaledDigits_eq : ofScaledDigits text power = double .positive h := by
  have hbare : text.dropWhile (· = CodePoint.ofChar '0') = text := by
    rw [htext, List.dropWhile_cons_of_neg (by simpa using hfirst)]
  have hne : text.isEmpty = false := by rw [htext, List.isEmpty_cons]
  have hpos : 0 < Numeral.value text := by
    have hten := Numeral.pow_le_value hdigits htext hfirst
    have hone : 0 < 10 ^ text.length := by positivity
    omega
  have hlow := le_places h hdigits hx
  rw [ofScaledDigits]
  simp only [hbare, hne]
  rw [if_neg (by simpa using hlow), if_neg (places_le h hdigits htext hfirst hx).not_gt]
  exact float_ofScientific_eq h hpos hx

end Places

/-- **What digits are read as**, with a number of zeros behind them and the power of ten lowered
accordingly. -/
def Scientific.toFloat (s : Scientific) (zeros : Nat) : Float :=
  ofScaledDigits (s.digits ++ List.replicate zeros zero)
    (s.exponent + 1 - s.digits.length - zeros)

/-- The digits of a number are read as the double in whose interval the number is. -/
lemma Scientific.toFloat_of (h : IsCanonical significand exponent) {n : ℕ} (hn : 0 < n)
    (hx : (Interval.of significand exponent).Contains (n * 10 ^ power)) (zeros : ℕ) :
    (Scientific.of n power).toFloat zeros = double .positive h := by
  obtain ⟨dropped, hdropped⟩ := Scientific.exists_of_append_zeros n power
  have hproper := Scientific.isProper_of hn power
  set s := Scientific.of n power with hs
  obtain ⟨first, rest, hcons, hfirst⟩ := hproper.exists_cons
  have htext : s.digits ++ List.replicate zeros zero =
      first :: (rest ++ List.replicate zeros zero) := by
    rw [hcons, List.cons_append]
  have hdigits : ∀ c ∈ s.digits ++ List.replicate zeros zero, c.isDigit := by
    intro c hc
    rcases List.mem_append.1 hc with hc | hc
    · exact hproper.isDigit c hc
    · exact isDigit_of_mem_zeros hc
  refine ofScaledDigits_eq h hdigits htext hfirst ?_
  have hexponent : s.exponent + 1 - s.digits.length - zeros = power + dropped - zeros := by
    have hlength := congrArg List.length hdropped
    rw [List.length_append, List.length_replicate] at hlength
    have hlast : s.exponent = power + (Numeral.ofNat n).length - 1 := rfl
    omega
  have hvalue : Numeral.value s.digits * 10 ^ dropped = n := by
    rw [← Numeral.value_append_zeros, hdropped, Numeral.value_ofNat]
  have hcast : (Numeral.value s.digits : ℚ) * 10 ^ dropped = n := by exact_mod_cast hvalue
  have hscaled : ((Numeral.value (s.digits ++ List.replicate zeros zero) : ℕ) : ℚ) *
      10 ^ (s.exponent + 1 - s.digits.length - zeros) = n * 10 ^ power := by
    rw [Numeral.value_append_zeros, hexponent, zpow_sub₀ (by norm_num), zpow_add₀ (by norm_num),
      zpow_natCast, zpow_natCast, ← hcast]
    push_cast
    field_simp
  rw [hscaled]
  exact hx

/-- The digits chosen for a double are those of a number in its interval. -/
lemma exists_contains_shortest (h : IsCanonical significand exponent) : ∃ n power,
    shortest significand exponent = Scientific.of n power ∧ 0 < n ∧
      (Interval.of significand exponent).Contains (n * 10 ^ power) := by
  obtain ⟨n, power, hshortest, hn⟩ := exists_shortest_eq significand exponent
  refine ⟨n, power, hshortest, ?_⟩
  rcases hn with hholds | ⟨rfl, rfl⟩
  · exact ⟨Interval.pos_of_holds h.pos.ne' hholds, Interval.holds_iff.1 hholds⟩
  · have hpos := h.pos
    refine ⟨by positivity, ?_⟩
    have hexact : ((significand * 2 ^ exponent.toNat * 5 ^ (-exponent).toNat : ℕ) : ℚ) *
        10 ^ min exponent 0 = significand * 2 ^ exponent := by
      have hpower : min exponent 0 = -((-exponent).toNat : ℤ) := by omega
      have htwo := zpow_mul_pow_toNat (b := 2) (by norm_num) exponent
      have hten := ten_zpow_eq (-exponent).toNat
      simp only [zpow_natCast] at hten
      rw [hpower, zpow_neg, zpow_natCast, hten]
      push_cast
      rw [← htwo]
      field_simp
    rw [hexact]
    exact h.contains

/-- A double with its sign changed, or as it is. -/
def signedFloat (negative : Bool) (x : Float) : Float := if negative then -x else x

/-- **The digits of a double are read as this double**, and it makes no difference how many zeros
are behind them. -/
lemma signedFloat_toFloat_shortest {x : Float} {negative : Bool}
    (hexact : Exact.ofFloat x = .finite negative significand exponent) (hne : significand ≠ 0)
    (zeros : ℕ) : signedFloat negative ((shortest significand exponent).toFloat zeros) = x := by
  obtain ⟨h, rfl⟩ := exists_eq_double hexact hne
  obtain ⟨n, power, hshortest, hn, hcontains⟩ := exists_contains_shortest h
  rw [hshortest, Scientific.toFloat_of h hn hcontains]
  cases negative with
  | false => rfl
  | true => exact neg_double h

end Decimal

end OnePage
