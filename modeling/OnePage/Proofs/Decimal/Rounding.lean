import Mathlib
import OnePage.Decimal.Shortest

/-!
# Rounding to the nearest double

Arithmetic on doubles finds the bits of a result one after the other, down to the last place that a
double has, together with two bits that tell what is left.  Then it rounds.  If the result is in the
interval around a double, it is rounded to that double.

* `StandsFor` — what a mantissa and its two residual bits say about a number, and
  `StandsFor.roundedMantissa_eq`, what the number is rounded to.
* `IsCanonical` — the significand and the exponent of a double; `Interval.Contains` — the numbers
  that are rounded to it, and `Interval.holds_iff`, how that is decided.
* `IsCanonical.lastPlace_eq_or` — a number in the interval has its last place where the double has
  it, or one further down if it is less than a power of two.
* **`IsCanonical.roundWithAccuracy_eq`** — so it is rounded to the double, possibly by a carry.
* `IsCanonical.mul_eq` and `IsCanonical.div_eq` — hence what products and quotients are rounded to.
-/

namespace OnePage

namespace Decimal

open Float.Model (Format totalExponent UnpackedFloat)
open Float.Model.UnpackedFloat

/-! ## Residual bits -/

/-- The mantissa is the whole part of the number.  The bits tell whether the rest is at least a
half, and whether there is more than that. -/
structure StandsFor (em : ExtendedMantissa) (x : ℚ) : Prop where
  /-- The mantissa is not too large. -/
  le : (em.mantissa : ℚ) ≤ x
  /-- Nor is it too small. -/
  lt : x < em.mantissa + 1
  /-- The first bit counts halves. -/
  round : em.roundBit = true ↔ em.mantissa + 1 / 2 ≤ x
  /-- The second bit says that there is something else. -/
  sticky : em.stickyBit = false ↔ x = em.mantissa ∨ x = em.mantissa + 1 / 2

variable {em : ExtendedMantissa} {x : ℚ}

lemma standsFor_add_iff {mantissa : ℕ} {round sticky : Bool} {y : ℚ} :
    StandsFor ⟨mantissa, round, sticky⟩ (mantissa + y) ↔ 0 ≤ y ∧ y < 1 ∧
      (round = true ↔ 1 / 2 ≤ y) ∧ (sticky = false ↔ y = 0 ∨ y = 1 / 2) := by
  constructor
  · rintro ⟨hle, hlt, hround, hsticky⟩
    exact ⟨by simpa using hle, by simpa using hlt, by simpa using hround, by simpa using hsticky⟩
  · rintro ⟨hle, hlt, hround, hsticky⟩
    exact ⟨by simpa using hle, by simpa using hlt, by simpa using hround, by simpa using hsticky⟩

/-- A number without a rest. -/
lemma standsFor_exact (mantissa : ℕ) :
    StandsFor (.ofMantissaAndAccuracy mantissa .exact) mantissa := by
  have h : StandsFor ⟨mantissa, false, false⟩ (mantissa + 0) :=
    standsFor_add_iff.2 ⟨le_refl _, by norm_num, by norm_num, by simp⟩
  rwa [add_zero] at h

/-- The accuracy of a fraction tells its bits. -/
lemma ofMantissaAndAccuracy_fraction {mantissa numerator denominator : ℕ}
    (h : numerator < denominator) :
    ExtendedMantissa.ofMantissaAndAccuracy mantissa (accuracyOfFraction numerator denominator) =
      ⟨mantissa, decide (denominator ≤ 2 * numerator),
        decide (numerator ≠ 0 ∧ 2 * numerator ≠ denominator)⟩ := by
  rw [accuracyOfFraction]
  split
  · next hzero => simp [ExtendedMantissa.ofMantissaAndAccuracy, hzero, (hzero ▸ h).ne']
  · next hzero =>
    cases hcompare : compare (2 * numerator) denominator with
    | lt =>
      have hless := Nat.compare_eq_lt.1 hcompare
      simp [ExtendedMantissa.ofMantissaAndAccuracy, hless, hless.ne, hzero]
    | eq =>
      have hequal := Nat.compare_eq_eq.1 hcompare
      simp [ExtendedMantissa.ofMantissaAndAccuracy, hequal]
    | gt =>
      have hmore := Nat.compare_eq_gt.1 hcompare
      simp [ExtendedMantissa.ofMantissaAndAccuracy, hmore.le, hmore.ne', hzero]

/-- A quotient and the accuracy that the remainder gives it. -/
lemma standsFor_div (numerator : ℕ) {denominator : ℕ} (h : 0 < denominator) :
    StandsFor (.ofMantissaAndAccuracy (numerator / denominator)
      (accuracyOfFraction (numerator % denominator) denominator))
      (numerator / denominator : ℚ) := by
  have hrest : numerator % denominator < denominator := Nat.mod_lt _ h
  have hpos : (0 : ℚ) < denominator := by exact_mod_cast h
  have hsplit : (numerator : ℚ) / denominator =
      (numerator / denominator : ℕ) + (numerator % denominator : ℕ) / denominator := by
    have hnumerator : (denominator : ℚ) * (numerator / denominator : ℕ) +
        (numerator % denominator : ℕ) = numerator := by
      exact_mod_cast Nat.div_add_mod numerator denominator
    nth_rewrite 1 [← hnumerator]
    field_simp
  rw [ofMantissaAndAccuracy_fraction hrest, hsplit, standsFor_add_iff]
  refine ⟨by positivity, ?_, ?_, ?_⟩
  · rw [div_lt_one hpos]
    exact_mod_cast hrest
  · rw [div_le_div_iff₀ (by norm_num) hpos, one_mul, mul_comm, decide_eq_true_iff]
    exact_mod_cast Iff.rfl
  · rw [div_eq_div_iff hpos.ne' (by norm_num), one_mul, mul_comm, div_eq_zero_iff,
      or_iff_left hpos.ne', decide_eq_false_iff_not, not_and_or, not_not, not_not]
    exact_mod_cast Iff.rfl

/-- Dropping the last bit halves the number. -/
lemma StandsFor.shiftRightOne (h : StandsFor em x) : StandsFor em.shiftRightOne (x / 2) := by
  obtain ⟨mantissa, round, sticky⟩ := em
  obtain ⟨hle, hlt, hround, hsticky⟩ := h
  dsimp only at hle hlt hround hsticky
  have hsplit : (mantissa : ℚ) = 2 * (mantissa / 2 : ℕ) + (mantissa % 2 : ℕ) := by
    exact_mod_cast (Nat.div_add_mod mantissa 2).symm
  have hrest : x / 2 = (mantissa / 2 : ℕ) + (x / 2 - (mantissa / 2 : ℕ)) := by ring
  have hnone : (round || sticky) = false ↔ x = mantissa := by
    rw [Bool.or_eq_false_iff, hsticky, ← Bool.not_eq_true, hround]
    constructor
    · rintro ⟨hless, heq | heq⟩
      · exact heq
      · exact absurd heq.ge hless
    · rintro rfl
      exact ⟨by norm_num, .inl rfl⟩
  rw [ExtendedMantissa.shiftRightOne, hrest, standsFor_add_iff, hnone]
  dsimp only
  rcases Nat.mod_two_eq_zero_or_one mantissa with hbit | hbit
  · rw [hbit, Nat.cast_zero, add_zero] at hsplit
    have hhalf : ¬ 1 / 2 ≤ x / 2 - (mantissa / 2 : ℕ) := by linarith
    refine ⟨by linarith, by linarith, by simpa [hbit] using hhalf, ?_⟩
    rw [or_iff_left fun heq => hhalf heq.ge]
    constructor <;> intro heq <;> linarith
  · rw [hbit, Nat.cast_one] at hsplit
    have hhalf : 1 / 2 ≤ x / 2 - (mantissa / 2 : ℕ) := by linarith
    refine ⟨by linarith, by linarith, by simpa [hbit] using hhalf, ?_⟩
    rw [or_iff_right fun heq => by linarith]
    constructor <;> intro heq <;> linarith

lemma StandsFor.shiftRight (h : StandsFor em x) (n : ℕ) : StandsFor (em >>> n) (x / 2 ^ n) := by
  induction n with
  | zero =>
    rw [pow_zero, div_one]
    exact h
  | succ n ih =>
    have hstep := ih.shiftRightOne
    rw [div_div, ← pow_succ] at hstep
    exact hstep

/-- **What a number is rounded to**: the whole number that is no further away than a half, an even
one if it is that far. -/
lemma StandsFor.roundedMantissa_eq (h : StandsFor em x) {n : ℕ} (hlow : n - 1 / 2 ≤ x)
    (hhigh : x ≤ n + 1 / 2) (hends : n % 2 = 1 → n - 1 / 2 < x ∧ x < n + 1 / 2) :
    em.roundedMantissa = n := by
  obtain ⟨mantissa, round, sticky⟩ := em
  obtain ⟨hle, hlt, hround, hsticky⟩ := h
  dsimp only at hle hlt hround hsticky
  have hn : n = mantissa ∨ n = mantissa + 1 := by
    have hless : n < mantissa + 2 := by
      have hcast : (n : ℚ) < mantissa + 2 := by linarith
      exact_mod_cast hcast
    have hmore : mantissa < n + 1 := by
      have hcast : (mantissa : ℚ) < n + 1 := by linarith
      exact_mod_cast hcast
    omega
  cases round with
  | false =>
    -- below the half, the mantissa stays, whatever the other bit says
    have hbelow : x < mantissa + 1 / 2 := by simpa using hround
    have hstays : ExtendedMantissa.roundedMantissa ⟨mantissa, false, sticky⟩ = mantissa := by
      cases sticky <;> rfl
    rcases hn with rfl | rfl
    · exact hstays
    · push_cast at hlow
      linarith
  | true =>
    have habove : mantissa + 1 / 2 ≤ x := hround.1 rfl
    cases sticky with
    | false =>
      have hhalf : x = mantissa + 1 / 2 := (hsticky.1 rfl).resolve_left fun heq => by linarith
      have heven : n % 2 = 0 := by
        by_contra hodd
        obtain ⟨hlow, hhigh⟩ := hends (by omega)
        rcases hn with rfl | rfl
        · linarith
        · push_cast at hlow
          linarith
      have hcarry : ExtendedMantissa.roundedMantissa ⟨mantissa, true, false⟩ =
        mantissa + mantissa % 2 := rfl
      omega
    | true =>
      have hmore : x ≠ mantissa + 1 / 2 := fun heq => by simpa using hsticky.2 (.inr heq)
      have hcarry : ExtendedMantissa.roundedMantissa ⟨mantissa, true, true⟩ = mantissa + 1 := rfl
      rcases hn with rfl | rfl
      · exact absurd (le_antisymm hhigh habove) hmore
      · exact hcarry

/-! ## Doubles and their intervals -/

/-- **A significand and an exponent as a finite double has them**, unless it is zero. -/
structure IsCanonical (significand : ℕ) (exponent : ℤ) : Prop where
  /-- The double is not zero. -/
  pos : 0 < significand
  /-- There are not too many bits. -/
  lt : significand < 2 ^ 53
  /-- The double is not too small. -/
  least : -1074 ≤ exponent
  /-- The double is not too large. -/
  most : exponent ≤ 971
  /-- All bits are used if the exponent could be less. -/
  full : 2 ^ 52 ≤ significand ∨ exponent = -1074

/-- **The numbers that are rounded to a double**: those in its interval, and the ends only if the
significand is even. -/
structure Interval.Contains (i : Interval) (x : ℚ) : Prop where
  /-- The lower end is not above. -/
  low_le : i.low * (2 : ℚ) ^ (i.exponent - 2) ≤ x
  /-- The upper end is not below. -/
  le_high : x ≤ i.high * (2 : ℚ) ^ (i.exponent - 2)
  /-- With an odd significand the number is neither of them. -/
  ends : i.significand % 2 = 1 →
    i.low * (2 : ℚ) ^ (i.exponent - 2) < x ∧ x < i.high * (2 : ℚ) ^ (i.exponent - 2)

/-- A power with an exponent of either sign, as it is multiplied out. -/
lemma zpow_mul_pow_toNat {b : ℚ} (h : b ≠ 0) (k : ℤ) : b ^ k * b ^ (-k).toNat = b ^ k.toNat := by
  rw [← zpow_natCast b (-k).toNat, ← zpow_natCast b k.toNat, ← zpow_add₀ h]
  congr 1
  omega

namespace Interval

variable {i : Interval} {power : ℤ} {n : ℕ}

/-- The unit of `quarters` and `decimal`. -/
def scaling (i : Interval) (power : ℤ) : ℚ := 2 ^ (2 - i.exponent).toNat * 10 ^ (-power).toNat

lemma scaling_pos : 0 < i.scaling power := by
  rw [scaling]
  positivity

lemma quarters_eq : (i.quarters power n : ℚ) =
    n * 2 ^ (i.exponent - 2) * i.scaling power := by
  have htwo := zpow_mul_pow_toNat (b := 2) (by norm_num) (i.exponent - 2)
  rw [neg_sub] at htwo
  rw [quarters, scaling, Nat.pow_eq, Nat.pow_eq]
  push_cast
  rw [← htwo]
  ring

lemma decimal_eq : (i.decimal power n : ℚ) = n * 10 ^ power * i.scaling power := by
  have hten := zpow_mul_pow_toNat (b := 10) (by norm_num) power
  rw [decimal, scaling, Nat.pow_eq, Nat.pow_eq]
  push_cast
  rw [← hten]
  ring

lemma quarters_le_decimal_iff {m : ℕ} : i.quarters power m ≤ i.decimal power n ↔
    m * (2 : ℚ) ^ (i.exponent - 2) ≤ n * 10 ^ power := by
  rw [← Nat.cast_le (α := ℚ), quarters_eq, decimal_eq, mul_le_mul_iff_left₀ scaling_pos]

lemma decimal_le_quarters_iff {m : ℕ} : i.decimal power n ≤ i.quarters power m ↔
    n * 10 ^ power ≤ m * (2 : ℚ) ^ (i.exponent - 2) := by
  rw [← Nat.cast_le (α := ℚ), quarters_eq, decimal_eq, mul_le_mul_iff_left₀ scaling_pos]

/-- What is held on a grid is contained. -/
lemma holds_iff : i.holds power n ↔ i.Contains (n * 10 ^ power) := by
  have hcontains : i.Contains (n * 10 ^ power) ↔
      i.quarters power i.low ≤ i.decimal power n ∧ i.decimal power n ≤ i.quarters power i.high ∧
        (i.significand % 2 = 1 →
          i.quarters power i.low < i.decimal power n ∧
            i.decimal power n < i.quarters power i.high) := by
    simp only [← not_le, quarters_le_decimal_iff, decimal_le_quarters_iff]
    exact ⟨fun h => ⟨h.low_le, h.le_high, by simpa using h.ends⟩,
      fun h => ⟨h.1, h.2.1, by simpa using h.2.2⟩⟩
  rw [hcontains, holds]
  split
  · next heven => simp [heven]
  · next hodd =>
    simp
    omega

end Interval

section Nearest

variable {significand : ℕ} {exponent : ℤ}

/-- Half a place below a double, or a quarter where the places get smaller. -/
lemma Interval.low_eq (h : 0 < significand) : ((Interval.of significand exponent).low : ℚ) =
    4 * significand - if significand = 2 ^ 52 ∧ exponent ≠ -1074 then 1 else 2 := by
  have hle : (if (Interval.of significand exponent).narrow then 1 else 2) ≤ 4 * significand := by
    split <;> omega
  have hlow : (Interval.of significand exponent).low =
      4 * significand - if (Interval.of significand exponent).narrow then 1 else 2 := rfl
  rw [hlow, Nat.cast_sub hle]
  simp only [Interval.of, decide_eq_true_eq]
  push_cast
  rfl

/-- The interval in units of the last place. -/
lemma Interval.Contains.scaled (h : (Interval.of significand exponent).Contains x) :
    ((Interval.of significand exponent).low : ℚ) / 4 ≤ x / 2 ^ exponent ∧
      x / 2 ^ exponent ≤ significand + 1 / 2 ∧
      (significand % 2 = 1 →
        ((Interval.of significand exponent).low : ℚ) / 4 < x / 2 ^ exponent ∧
          x / 2 ^ exponent < significand + 1 / 2) := by
  have hpos : (0 : ℚ) < 2 ^ exponent := by positivity
  have hunit : (2 : ℚ) ^ (exponent - 2) = 2 ^ exponent / 4 := by
    rw [zpow_sub₀ (by norm_num)]
    norm_num
  have hhigh : ((Interval.of significand exponent).high : ℚ) = 4 * significand + 2 := by
    simp [Interval.high, Interval.of]
  obtain ⟨hlow, hle, hends⟩ := h
  simp only [Interval.of] at hunit hlow hle hends hhigh ⊢
  simp only [hunit, hhigh] at hlow hle hends
  simp only [le_div_iff₀ hpos, div_le_iff₀ hpos, lt_div_iff₀ hpos, div_lt_iff₀ hpos]
  refine ⟨by linarith, by linarith, fun hodd => ?_⟩
  obtain ⟨hlow, hhigh⟩ := hends hodd
  constructor <;> linarith

/-- What is in the interval of a double is at most half a place away. -/
lemma Interval.Contains.between (hpos : 0 < significand)
    (h : (Interval.of significand exponent).Contains x) :
    (significand - 1 / 2) * 2 ^ exponent ≤ x ∧ x ≤ (significand + 1 / 2) * 2 ^ exponent := by
  have hscale : (0 : ℚ) < 2 ^ exponent := by positivity
  obtain ⟨hlow, hhigh, -⟩ := h.scaled
  rw [Interval.low_eq hpos] at hlow
  rw [← le_div_iff₀ hscale, ← div_le_iff₀ hscale]
  refine ⟨le_trans ?_ hlow, hhigh⟩
  split <;> linarith

/-- In units of its last place, a double is the whole number next to what is in its interval. -/
lemma StandsFor.roundedMantissa_eq_significand (hpos : 0 < significand)
    (hx : (Interval.of significand exponent).Contains x)
    (h : StandsFor em (x / 2 ^ exponent)) : em.roundedMantissa = significand := by
  obtain ⟨hlow, hhigh, hends⟩ := hx.scaled
  rw [Interval.low_eq hpos] at hlow hends
  split at hlow
  · next hnarrow =>
    refine h.roundedMantissa_eq (by linarith) hhigh fun hodd => ?_
    omega
  · next hwide =>
    simp only [if_neg hwide] at hends
    refine h.roundedMantissa_eq (by linarith) hhigh fun hodd => ?_
    obtain ⟨hlow, hhigh⟩ := hends hodd
    exact ⟨by linarith, hhigh⟩

end Nearest

/-! ## Rounding -/

/-- Where a double has its last place that begins like a number with the given mantissa. -/
def lastPlace (mantissa : ℕ) (place : ℤ) : ℤ := max (mantissa.log2 + place - 52) (-1074)

lemma targetExponent_eq (mantissa : ℕ) (place : ℤ) :
    Format.binary64.targetExponent (totalExponent mantissa place) = lastPlace mantissa place := by
  simp only [Format.targetExponent, totalExponent, Format.mantissaBits, Format.minExponent,
    lastPlace]
  norm_num
  omega

lemma mantissa_ofMantissaAndAccuracy (mantissa : ℕ) (accuracy : Accuracy) :
    (ExtendedMantissa.ofMantissaAndAccuracy mantissa accuracy).mantissa = mantissa := by
  cases accuracy with
  | exact => rfl
  | inexact ordering => cases ordering <;> rfl

section Rounding

variable {significand mantissa : ℕ} {exponent place : ℤ} {accuracy : Accuracy}

/-- The first bit of a mantissa is where the number has its first bit. -/
lemma zpow_log2_le (hne : mantissa ≠ 0) (h : mantissa ≤ x / 2 ^ place) :
    (2 : ℚ) ^ (mantissa.log2 + place) ≤ x := by
  have hlog : (2 : ℚ) ^ mantissa.log2 ≤ mantissa := by exact_mod_cast Nat.log2_self_le hne
  rw [zpow_add₀ (by norm_num), zpow_natCast, ← le_div_iff₀ (by positivity)]
  exact hlog.trans h

lemma lt_zpow_log2 (h : x / 2 ^ place < mantissa + 1) :
    x < (2 : ℚ) ^ (mantissa.log2 + place + 1) := by
  have hlog : (mantissa : ℚ) + 1 ≤ 2 ^ (mantissa.log2 + 1) := by exact_mod_cast Nat.lt_log2_self
  rw [add_right_comm, zpow_add₀ (by norm_num), ← div_lt_iff₀ (by positivity)]
  exact h.trans_le (by exact_mod_cast hlog)

namespace IsCanonical

variable (h : IsCanonical significand exponent)

include h

lemma log2_eq_or : significand.log2 = 52 ∨ significand.log2 < 52 ∧ exponent = -1074 := by
  have hlt := (Nat.log2_lt h.pos.ne').2 h.lt
  rcases h.full with hfull | hleast
  · have hle := (Nat.le_log2 h.pos.ne').2 hfull
    omega
  · omega

/-- Nothing is left to be done for a double. -/
lemma shiftToTargetExponent_eq :
    shiftToTargetExponent Format.binary64 significand exponent .exact =
      (⟨significand, false, false⟩, exponent) := by
  have htarget : lastPlace significand exponent = exponent := by
    have hleast := h.least
    rw [lastPlace]
    rcases h.log2_eq_or with hlog | ⟨hlog, hexponent⟩ <;> omega
  rw [shiftToTargetExponent, targetExponent_eq, htarget, shiftToExponent, sub_self, Int.toNat_zero]
  simp only [Nat.cast_zero, add_zero]
  rfl

/-- A carry beyond the first place is shifted back. -/
lemma shiftToTargetExponent_carry (hpower : significand = 2 ^ 52) (hexponent : exponent ≠ -1074) :
    shiftToTargetExponent Format.binary64 (2 ^ 53) (exponent - 1) .exact =
      (⟨significand, false, false⟩, exponent) := by
  have htarget : lastPlace (2 ^ 53) (exponent - 1) = exponent := by
    have hleast : -1074 < exponent := lt_of_le_of_ne h.least hexponent.symm
    rw [lastPlace, Nat.log2_two_pow]
    omega
  have hone : (exponent - (exponent - 1)).toNat = 1 := by omega
  rw [shiftToTargetExponent, targetExponent_eq, htarget, shiftToExponent, hone, hpower]
  simp only [Nat.cast_one, sub_add_cancel]
  rfl

variable (hx : (Interval.of significand exponent).Contains x)

include hx

/-- What is in the interval of a double begins in no place that the double does not have. -/
lemma lt_zpow : x < (2 : ℚ) ^ (53 + exponent) := by
  have hlt : (significand : ℚ) + 1 ≤ 2 ^ 53 := by exact_mod_cast h.lt
  have hhalf : (significand : ℚ) + 1 / 2 < 2 ^ 53 := by linarith
  rw [zpow_add₀ (by norm_num)]
  exact (hx.between h.pos).2.trans_lt (mul_lt_mul_of_pos_right hhalf (by positivity))

lemma zpow_lt (hexponent : exponent ≠ -1074) : (2 : ℚ) ^ (51 + exponent) < x := by
  have hfull : (2 ^ 52 : ℚ) ≤ significand := by exact_mod_cast h.full.resolve_right hexponent
  have hless : (2 : ℚ) ^ (51 : ℤ) < significand - 1 / 2 :=
    lt_of_lt_of_le (by norm_num) (sub_le_sub_right hfull _)
  rw [zpow_add₀ (by norm_num)]
  exact (mul_lt_mul_of_pos_right hless (by positivity)).trans_le (hx.between h.pos).1

/-- **Where the last place is.**  A number in the interval has its last place where the double has
it, or one further down if the double is a power of two and the number is less. -/
lemma lastPlace_eq_or (hle : mantissa ≤ x / 2 ^ place) (hlt : x / 2 ^ place < mantissa + 1)
    (hbits : 52 ≤ mantissa.log2 ∨ place ≤ -1074) :
    lastPlace mantissa place = exponent ∨
      lastPlace mantissa place = exponent - 1 ∧
        significand = 2 ^ 52 ∧ exponent ≠ -1074 ∧ x < 2 ^ 52 * 2 ^ exponent := by
  have hplaces {k l : ℤ} (hpower : (2 : ℚ) ^ k < 2 ^ l) : k < l :=
    (zpow_lt_zpow_iff_right₀ (by norm_num)).1 hpower
  have hleast := h.least
  have hfirst : mantissa.log2 + place < 53 + exponent ∨ mantissa.log2 + place ≤ -1074 := by
    by_cases hzero : mantissa = 0
    · subst hzero
      rw [Nat.log2_zero] at hbits ⊢
      omega
    · exact .inl (hplaces ((zpow_log2_le hzero hle).trans_lt (h.lt_zpow hx)))
  rw [lastPlace]
  by_cases hexponent : exponent = -1074
  · omega
  · have hlast := hplaces ((h.zpow_lt hx hexponent).trans (lt_zpow_log2 hlt))
    by_cases hbelow : mantissa.log2 + place = 51 + exponent
    · have hless : x < 2 ^ 52 * 2 ^ exponent := by
        have hpower : (mantissa.log2 + place + 1 : ℤ) = 52 + exponent := by omega
        have hlog := lt_zpow_log2 hlt
        rw [hpower, zpow_add₀ (by norm_num)] at hlog
        exact_mod_cast hlog
      have hone : significand < 2 ^ 52 + 1 := by
        have hscaled := (hx.between h.pos).1.trans_lt hless
        have hcast := lt_of_mul_lt_mul_right hscaled (by positivity)
        have hnext : (significand : ℚ) < 2 ^ 52 + 1 := by linarith
        exact_mod_cast hnext
      have hfull := h.full.resolve_right hexponent
      exact .inr ⟨by omega, by omega, hexponent, hless⟩
    · omega

/-- What is less than a power of two, and in its interval, is rounded up to it by a carry. -/
lemma roundedMantissa_carry (hpower : significand = 2 ^ 52) (hexponent : exponent ≠ -1074)
    (hless : x < 2 ^ 52 * 2 ^ exponent) (hstands : StandsFor em (x / 2 ^ (exponent - 1))) :
    em.roundedMantissa = 2 ^ 53 := by
  have hscaled : x / 2 ^ (exponent - 1) = 2 * (x / 2 ^ exponent) := by
    rw [zpow_sub_one₀ (by norm_num)]
    field_simp
  have hhigh : x / 2 ^ exponent < 2 ^ 52 := (div_lt_iff₀ (by positivity)).2 hless
  obtain ⟨hlow, -⟩ := hx.scaled
  rw [Interval.low_eq h.pos, if_pos ⟨hpower, hexponent⟩, hpower] at hlow
  rw [hscaled] at hstands
  push_cast at hlow
  refine hstands.roundedMantissa_eq ?_ ?_ (fun hodd => by norm_num at hodd)
  · push_cast
    linarith
  · push_cast
    linarith

/-- **Rounding finds the double** in whose interval the number is. -/
lemma roundWithAccuracy_eq
    (hstands : StandsFor (.ofMantissaAndAccuracy mantissa accuracy) (x / 2 ^ place))
    (hbits : 52 ≤ mantissa.log2 ∨ place ≤ -1074) (sign : Sign) :
    roundWithAccuracy Format.binary64 sign mantissa place accuracy =
      .finite sign significand exponent h.pos := by
  set target := lastPlace mantissa place with htarget
  have hplace : place + (target - place).toNat = target := by
    rw [lastPlace] at htarget
    omega
  set first := ExtendedMantissa.ofMantissaAndAccuracy mantissa accuracy >>> (target - place).toNat
    with hfirst
  have hshift : shiftToTargetExponent Format.binary64 mantissa place accuracy =
      (first, target) := by
    rw [shiftToTargetExponent, targetExponent_eq, ← htarget, shiftToExponent, hplace]
  have hstandsFirst : StandsFor first (x / 2 ^ target) := by
    have hshifted := hstands.shiftRight (target - place).toNat
    rw [div_div, ← zpow_natCast, ← zpow_add₀ (by norm_num), hplace] at hshifted
    exact hshifted
  have hmantissa := mantissa_ofMantissaAndAccuracy mantissa accuracy
  have hcases := h.lastPlace_eq_or hx (hmantissa ▸ hstands.le) (hmantissa ▸ hstands.lt) hbits
  rw [← htarget] at hcases
  have hsecond : shiftToTargetExponent Format.binary64 first.roundedMantissa target .exact =
      (⟨significand, false, false⟩, exponent) := by
    rcases hcases with hsame | ⟨hlower, hpower, hexponent, hless⟩
    · rw [hsame] at hstandsFirst ⊢
      rw [hstandsFirst.roundedMantissa_eq_significand h.pos hx]
      exact h.shiftToTargetExponent_eq
    · rw [hlower] at hstandsFirst ⊢
      rw [h.roundedMantissa_carry hx hpower hexponent hless hstandsFirst]
      exact h.shiftToTargetExponent_carry hpower hexponent
  rw [roundWithAccuracy, hshift]
  dsimp only
  rw [hsecond]
  exact dif_neg h.pos.ne'

end IsCanonical

end Rounding

/-! ## Products and quotients -/

namespace IsCanonical

variable {significand m n : ℕ} {exponent k l : ℤ} (h : IsCanonical significand exponent)

include h

/-- **A product** of many bits is rounded to the double in whose interval it is. -/
lemma mul_eq {hm : 0 < m} {hn : 0 < n} (hbits : 2 ^ 52 ≤ m * n)
    (hx : (Interval.of significand exponent).Contains (m * 2 ^ k * (n * 2 ^ l)))
    (sign other : Sign) :
    mul Format.binary64 (.finite sign m k hm) (.finite other n l hn) =
      .finite (sign * other) significand exponent h.pos := by
  have hstands : StandsFor (.ofMantissaAndAccuracy (m * n) .exact)
      (m * 2 ^ k * (n * 2 ^ l) / 2 ^ (k + l)) := by
    have hproduct : (m * 2 ^ k * (n * 2 ^ l) / 2 ^ (k + l) : ℚ) = (m * n : ℕ) := by
      rw [zpow_add₀ (by norm_num)]
      push_cast
      field_simp
    rw [hproduct]
    exact standsFor_exact (m * n)
  have hlog := (Nat.le_log2 (Nat.mul_pos hm hn).ne').2 hbits
  exact h.roundWithAccuracy_eq hx hstands (.inl hlog) (sign * other)

/-- **A quotient** is rounded to the double in whose interval it is.  It is divided to sufficiently
many bits. -/
lemma div_eq {hm : 0 < m} {hn : 0 < n}
    (hx : (Interval.of significand exponent).Contains (m * 2 ^ k / (n * 2 ^ l)))
    (sign other : Sign) :
    div Format.binary64 (.finite sign m k hm) (.finite other n l hn) =
      .finite (sign / other) significand exponent h.pos := by
  set place := min (k - l)
    (Format.binary64.targetExponent (totalExponent m k - totalExponent n l)) with hplace
  set shift := (k - l - place).toNat with hshift
  have hstands : StandsFor (.ofMantissaAndAccuracy ((m <<< shift) / n)
      (accuracyOfFraction ((m <<< shift) % n) n)) (m * 2 ^ k / (n * 2 ^ l) / 2 ^ place) := by
    have hquotient : (m * 2 ^ k / (n * 2 ^ l) / 2 ^ place : ℚ) = (m <<< shift : ℕ) / n := by
      have hpower : (2 : ℚ) ^ k = 2 ^ shift * (2 ^ l * 2 ^ place) := by
        rw [← zpow_natCast, ← zpow_add₀ (by norm_num), ← zpow_add₀ (by norm_num)]
        congr 1
        omega
      rw [Nat.shiftLeft_eq, hpower]
      push_cast
      field_simp
    rw [hquotient]
    exact standsFor_div _ hn
  refine h.roundWithAccuracy_eq hx hstands ?_ (sign / other)
  by_cases hleast : place ≤ -1074
  · exact .inr hleast
  · have hshift : n.log2 + 53 ≤ m.log2 + shift := by
      simp only [Format.targetExponent, totalExponent, Format.mantissaBits, Format.minExponent]
        at hplace
      norm_num at hplace
      omega
    have hdivisor : n * 2 ^ 52 ≤ m * 2 ^ shift :=
      calc n * 2 ^ 52 ≤ 2 ^ (n.log2 + 1) * 2 ^ 52 := Nat.mul_le_mul_right _ Nat.lt_log2_self.le
        _ = 2 ^ (n.log2 + 53) := by rw [← pow_add]
        _ ≤ 2 ^ (m.log2 + shift) := Nat.pow_le_pow_right (by decide) hshift
        _ = 2 ^ m.log2 * 2 ^ shift := pow_add 2 _ _
        _ ≤ m * 2 ^ shift := Nat.mul_le_mul_right _ (Nat.log2_self_le hm.ne')
    have hquotient : 2 ^ 52 ≤ (m <<< shift) / n := by
      rw [Nat.le_div_iff_mul_le hn, Nat.shiftLeft_eq, mul_comm]
      exact hdivisor
    exact .inl ((Nat.le_log2 (Nat.two_pow_pos 52 |>.trans_le hquotient).ne').2 hquotient)

end IsCanonical

end Decimal

end OnePage
