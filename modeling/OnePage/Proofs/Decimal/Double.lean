import OnePage.Proofs.Decimal.Rounding

/-!
# Doubles and their parts

A double is kept as bits, and unpacked into its parts for each operation.

* `IsCanonical.pack_eq` and `IsCanonical.unpack_pack` — what the bits of the parts are, and that the
  parts can be told from them.
* `double` — the double that is made of given parts; `exists_eq_double` says that each one is,
  unless it is zero or not finite.
* `IsExactly` — which number a double is; `isExactly_power` and `isExactly_whole` give those that
  decimals are read with.
* **`mul_eq_double`** and **`div_eq_double`** — a product or a quotient is the double in whose
  interval the product or the quotient of the numbers is.
-/

namespace OnePage

namespace Decimal

open Float.Model (Format totalExponent UnpackedFloat)
open Float.Model.UnpackedFloat

/-! ## Bits -/

section Bits

lemma toNat_packComponents (sign : Sign) (scale : BitVec 11) (fraction : BitVec 52) :
    (packComponents Format.binary64 sign scale fraction).toNat =
      (sign.toBitVec.toNat * 2 ^ 11 + scale.toNat) * 2 ^ 52 + fraction.toNat := by
  rw [packComponents, BitVec.toNat_append, BitVec.toNat_append,
    ← Nat.shiftLeft_add_eq_or_of_lt fraction.isLt, ← Nat.shiftLeft_add_eq_or_of_lt scale.isLt,
    Nat.shiftLeft_eq, Nat.shiftLeft_eq]

lemma unpackSign_packComponents (sign : Sign) (scale : BitVec 11) (fraction : BitVec 52) :
    unpackSign (packComponents Format.binary64 sign scale fraction) = sign.toBitVec := by
  apply BitVec.eq_of_toNat_eq
  have hpacked := toNat_packComponents sign scale fraction
  have hscale := scale.isLt
  have hfraction := fraction.isLt
  have hshift : (unpackSign (packComponents Format.binary64 sign scale fraction)).toNat =
      (packComponents Format.binary64 sign scale fraction).toNat / 2 ^ 63 % 2 := by
    simp [unpackSign, BitVec.extractLsb, BitVec.extractLsb'_toNat, Nat.shiftRight_eq_div_pow]
  rw [hshift, hpacked]
  cases sign with
  | negative =>
    have hone : Sign.negative.toBitVec.toNat = 1 := rfl
    omega
  | positive =>
    have hnone : Sign.positive.toBitVec.toNat = 0 := rfl
    omega

variable {significand : ℕ} {exponent : ℤ} (h : IsCanonical significand exponent)

include h

lemma IsCanonical.pack_eq (sign : Sign) :
    pack Format.binary64 (.finite sign significand exponent h.pos) =
      packComponents Format.binary64 sign
        (BitVec.ofNat 11 (if 2 ^ 52 ≤ significand then (exponent + 1075).toNat else 0))
        (BitVec.ofNat 52 significand) := by
  have hleast := h.least
  have hbias : (exponent + Format.binary64.exponentBias +
      Format.binary64.mantissaBitsWithoutImplicit).toNat = (exponent + 1075).toNat := by
    have hvalue : Format.binary64.exponentBias = 1023 := rfl
    rw [hvalue]
    congr 1
    push_cast
    ring
  have hlog : significand.log2 + 1 = Format.binary64.mantissaBits ↔ 2 ^ 52 ≤ significand := by
    have hbits : Format.binary64.mantissaBits = 53 := rfl
    rw [← Nat.le_log2 h.pos.ne', hbits]
    have hor := h.log2_eq_or
    omega
  have hfits : ¬ 2 ^ 11 ≤ (exponent + 1075).toNat + 1 := by
    have hmost := h.most
    omega
  rw [pack]
  simp only [hbias, hlog]
  rw [if_neg hfits]
  split <;> rfl

/-- **What is packed is unpacked again.** -/
lemma IsCanonical.unpack_pack (sign : Sign) :
    unpack Format.binary64 (pack Format.binary64 (.finite sign significand exponent h.pos)) =
      .finite sign significand exponent h.pos := by
  have hleast := h.least
  have hmost := h.most
  have hpos := h.pos
  have hlt := h.lt
  have hbias : Format.binary64.exponentBias = 1023 := rfl
  have hsign : Sign.ofBitVec sign.toBitVec = sign := by cases sign <;> rfl
  have hfraction : (BitVec.ofNat 52 significand).toNat = significand % 2 ^ 52 := rfl
  rw [h.pack_eq, unpack]
  simp only [unpackMantissa_packComponents, unpackExponent_packComponents,
    unpackSign_packComponents, hsign]
  set scale := if 2 ^ 52 ≤ significand then (exponent + 1075).toNat else 0 with hscale
  have htoNat : (BitVec.ofNat 11 scale).toNat = scale := by
    rw [BitVec.toNat_ofNat, Nat.mod_eq_of_lt]
    split at hscale <;> omega
  have hfinite : BitVec.ofNat 11 scale ≠ -1#11 := by
    have hones : (-1#11 : BitVec 11).toNat = 2047 := rfl
    rw [← BitVec.toNat_inj.ne, htoNat, hones]
    split at hscale <;> omega
  rw [if_neg hfinite]
  by_cases hfull : 2 ^ 52 ≤ significand
  · rw [if_pos hfull] at hscale
    have hscaled : BitVec.ofNat 11 scale ≠ 0#11 := by
      rw [← BitVec.toNat_inj.ne, htoNat, BitVec.toNat_ofNat]
      omega
    have hbit : (1#1 ++ BitVec.ofNat 52 significand).toNat = significand := by
      rw [BitVec.toNat_append, ← Nat.shiftLeft_add_eq_or_of_lt (BitVec.isLt _), hfraction,
        Nat.shiftLeft_eq, BitVec.toNat_ofNat]
      omega
    rw [if_neg hscaled, UnpackedFloat.finite.injEq]
    refine ⟨rfl, hbit, ?_⟩
    rw [htoNat, hbias, hscale]
    push_cast
    omega
  · rw [if_neg hfull] at hscale
    have hsubnormal : BitVec.ofNat 11 scale = 0#11 := by rw [hscale]
    have hsome : BitVec.ofNat 52 significand ≠ 0#52 := by
      rw [← BitVec.toNat_inj.ne, hfraction, BitVec.toNat_ofNat]
      omega
    rw [if_pos hsubnormal, dif_neg hsome, UnpackedFloat.finite.injEq]
    refine ⟨rfl, by rw [hfraction]; omega, ?_⟩
    rw [htoNat, hbias, hscale, h.full.resolve_left hfull]
    norm_num

end Bits

/-! ## Doubles -/

section Double

variable {significand m n : ℕ} {exponent k l : ℤ} {sign other : Sign}

/-- The double with a sign, a significand and an exponent. -/
def double (sign : Sign) (h : IsCanonical significand exponent) : Float :=
  .ofModel (.pack (.finite sign significand exponent h.pos))

lemma unpack_double (h : IsCanonical significand exponent) :
    (double sign h).toModel.unpack = .finite sign significand exponent h.pos :=
  h.unpack_pack sign

lemma neg_double (h : IsCanonical significand exponent) :
    -double sign h = double (-sign) h := by
  have hneg : -double sign h = .ofModel (.pack (double sign h).toModel.unpack.neg) := rfl
  rw [hneg, unpack_double h]
  rfl

lemma toNat_toBits_double (h : IsCanonical significand exponent) :
    (double sign h).toBits.toNat = (sign.toBitVec.toNat * 2 ^ 11 +
      if 2 ^ 52 ≤ significand then (exponent + 1075).toNat else 0) * 2 ^ 52 +
        significand % 2 ^ 52 := by
  have hleast := h.least
  have hmost := h.most
  have hbits : (double sign h).toBits.toNat =
    (pack Format.binary64 (.finite sign significand exponent h.pos)).toNat := rfl
  rw [hbits, h.pack_eq, toNat_packComponents, BitVec.toNat_ofNat, BitVec.toNat_ofNat,
    Nat.mod_eq_of_lt (b := 2 ^ 11)]
  split <;> omega

lemma eq_of_toBits_eq {x y : Float} (h : x.toBits = y.toBits) : x = y := by
  obtain ⟨⟨bits, hx⟩⟩ := x
  obtain ⟨⟨bits', hy⟩⟩ := y
  obtain rfl : bits = bits' := h
  rfl

/-- **A double that is finite and not zero** is made of its significand and its exponent. -/
lemma exists_eq_double {x : Float} {negative : Bool}
    (hexact : Exact.ofFloat x = .finite negative significand exponent) (hne : significand ≠ 0) :
    ∃ h : IsCanonical significand exponent,
      x = double (if negative then .negative else .positive) h := by
  have hlimits : fractionLimit = 2 ^ 52 ∧ scaleLimit = 2 ^ 11 := ⟨rfl, rfl⟩
  have hbound := x.toBits.toNat_lt
  have hfraction : x.toBits.toNat % 2 ^ 52 < 2 ^ 52 := Nat.mod_lt _ (by decide)
  have hsign (hnegative : decide (x.toBits.toNat / 2 ^ 52 / 2 ^ 11 = 1) = negative) :
      (if negative then Sign.negative else .positive).toBitVec.toNat =
        x.toBits.toNat / 2 ^ 52 / 2 ^ 11 := by
    subst hnegative
    by_cases hone : x.toBits.toNat / 2 ^ 52 / 2 ^ 11 = 1
    · rw [decide_eq_true hone, hone]
      rfl
    · have hnone : x.toBits.toNat / 2 ^ 52 / 2 ^ 11 = 0 := by omega
      rw [decide_eq_false hone, hnone]
      rfl
  simp only [Exact.ofFloat, hlimits] at hexact
  split_ifs at hexact with hspecial hnone hscale
  · obtain ⟨hnegative, rfl, rfl⟩ := (Exact.finite.injEq ..).mp hexact
    have h : IsCanonical (x.toBits.toNat % 2 ^ 52) (-1074) :=
      ⟨Nat.pos_of_ne_zero hne, hfraction.trans (by decide), le_refl _, by omega, .inr rfl⟩
    refine ⟨h, eq_of_toBits_eq (UInt64.toNat_inj.1 ?_)⟩
    rw [toNat_toBits_double h, if_neg (not_le.2 hfraction), hsign hnegative]
    omega
  · obtain ⟨hnegative, rfl, rfl⟩ := (Exact.finite.injEq ..).mp hexact
    set fraction := x.toBits.toNat % 2 ^ 52
    have hfull : 2 ^ 52 ≤ 2 ^ 52 + fraction := Nat.le_add_right _ _
    have h : IsCanonical (2 ^ 52 + fraction)
        (((x.toBits.toNat / 2 ^ 52 % 2 ^ 11 : ℕ) : ℤ) - 1075) :=
      ⟨Nat.pos_of_ne_zero hne, Nat.add_lt_add_left hfraction _, by omega, by omega, .inl hfull⟩
    refine ⟨h, eq_of_toBits_eq (UInt64.toNat_inj.1 ?_)⟩
    rw [toNat_toBits_double h, if_pos hfull, hsign hnegative]
    omega

end Double

/-! ## Numbers that are doubles -/

section Whole

variable {significand number : ℕ} {exponent : ℤ}

/-- A double is in its interval. -/
lemma IsCanonical.contains (h : IsCanonical significand exponent) :
    (Interval.of significand exponent).Contains (significand * 2 ^ exponent) := by
  have hunit : (0 : ℚ) < 2 ^ (exponent - 2) := by positivity
  have hscale : (significand : ℚ) * 2 ^ exponent = 4 * significand * 2 ^ (exponent - 2) := by
    rw [zpow_sub₀ (by norm_num)]
    ring
  have hlow : ((Interval.of significand exponent).low : ℚ) < 4 * significand := by
    rw [Interval.low_eq h.pos]
    split <;> linarith
  have hhigh : (4 * significand : ℚ) < (Interval.of significand exponent).high := by
    simp [Interval.high, Interval.of]
  have hbetween := And.intro (mul_lt_mul_of_pos_right hlow hunit)
    (mul_lt_mul_of_pos_right hhigh hunit)
  rw [hscale]
  exact ⟨hbetween.1.le, hbetween.2.le, fun _ => hbetween⟩

/-- The double is a given number, and all of its bits are used. -/
def IsExactly (x : Float) (value : ℚ) : Prop :=
  ∃ significand exponent, ∃ h : IsCanonical significand exponent,
    2 ^ 52 ≤ significand ∧ x = double .positive h ∧ (significand : ℚ) * 2 ^ exponent = value

lemma ofFloat_power : ∀ power : Fin 23, Exact.ofFloat Float.exactlyRepresentablePowersOfTen[power] =
    .finite false (10 ^ power.val * 2 ^ 52 / 2 ^ (10 ^ power.val).log2)
      ((10 ^ power.val).log2 - 52) := by
  decide +kernel

/-- The powers of ten that are doubles. -/
lemma isExactly_power {power : ℕ} (h : power < Float.exactlyRepresentablePowersOfTen.size) :
    IsExactly (Float.exactlyRepresentablePowersOfTen[power]) (10 ^ power : ℕ) := by
  have hdivides : ∀ power < 23,
      2 ^ (10 ^ power).log2 ∣ 10 ^ power * 2 ^ 52 := by decide
  obtain ⟨quotient, hquotient⟩ := hdivides power h
  have hlog : 2 ^ (10 ^ power).log2 ≤ 10 ^ power := Nat.log2_self_le (by positivity)
  have hexact := ofFloat_power ⟨power, h⟩
  rw [hquotient, Nat.mul_div_cancel_left _ (by positivity)] at hexact
  have hfull : 2 ^ 52 ≤ quotient := by
    by_contra hless
    have hmul : 2 ^ (10 ^ power).log2 * quotient < 10 ^ power * 2 ^ 52 :=
      mul_lt_mul_of_le_of_lt_of_pos_of_nonneg hlog (not_le.1 hless) (by positivity) (by positivity)
    omega
  obtain ⟨hcanonical, hdouble⟩ := exists_eq_double hexact (by omega)
  refine ⟨_, _, hcanonical, hfull, hdouble, ?_⟩
  have hcast : (10 ^ power : ℚ) * 2 ^ 52 = 2 ^ (10 ^ power).log2 * quotient := by
    exact_mod_cast hquotient
  rw [zpow_sub₀ (by norm_num), zpow_natCast]
  push_cast
  rw [← mul_div_assoc, div_eq_iff (by norm_num)]
  rw [mul_comm, ← hcast]
  norm_num

/-- The whole numbers that are doubles. -/
lemma isExactly_whole (hpos : 0 < number) (hlt : number < 2 ^ 53) :
    IsExactly number.toUInt64.toFloat number := by
  have hlog := (Nat.log2_lt hpos.ne').2 hlt
  set shift := 52 - number.log2 with hshift
  have hcanonical : IsCanonical (number <<< shift) (0 - shift : ℤ) := by
    have hbelow : number * 2 ^ shift < 2 ^ 53 :=
      calc number * 2 ^ shift < 2 ^ (number.log2 + 1) * 2 ^ shift :=
            Nat.mul_lt_mul_of_pos_right Nat.lt_log2_self (by positivity)
        _ = 2 ^ 53 := by rw [← pow_add]; congr 1; omega
    have habove : 2 ^ 52 ≤ number * 2 ^ shift :=
      calc 2 ^ 52 = 2 ^ number.log2 * 2 ^ shift := by rw [← pow_add]; congr 1; omega
        _ ≤ number * 2 ^ shift := Nat.mul_le_mul_right _ (Nat.log2_self_le hpos.ne')
    rw [Nat.shiftLeft_eq]
    exact ⟨by positivity, hbelow, by omega, by omega, .inl habove⟩
  have hfull : 2 ^ 52 ≤ number <<< shift := hcanonical.full.resolve_right (by omega)
  have hvalue : ((number <<< shift : ℕ) : ℚ) * 2 ^ (0 - shift : ℤ) = number := by
    rw [Nat.shiftLeft_eq, zero_sub, zpow_neg, zpow_natCast]
    push_cast
    field_simp
  have hround : UnpackedFloat.round Format.binary64 .positive number 0 =
      .finite .positive (number <<< shift) (0 - shift : ℤ) hcanonical.pos := by
    have htarget : (0 - lastPlace number 0).toNat = shift := by
      rw [lastPlace]
      omega
    rw [UnpackedFloat.round, targetExponent_eq, decreaseExponent, htarget]
    refine hcanonical.roundWithAccuracy_eq hcanonical.contains ?_
      (.inl ((Nat.le_log2 hcanonical.pos.ne').2 hfull)) .positive
    rw [mul_div_cancel_right₀ _ (by positivity)]
    exact standsFor_exact _
  have hfloat : number.toUInt64.toFloat = double .positive hcanonical := by
    have htoNat : number.toUInt64.toNat = number :=
      UInt64.toNat_ofNat_of_lt (hlt.trans (by decide))
    have hmodel : number.toUInt64.toFloat = .ofModel (.pack
      (UnpackedFloat.normalize Format.binary64 (number.toUInt64.toNat : ℤ) 0 .positive)) := rfl
    have hcompare : compare (number : ℤ) 0 = .gt := Int.compare_eq_gt.2 (by omega)
    rw [hmodel, htoNat, UnpackedFloat.normalize, hcompare]
    exact congrArg (fun unpacked => Float.ofModel (.pack unpacked)) hround
  exact ⟨_, _, hcanonical, hfull, hfloat, hvalue⟩

variable {x y : Float} {a b : ℚ} (hx : IsExactly x a) (hy : IsExactly y b)
  (h : IsCanonical significand exponent)

include hx hy h

/-- **The product of two doubles** is the double in whose interval the product of the numbers is. -/
lemma mul_eq_double (hab : (Interval.of significand exponent).Contains (a * b)) :
    x * y = double .positive h := by
  obtain ⟨m, k, hm, hfull, rfl, rfl⟩ := hx
  obtain ⟨n, l, hn, -, rfl, rfl⟩ := hy
  have hproduct : double .positive hm * double .positive hn = .ofModel (.pack
    (mul Format.binary64 (double .positive hm).toModel.unpack
      (double .positive hn).toModel.unpack)) := rfl
  rw [hproduct, unpack_double hm, unpack_double hn]
  rw [h.mul_eq (hfull.trans (Nat.le_mul_of_pos_right m hn.pos)) hab]
  rfl

/-- **The quotient of two doubles** is the double in whose interval the quotient of the numbers
is. -/
lemma div_eq_double (hab : (Interval.of significand exponent).Contains (a / b)) :
    x / y = double .positive h := by
  obtain ⟨m, k, hm, -, rfl, rfl⟩ := hx
  obtain ⟨n, l, hn, -, rfl, rfl⟩ := hy
  have hquotient : double .positive hm / double .positive hn = .ofModel (.pack
    (div Format.binary64 (double .positive hm).toModel.unpack
      (double .positive hn).toModel.unpack)) := rfl
  rw [hquotient, unpack_double hm, unpack_double hn, h.div_eq hab]
  rfl

end Whole

end Decimal

end OnePage
