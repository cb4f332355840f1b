import Mathlib

/-!
# Clock readings

Whether a tree has been quiet for long enough is a comparison of the difference of two clock
readings with a number of seconds.  All three are floating-point numbers, of which some are no
numbers at all.

* `sub_ne_notANumber` — the difference of finite readings is a number.
* `not_lt_iff_le` — of two numbers that are not in one order the other holds.
* **`not_sub_lt_iff`** — time that is not too short is long enough.
-/

namespace OnePage

namespace Watch

open Float.Model (UnpackedFloat Format)

/-! ## Differences are numbers -/

/-- Packing makes no number unreadable. -/
lemma eq_notANumber_of_unpack_pack {x : UnpackedFloat}
    (h : UnpackedFloat.unpack Format.binary64 (UnpackedFloat.pack Format.binary64 x) =
      .notANumber) : x = .notANumber := by
  have hpacked := (UnpackedFloat.unpack_eq_notANumber_iff_of_valid UnpackedFloat.valid_pack).1 h
  have hbits : UnpackedFloat.isNaNBits (UnpackedFloat.packedNaN Format.binary64) = true :=
    UnpackedFloat.isNaNBits_packedNaN
  rw [← hpacked] at hbits
  obtain ⟨hexponent, hmantissa⟩ := of_decide_eq_true hbits
  cases x with
  | notANumber => rfl
  | infinity s => simp [UnpackedFloat.pack, UnpackedFloat.packedInfinity] at hmantissa
  | zero s => simp [UnpackedFloat.pack, UnpackedFloat.packedZero] at hmantissa
  | finite s m e hm =>
    simp only [UnpackedFloat.pack] at hexponent hmantissa
    split at hexponent
    · next hlarge =>
      rw [if_pos hlarge] at hmantissa
      simp [UnpackedFloat.packedInfinity] at hmantissa
    · next hfits =>
      split at hexponent
      · rw [UnpackedFloat.unpackExponent_packComponents] at hexponent
        have := congrArg BitVec.toNat hexponent
        simp at this hfits
        omega
      · simp [UnpackedFloat.unpackExponent_packComponents] at hexponent

lemma normalize_ne_notANumber (m e s) :
    UnpackedFloat.normalize Format.binary64 m e s ≠ .notANumber := by
  have hround (sign m e) : UnpackedFloat.round Format.binary64 sign m e ≠ .notANumber := by
    simp only [UnpackedFloat.round, UnpackedFloat.roundWithAccuracy]
    split <;> simp
  rw [UnpackedFloat.normalize]
  split
  · exact hround _ _ _
  · simp
  · exact hround _ _ _

lemma sub_ne_notANumber {x y : UnpackedFloat} (hx : x.isFinite) (hy : y.isFinite) :
    UnpackedFloat.sub Format.binary64 x y ≠ .notANumber := by
  cases x with
  | notANumber => simp [UnpackedFloat.isFinite] at hx
  | infinity => simp [UnpackedFloat.isFinite] at hx
  | zero s =>
    cases y with
    | notANumber => simp [UnpackedFloat.isFinite] at hy
    | infinity => simp [UnpackedFloat.isFinite] at hy
    | zero s' =>
      simp only [UnpackedFloat.sub]
      split <;> simp
    | finite => simp [UnpackedFloat.sub]
  | finite =>
    cases y with
    | notANumber => simp [UnpackedFloat.isFinite] at hy
    | infinity => simp [UnpackedFloat.isFinite] at hy
    | zero s' => simp [UnpackedFloat.sub]
    | finite => exact normalize_ne_notANumber _ _ _

/-! ## Numbers are in order -/

lemma compare_symm (x y : UnpackedFloat) : y.compare x = (x.compare y).map Ordering.swap := by
  have hsize (e e' : ℤ) (m m' : ℕ) : (compare e' e).then (compare m' m) =
      ((compare e e').then (compare m m')).swap := by
    rw [Ordering.swap_then, Int.compare_swap, Nat.compare_swap]
  cases x with
  | notANumber => cases y <;> rfl
  | infinity s => cases s <;> cases y with
    | notANumber => rfl
    | infinity s' => cases s' <;> rfl
    | zero s' => rfl
    | finite s' m' e' hm' => cases s' <;> rfl
  | zero s => cases y with
    | notANumber => rfl
    | infinity s' => cases s' <;> rfl
    | zero s' => rfl
    | finite s' m' e' hm' => cases s' <;> rfl
  | finite s m e hm => cases s <;> cases y with
    | notANumber => rfl
    | infinity s' => cases s' <;> rfl
    | zero s' => rfl
    | finite s' m' e' hm' =>
      cases s' <;> simp [UnpackedFloat.compare, hsize e e' m m']

lemma exists_compare {x y : UnpackedFloat} (hx : x ≠ .notANumber) (hy : y ≠ .notANumber) :
    ∃ order, x.compare y = some order := by
  fun_cases UnpackedFloat.compare x y <;> simp_all

lemma not_lt_iff_le {x y : Float} (hx : x.toModel.unpack ≠ .notANumber)
    (hy : y.toModel.unpack ≠ .notANumber) : ¬ x < y ↔ y ≤ x := by
  obtain ⟨order, horder⟩ := exists_compare hx hy
  have hlt : x < y ↔ x.toModel.unpack.lt y.toModel.unpack = true := decide_eq_true_iff
  have hle : y ≤ x ↔ y.toModel.unpack.le x.toModel.unpack = true := decide_eq_true_iff
  rw [hlt, hle, UnpackedFloat.lt, UnpackedFloat.le, compare_symm x.toModel.unpack, horder]
  cases order <;> simp

/-- A number that something is less than is a number. -/
lemma ne_notANumber_of_lt {x y : Float} (h : x < y) : y.toModel.unpack ≠ .notANumber := by
  intro hy
  have hlt : x.toModel.unpack.lt y.toModel.unpack = true := decide_eq_true_iff.1 h
  rw [UnpackedFloat.lt, compare_symm y.toModel.unpack, hy] at hlt
  cases x.toModel.unpack <;> simp [UnpackedFloat.compare] at hlt

/-- **Time that is not too short is long enough.** -/
lemma not_sub_lt_iff {now last debounce : Float} (hnow : now.isFinite) (hlast : last.isFinite)
    (hdebounce : 0.0 < debounce) : ¬ now - last < debounce ↔ debounce ≤ now - last := by
  have hquiet : (now - last).toModel.unpack ≠ .notANumber := by
    intro hnan
    exact sub_ne_notANumber hnow hlast (eq_notANumber_of_unpack_pack hnan)
  exact not_lt_iff_le hquiet (ne_notANumber_of_lt hdebounce)

end Watch

end OnePage
