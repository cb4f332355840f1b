import OnePage.Decimal.Notation
import OnePage.Proofs.Text.Numeral

/-!
# The digits of a double and how they are laid out

Whichever digits are chosen for a double, they are those of some whole number.  From that follows
what a layout can come to.

* `exists_shortest_eq` — the digits are those of a number in the interval of the double.
* `Scientific.IsProper` and `isProper_shortest` — so there are some, and the first is not zero.
* `Scientific.mem_positional` and `Scientific.mem_exponential` — what positional and exponential
  notation are made of.
* `Scientific.exponential_one_eq_two_iff` — when it matters how long a negative exponent has to be.
* `Style.mem_render` — what a double is made of.
-/

namespace OnePage

namespace Decimal

/-! ## The digits chosen -/

lemma Scientific.isDigit_of_mem_of {n : Nat} {power : Int} {c : CodePoint}
    (h : c ∈ (Scientific.of n power).digits) : c.isDigit := by
  rw [Scientific.of, List.mem_reverse] at h
  have hmem := (List.dropWhile_sublist _).subset h
  exact Numeral.isDigit_of_mem_ofNat (List.mem_reverse.1 hmem)

/-- What lies in the interval of a double that is not zero is not zero. -/
lemma Interval.pos_of_holds {significand n : Nat} {exponent power : Int}
    (hsignificand : significand ≠ 0) (h : (Interval.of significand exponent).holds power n) :
    0 < n := by
  set i := Interval.of significand exponent
  have hlow : 0 < i.quarters power i.low := by
    have hpositive : 0 < i.low := by
      have hfour : 4 ≤ 4 * i.significand := by
        have hpos : 0 < i.significand := Nat.pos_of_ne_zero hsignificand
        omega
      rw [Interval.low]
      split <;> omega
    exact Nat.mul_pos (Nat.mul_pos hpositive (Nat.pow_pos (by decide))) (Nat.pow_pos (by decide))
  rw [Nat.pos_iff_ne_zero]
  rintro rfl
  have hnone : i.decimal power 0 = 0 := by simp [Interval.decimal]
  rw [Interval.holds, hnone] at h
  split at h
  · simp only [Bool.and_eq_true, decide_eq_true_eq] at h
    omega
  · simp at h

/-- What is found on a grid is held. -/
lemma Interval.holds_of_onGrid? {i : Interval} {n : Nat} {power : Int}
    (h : i.onGrid? power = some n) : i.holds power n := by
  rw [Interval.onGrid?] at h
  split at h
  · next hbelow habove =>
    obtain rfl := Option.some.inj h
    split
    · exact hbelow
    · exact habove
  · next hbelow _ =>
    obtain rfl := Option.some.inj h
    exact hbelow
  · next _ habove =>
    obtain rfl := Option.some.inj h
    exact habove
  · cases h

/-- **The digits of a double** are those of a number in its interval, or of its exact value. -/
lemma exists_shortest_eq (significand : Nat) (exponent : Int) : ∃ n power,
    shortest significand exponent = Scientific.of n power ∧
      ((Interval.of significand exponent).holds power n ∨
        n = significand * 2 ^ exponent.toNat * 5 ^ (-exponent).toNat ∧ power = min exponent 0) := by
  rw [shortest]
  cases hfound : (List.range 17).findSome? fun (more : Nat) =>
      ((Interval.of significand exponent).onGrid?
        ((Interval.of significand exponent).scale - more)).map fun n =>
          Scientific.of n ((Interval.of significand exponent).scale - more) with
  | none => exact ⟨_, _, rfl, .inr ⟨rfl, rfl⟩⟩
  | some found =>
    obtain ⟨more, -, hmore⟩ := List.exists_of_findSome?_eq_some hfound
    obtain ⟨n, hn, rfl⟩ := Option.map_eq_some_iff.1 hmore
    exact ⟨_, _, rfl, .inl (Interval.holds_of_onGrid? hn)⟩

/-- The digits of a double are digits. -/
lemma isDigit_of_mem_shortest {significand : Nat} {exponent : Int} {c : CodePoint}
    (h : c ∈ (shortest significand exponent).digits) : c.isDigit := by
  obtain ⟨n, power, hshortest, -⟩ := exists_shortest_eq significand exponent
  rw [hshortest] at h
  exact Scientific.isDigit_of_mem_of h

/-- With zeros behind them the digits are a whole numeral again. -/
lemma Scientific.exists_of_append_zeros (n : Nat) (power : Int) : ∃ zeros,
    (Scientific.of n power).digits ++ List.replicate zeros Numeral.zero = Numeral.ofNat n := by
  have hdigits : (Scientific.of n power).digits =
      (Numeral.ofNat n).rdropWhile (· = CodePoint.ofChar '0') := rfl
  have hzeros : (Numeral.ofNat n).rtakeWhile (· = CodePoint.ofChar '0') =
      List.replicate ((Numeral.ofNat n).rtakeWhile (· = CodePoint.ofChar '0')).length
        Numeral.zero :=
    List.eq_replicate_of_mem fun c hc => by simpa using List.mem_rtakeWhile_imp hc
  refine ⟨((Numeral.ofNat n).rtakeWhile (· = CodePoint.ofChar '0')).length, ?_⟩
  rw [hdigits, ← hzeros]
  exact List.rdropWhile_append_rtakeWhile

/-- Digits as they are chosen for a double that is not zero. -/
structure Scientific.IsProper (s : Scientific) : Prop where
  /-- They are digits. -/
  isDigit : ∀ c ∈ s.digits, c.isDigit
  /-- There are some, and the first of them is not zero. -/
  exists_cons : ∃ first rest, s.digits = first :: rest ∧ first ≠ Numeral.zero

lemma Scientific.isProper_of {n : Nat} (h : 0 < n) (power : Int) :
    (Scientific.of n power).IsProper := by
  refine ⟨fun c => isDigit_of_mem_of, ?_⟩
  have hdigits : (Scientific.of n power).digits =
      (Numeral.ofNat n).rdropWhile (· = CodePoint.ofChar '0') := rfl
  obtain ⟨hnil, -, hhead⟩ := Numeral.isCanonical_eq_true_iff.1 (Numeral.isCanonical_ofNat n)
  obtain ⟨first, rest, hcons⟩ := List.exists_cons_of_ne_nil hnil
  have hfirst : first ≠ Numeral.zero := by
    intro hzero
    have hvalue := congrArg Numeral.value (hhead (by rw [hcons, hzero]; rfl))
    rw [Numeral.value_ofNat] at hvalue
    have hnone : Numeral.value [Numeral.zero] = 0 := rfl
    omega
  obtain ⟨dropped, hdropped⟩ := List.rdropWhile_prefix (· = CodePoint.ofChar '0') (Numeral.ofNat n)
  rw [hdigits]
  cases hkept : (Numeral.ofNat n).rdropWhile (· = CodePoint.ofChar '0') with
  | nil =>
    have hall := List.rdropWhile_eq_nil_iff.1 hkept first (by simp [hcons])
    exact absurd (by simpa using hall) hfirst
  | cons d kept =>
    rw [hkept, hcons] at hdropped
    obtain ⟨rfl, -⟩ := List.cons.inj hdropped
    exact ⟨d, kept, rfl, hfirst⟩

lemma isProper_shortest {significand : Nat} (h : significand ≠ 0) (exponent : Int) :
    (shortest significand exponent).IsProper := by
  obtain ⟨n, power, hshortest, hn⟩ := exists_shortest_eq significand exponent
  have hpos : 0 < n := by
    rcases hn with hholds | ⟨rfl, -⟩
    · exact Interval.pos_of_holds h hholds
    · positivity
  rw [hshortest]
  exact Scientific.isProper_of hpos power

/-! ## Two notations -/

lemma isDigit_of_mem_zeros {n : Nat} {c : CodePoint}
    (h : c ∈ List.replicate n (CodePoint.ofChar '0')) : c.isDigit := by
  rw [List.eq_of_mem_replicate h]
  decide

namespace Scientific

/-- The digits with a point after the first. -/
def mantissa (s : Scientific) : Text :=
  match s.digits with
  | first :: second :: rest => first :: CodePoint.ofChar '.' :: second :: rest
  | digits => digits

lemma exponential_eq (s : Scientific) (places : Nat) : s.exponential places =
    if s.exponent < 0 then
      s.mantissa ++ "e-" ++
        List.replicate (places - (Numeral.ofNat s.exponent.natAbs).length) (CodePoint.ofChar '0') ++
        Numeral.ofNat s.exponent.natAbs
    else s.mantissa ++ "e+" ++ Numeral.ofNat s.exponent.natAbs := rfl

variable {s : Scientific} (hdigits : ∀ c ∈ s.digits, c.isDigit)

include hdigits

/-- Positional notation is made of digits and a point. -/
lemma mem_positional {c : CodePoint} (h : c ∈ s.positional) :
    c.isDigit ∨ c = CodePoint.ofChar '.' := by
  have hpoint : c ∈ Text.ofString "." → c.isDigit ∨ c = CodePoint.ofChar '.' := by
    intro hc
    exact .inr (by simpa [Text.ofString] using hc)
  rw [positional] at h
  split at h
  · simp only [List.mem_append] at h
    rcases h with (h | h) | h
    · have hboth : ∀ c ∈ Text.ofString "0.", c.isDigit ∨ c = CodePoint.ofChar '.' := by decide
      exact hboth c h
    · exact .inl (isDigit_of_mem_zeros h)
    · exact .inl (hdigits c h)
  · -- whether there are zeros behind the digits or not, all are digits
    have hpadded {n : Nat}
        (hc : c ∈ s.digits ++ List.replicate n (CodePoint.ofChar '0')) : c.isDigit := by
      rcases List.mem_append.1 hc with hc | hc
      · exact hdigits c hc
      · exact isDigit_of_mem_zeros hc
    simp only [List.mem_append] at h
    rcases h with (h | h) | h
    · exact .inl (hpadded (List.mem_of_mem_take h))
    · exact hpoint h
    · split at h
      · exact .inl (isDigit_of_mem_zeros h)
      · exact .inl (hpadded (List.mem_of_mem_drop h))

lemma mem_mantissa {c : CodePoint} (h : c ∈ s.mantissa) : c.isDigit ∨ c = CodePoint.ofChar '.' := by
  rw [mantissa] at h
  split at h
  · next first second rest heq =>
    rw [heq] at hdigits
    rcases List.mem_cons.1 h with rfl | h
    · exact .inl (hdigits _ (by simp))
    · rcases List.mem_cons.1 h with rfl | h
      · exact .inr rfl
      · exact .inl (hdigits c (by simp [List.mem_cons.1 h]))
  · exact .inl (hdigits c h)

/-- Exponential notation is made of digits, a point, an `e` and a sign. -/
lemma mem_exponential {places : Nat} {c : CodePoint} (h : c ∈ s.exponential places) :
    c.isDigit ∨ c ∈ Text.ofString ".e+-" := by
  have hmantissa (hc : c ∈ s.mantissa) : c.isDigit ∨ c ∈ Text.ofString ".e+-" :=
    (mem_mantissa hdigits hc).imp_right fun hpoint => by rw [hpoint]; decide
  have hnumeral (hc : c ∈ Numeral.ofNat s.exponent.natAbs) : c.isDigit :=
    Numeral.isDigit_of_mem_ofNat hc
  have hsign : ∀ sign ∈ ["e-", "e+"], ∀ c ∈ Text.ofString sign, c ∈ Text.ofString ".e+-" := by
    decide
  rw [exponential_eq] at h
  split at h
  · simp only [List.mem_append] at h
    rcases h with ((h | h) | h) | h
    · exact hmantissa h
    · exact .inr (hsign _ (by simp) c h)
    · exact .inl (isDigit_of_mem_zeros h)
    · exact .inl (hnumeral h)
  · simp only [List.mem_append] at h
    rcases h with (h | h) | h
    · exact hmantissa h
    · exact .inr (hsign _ (by simp) c h)
    · exact .inl (hnumeral h)

/-- Positional and exponential notation differ in that only one of them has an `e`. -/
lemma positional_ne_exponential (places : Nat) : s.positional ≠ s.exponential places := by
  intro heq
  have hmem : CodePoint.ofChar 'e' ∈ s.exponential places := by
    have hsign : ∀ sign ∈ ["e-", "e+"], CodePoint.ofChar 'e' ∈ Text.ofString sign := by decide
    rw [exponential_eq]
    split
    · simp [hsign]
    · simp [hsign]
  rcases mem_positional hdigits (heq ▸ hmem) with h | h
  · revert h
    decide
  · revert h
    decide

omit hdigits in
/-- **One place or two.**  Only exponents of a single digit are written with a zero or without. -/
lemma exponential_one_eq_two_iff :
    s.exponential 1 = s.exponential 2 ↔ ¬ (-9 ≤ s.exponent ∧ s.exponent < 0) := by
  have hpos : 1 ≤ (Numeral.ofNat s.exponent.natAbs).length := by
    rw [Numeral.ofNat, List.length_map]
    exact Nat.length_toDigits_pos
  have hone : (Numeral.ofNat s.exponent.natAbs).length ≤ 1 ↔ s.exponent.natAbs < 10 :=
    Numeral.length_ofNat_le_iff (by decide)
  rw [exponential_eq, exponential_eq]
  split
  · next hneg =>
    constructor
    · intro heq hrange
      have hlength := congrArg List.length heq
      simp only [List.length_append, List.length_replicate] at hlength
      omega
    · intro hrange
      have hlong : 2 ≤ (Numeral.ofNat s.exponent.natAbs).length := by omega
      rw [Nat.sub_eq_zero_of_le hpos, Nat.sub_eq_zero_of_le hlong]
  · next hneg => exact ⟨fun _ hrange => hneg hrange.2, fun _ => rfl⟩

end Scientific

/-- **What a double is made of** in any style: digits, a point, an `e` and signs, or a word. -/
lemma Style.mem_render {style : Style} {x : Float} {c : CodePoint} (h : c ∈ style.render x) :
    (c.isDigit ∨ c ∈ Text.ofString ".e+-") ∨
      c ∈ style.nan ∨ c ∈ style.infinity ∨ c ∈ style.negativeInfinity := by
  rw [Style.render] at h
  cases hexact : Exact.ofFloat x with
  | nan =>
    rw [hexact] at h
    exact .inr (.inl h)
  | infinite negative =>
    rw [hexact] at h
    cases negative with
    | false => exact .inr (.inr (.inl h))
    | true => exact .inr (.inr (.inr h))
  | finite negative significand exponent =>
    rw [hexact] at h
    refine .inl ?_
    have hdigits : ∀ c ∈ (shortest significand exponent).digits, c.isDigit := fun c =>
      isDigit_of_mem_shortest
    have hmagnitude (hc : c ∈ (if significand = 0 then Text.ofString "0.0"
        else style.layOut (shortest significand exponent))) :
        c.isDigit ∨ c ∈ Text.ofString ".e+-" := by
      split at hc
      · have hall : ∀ c ∈ Text.ofString "0.0", c.isDigit ∨ c ∈ Text.ofString ".e+-" := by decide
        exact hall c hc
      · rw [Style.layOut] at hc
        split at hc
        · refine (Scientific.mem_positional hdigits hc).imp_right fun hpoint => ?_
          rw [hpoint]
          decide
        · exact Scientific.mem_exponential hdigits hc
    cases negative with
    | false => exact hmagnitude h
    | true =>
      have hminus : ∀ c ∈ Text.ofString "-", c ∈ Text.ofString ".e+-" := by decide
      rcases List.mem_append.1 h with hc | hc
      · exact .inr (hminus c hc)
      · exact hmagnitude hc

end Decimal

end OnePage
