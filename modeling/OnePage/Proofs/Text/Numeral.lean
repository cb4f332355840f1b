import Mathlib
import OnePage.Text.Numeral

/-!
# What numerals are

A number has one numeral, and a text can be told to be one without knowing of which number.

* `Numeral.value_ofNat` — the numeral of a number stands for that number, so that two numbers never
  share one.
* `Numeral.isCanonical_iff` — the canonical texts are the numerals.
* `Numeral.length_ofNat_le_iff` and `Numeral.read_ofNat` — how long numerals are, and which of them
  can be read.
* `Numeral.value_zeros_append`, `Numeral.value_append_zeros`, `Numeral.value_lt` and
  `Numeral.pow_le_value` — what a run of digits stands for that may begin or end with zeros.
-/

namespace OnePage

namespace Numeral

/-- The digit for nothing. -/
abbrev zero : CodePoint := CodePoint.ofChar '0'

/-! ## From numbers to numerals -/

/-- A numeral is made of digits. -/
lemma isDigit_of_mem_ofNat {n : Nat} {c : CodePoint} (h : c ∈ ofNat n) : c.isDigit := by
  obtain ⟨d, hd, rfl⟩ := List.mem_map.1 h
  have hdigit := Nat.isDigit_of_mem_toDigits (by decide) (by decide) hd
  rw [Char.isDigit_iff_toNat] at hdigit
  exact Bool.and_eq_true_iff.2 ⟨decide_eq_true hdigit.1, decide_eq_true hdigit.2⟩

lemma ofNat_ne_nil (n : Nat) : ofNat n ≠ [] := by
  rw [ofNat, ne_eq, List.map_eq_nil_iff]
  exact Nat.toDigits_ne_nil

/-- A number has at most as many digits as the powers of ten above it allow. -/
lemma length_ofNat_le_iff {n k : Nat} (hk : 0 < k) : (ofNat n).length ≤ k ↔ n < 10 ^ k := by
  rw [ofNat, List.length_map]
  exact Nat.length_toDigits_le_iff (by decide) hk

/-- The digit of a small number. -/
def digit (n : Nat) : CodePoint := CodePoint.ofChar n.digitChar

lemma ofNat_of_lt {n : Nat} (h : n < 10) : ofNat n = [digit n] := by
  rw [ofNat, Nat.toDigits_of_lt_base h]
  rfl

/-- A numeral is continued by one digit. -/
lemma ofNat_append {n d : Nat} (hn : 0 < n) (hd : d < 10) :
    ofNat (10 * n + d) = ofNat n ++ [digit d] := by
  rw [← ofNat_of_lt hd, ofNat, ofNat, ofNat, ← List.map_append,
    Nat.toDigits_append_toDigits (by decide) hn hd]

lemma digitValue_digit : ∀ d < 10, (digit d).digitValue = d := by decide

lemma digit_digitValue {c : CodePoint} (h : c.isDigit) : digit c.digitValue = c := by
  have hall : ∀ n < 10, (digit n).value = 0x30 + n := by decide
  obtain ⟨hlow, hhigh⟩ : 0x30 ≤ c.value ∧ c.value ≤ 0x39 := by
    simpa [CodePoint.isDigit] using h
  have hvalue : (digit c.digitValue).value = c.value := by
    rw [hall _ (by rw [CodePoint.digitValue]; omega), CodePoint.digitValue]
    omega
  cases hc : digit c.digitValue
  cases c
  simpa [hc] using hvalue

lemma digitValue_lt {c : CodePoint} (h : c.isDigit) : c.digitValue < 10 := by
  have hrange : 0x30 ≤ c.value ∧ c.value ≤ 0x39 := by simpa [CodePoint.isDigit] using h
  rw [CodePoint.digitValue]
  omega

/-! ## From digits to numbers -/

@[simp] lemma value_nil : value [] = 0 := rfl

lemma value_concat (text : Text) (c : CodePoint) :
    value (text ++ [c]) = 10 * value text + c.digitValue := by
  simp [value]

/-- Zeros in front do not count. -/
lemma value_zeros_append (n : Nat) (text : Text) :
    value (List.replicate n zero ++ text) = value text := by
  induction n with
  | zero => rfl
  | succ n ih =>
    rw [← ih, List.replicate_succ, List.cons_append, value, List.foldl_cons]
    rfl

/-- Each zero behind a run of digits makes for ten times the number. -/
lemma value_append_zeros (text : Text) (n : Nat) :
    value (text ++ List.replicate n zero) = value text * 10 ^ n := by
  induction n with
  | zero => simp
  | succ n ih =>
    have hzero : zero.digitValue = 0 := by decide
    rw [List.replicate_succ', ← List.append_assoc, value_concat, ih, hzero, pow_succ]
    ring

/-- **The numeral of a number stands for that number.** -/
@[simp] lemma value_ofNat (n : Nat) : value (ofNat n) = n := by
  induction n using Nat.strong_induction_on with
  | _ n ih =>
    by_cases hsmall : n < 10
    · rw [ofNat_of_lt hsmall, ← List.nil_append [digit n], value_concat, value_nil,
        digitValue_digit n hsmall]
      omega
    · have hsplit : 10 * (n / 10) + n % 10 = n := by omega
      have hlast : n % 10 < 10 := by omega
      calc value (ofNat n) = value (ofNat (n / 10) ++ [digit (n % 10)]) := by
            rw [← ofNat_append (by omega) hlast, hsplit]
        _ = 10 * (n / 10) + n % 10 := by
            rw [value_concat, ih _ (by omega), digitValue_digit _ hlast]
        _ = n := hsplit

lemma ofNat_injective {m n : Nat} (h : ofNat m = ofNat n) : m = n := by
  rw [← value_ofNat m, h, value_ofNat]

/-- A run of digits stands for less than the power of ten above it. -/
lemma value_lt {text : Text} (h : ∀ c ∈ text, c.isDigit) : value text < 10 ^ text.length := by
  induction text using List.reverseRecOn with
  | nil => simp
  | append_singleton text c ih =>
    have hfront := ih fun d hd => h d (by simp [hd])
    have hlast := digitValue_lt (h c (by simp))
    rw [value_concat, List.length_append, List.length_singleton, pow_succ]
    omega

/-- A run of digits stands for no less than the power of ten of its first digit, if that is not
zero. -/
lemma pow_le_value {text rest : Text} {first : CodePoint} (h : ∀ c ∈ text, c.isDigit)
    (htext : text = first :: rest) (hfirst : first ≠ zero) :
    10 ^ text.length ≤ 10 * value text := by
  subst htext
  induction rest using List.reverseRecOn with
  | nil =>
    have hdigit := digit_digitValue (h first (by simp))
    have hpos : first.digitValue ≠ 0 := fun hnone => hfirst (by rw [← hdigit, hnone]; rfl)
    have hvalue : value [first] = first.digitValue := by simp [value]
    rw [List.length_singleton, hvalue]
    omega
  | append_singleton rest c ih =>
    have hfront := ih fun d hd => h d (by rw [← List.cons_append]; exact List.mem_append_left _ hd)
    rw [← List.cons_append, value_concat, List.length_append, List.length_singleton, pow_succ]
    omega

/-! ## Canonical texts -/

/-- A text is canonical if it holds nothing but digits, and begins with a zero only if that is all
of it. -/
lemma isCanonical_eq_true_iff {text : Text} : isCanonical text ↔
    text ≠ [] ∧ (∀ c ∈ text, c.isDigit) ∧ (text.head? = some zero → text = [zero]) := by
  cases text with
  | nil => simp [isCanonical]
  | cons c text =>
    rw [isCanonical, Bool.and_eq_true, List.all_eq_true, and_iff_right (List.cons_ne_nil c text)]
    by_cases hc : c = zero
    · simp [hc]
    · simp [hc]

/-- Numerals are canonical. -/
lemma isCanonical_ofNat (n : Nat) : isCanonical (ofNat n) := by
  have hdigits : ∀ c ∈ ofNat n, c.isDigit := fun c => isDigit_of_mem_ofNat
  refine isCanonical_eq_true_iff.2 ⟨ofNat_ne_nil n, hdigits, ?_⟩
  induction n using Nat.strong_induction_on with
  | _ n ih =>
    intro hhead
    by_cases hsmall : n < 10
    · rw [ofNat_of_lt hsmall] at hhead ⊢
      rw [Option.some.inj hhead]
    · -- what is in front of the last digit begins with the same digit, so is zero itself
      have hsplit : 10 * (n / 10) + n % 10 = n := by omega
      have hlong := ofNat_append (n := n / 10) (d := n % 10) (by omega) (by omega)
      rw [hsplit] at hlong
      rw [hlong, List.head?_append_of_ne_nil _ (ofNat_ne_nil _)] at hhead
      have hzero := ih (n / 10) (by omega) (fun c => isDigit_of_mem_ofNat) hhead
      have hvalue := congrArg value hzero
      rw [value_ofNat] at hvalue
      have hnone : value [zero] = 0 := rfl
      omega

/-- A canonical text is the numeral of what it stands for. -/
lemma ofNat_value {text : Text} (h : isCanonical text) : ofNat (value text) = text := by
  induction text using List.reverseRecOn with
  | nil => simp [isCanonical] at h
  | append_singleton text c ih =>
    obtain ⟨-, hdigits, hhead⟩ := isCanonical_eq_true_iff.1 h
    have hc : c.isDigit := hdigits c (by simp)
    rw [value_concat]
    by_cases hnil : text = []
    · rw [hnil, value_nil, Nat.mul_zero, Nat.zero_add, ofNat_of_lt (digitValue_lt hc),
        digit_digitValue hc, List.nil_append]
    · have hfront : isCanonical text := by
        refine isCanonical_eq_true_iff.2 ⟨hnil, fun d hd => hdigits d (by simp [hd]), ?_⟩
        intro hzero
        rw [List.head?_append_of_ne_nil _ hnil] at hhead
        have hlength := congrArg List.length (hhead hzero)
        simp only [List.length_append, List.length_singleton] at hlength
        exact absurd (List.length_pos_of_ne_nil hnil) (by omega)
      have hpos : 0 < value text := by
        rw [Nat.pos_iff_ne_zero]
        intro hzero
        have htext := ih hfront
        rw [hzero] at htext
        have hbegins : (text ++ [c]).head? = some zero := by
          rw [List.head?_append_of_ne_nil _ hnil, ← htext]
          rfl
        have hlength := congrArg List.length (hhead hbegins)
        simp only [List.length_append, List.length_singleton] at hlength
        exact absurd (List.length_pos_of_ne_nil hnil) (by omega)
      rw [ofNat_append hpos (digitValue_lt hc), ih hfront, digit_digitValue hc]

/-- **The canonical texts are the numerals.** -/
lemma isCanonical_iff {text : Text} : isCanonical text ↔ ∃ n, text = ofNat n :=
  ⟨fun h => ⟨value text, (ofNat_value h).symm⟩, fun ⟨n, h⟩ => h ▸ isCanonical_ofNat n⟩

/-- A numeral that is not too long is read. -/
lemma read_ofNat {n : Nat} (h : n < 10 ^ digitLimit) : read (ofNat n) = .ok n := by
  have hlength : (ofNat n).length ≤ digitLimit := (length_ofNat_le_iff (by decide)).2 h
  rw [read, if_neg (by omega), value_ofNat]

end Numeral

end OnePage
