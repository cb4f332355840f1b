import OnePage.Json.Reader
import OnePage.Proofs.Outcome
import OnePage.Proofs.Template.Resolve

/-!
# When a placeholder cannot be looked up

A placeholder for which there is nothing stays where it is.  Two kinds of placeholder do not even
get that far: a path that stands at an array and goes on with a numeral of more digits than are
read, and a path that leads to a value in which containers lie deeper than can be written.

* `Overruns` — a path has such a step.  `lookup_eq_error_iff` says that this is all that can go
  wrong on a path, by induction on its steps.
* `IsBeyond` — a value lies so deep.  `embed_eq_error_iff` says that every other one can be written.
* `resolveTokens_eq_error_iff` — resolving stops at the first token that cannot be looked up.
* **`resolve_eq_ok_iff_forall_shown`** — a template is resolved, with every placeholder that is
  missed left and reported, exactly if no path in it has such a step or leads to such a value.
-/

namespace OnePage

namespace Template

open Json (Encoder Value)

variable {data : Value} {step : Text} {path : List Text} {digits : Nat}

/-! ## Along a path -/

/-- **The path stands at an array and goes on with a numeral of too many digits.** -/
def Overruns (data : Value) (path : List Text) (digits : Nat) : Prop :=
  ∃ front step rest items, path = front ++ step :: rest ∧
    lookup data front = .ok (some (.array items)) ∧
    Numeral.isCanonical step ∧ step.length = digits ∧ Numeral.digitLimit < digits

/-- A path is followed one step at a time. -/
lemma lookup_cons (data : Value) (step : Text) (path : List Text) :
    lookup data (step :: path) =
      match lookup data [step] with
      | .error fault => .error fault
      | .ok none => .ok none
      | .ok (some value) => lookup value path := by
  cases data with
  | object members => cases hvalue : Keyed.get? members step <;> simp [lookup, hvalue]
  | array items =>
    cases hcanonical : Numeral.isCanonical step with
    | false => simp [lookup, hcanonical]
    | true =>
      cases hread : Numeral.read step with
      | error fault => simp [lookup, hcanonical, hread]
      | ok index => cases hvalue : items[index]? <;> simp [lookup, hcanonical, hread, hvalue]
  | _ => simp [lookup]

/-- A single step fails at an array alone. -/
lemma lookup_singleton_eq_error_iff : lookup data [step] = .error ⟨digits⟩ ↔
    (∃ items, data = .array items) ∧
      Numeral.isCanonical step ∧ step.length = digits ∧ Numeral.digitLimit < digits := by
  cases data with
  | object members => cases hvalue : Keyed.get? members step <;> simp [lookup, hvalue]
  | array items =>
    cases hcanonical : Numeral.isCanonical step with
    | false => simp [lookup, hcanonical]
    | true =>
      by_cases hlong : Numeral.digitLimit < step.length
      · have hread : Numeral.read step = .error ⟨step.length⟩ := if_pos hlong
        have hgreater (heq : step.length = digits) : Numeral.digitLimit < digits := heq ▸ hlong
        simpa [lookup, hcanonical, hread] using hgreater
      · have hread : Numeral.read step = .ok (Numeral.value step) := if_neg hlong
        have hle (heq : step.length = digits) : digits ≤ Numeral.digitLimit := by omega
        cases hvalue : items[Numeral.value step]? <;>
          simpa [lookup, hcanonical, hread, hvalue] using hle
  | _ => simp [lookup]

lemma not_overruns_nil : ¬ Overruns data [] digits := by
  rintro ⟨front, step, rest, items, hpath, -⟩
  simp at hpath

/-- A path overruns at its first step or behind it. -/
lemma overruns_cons : Overruns data (step :: path) digits ↔
    lookup data [step] = .error ⟨digits⟩ ∨
      ∃ value, lookup data [step] = .ok (some value) ∧ Overruns value path digits := by
  rw [lookup_singleton_eq_error_iff]
  constructor
  · rintro ⟨front, later, rest, items, hpath, hfront, hlong⟩
    cases front with
    | nil =>
      obtain ⟨rfl, rfl⟩ := List.cons.inj hpath
      obtain rfl : data = .array items := by simpa [lookup] using hfront
      exact .inl ⟨⟨items, rfl⟩, hlong⟩
    | cons first front =>
      obtain ⟨rfl, rfl⟩ := List.cons.inj hpath
      rw [lookup_cons] at hfront
      split at hfront
      · simp at hfront
      · simp at hfront
      · next value hvalue =>
        exact .inr ⟨value, hvalue, front, later, rest, items, rfl, hfront, hlong⟩
  · rintro (⟨⟨items, rfl⟩, hlong⟩ | ⟨value, hvalue, front, later, rest, items, rfl, hfront, hlong⟩)
    · exact ⟨[], step, path, items, rfl, by simp [lookup], hlong⟩
    · have hwalk : lookup data (step :: front) = .ok (some (.array items)) := by
        rw [lookup_cons, hvalue]
        exact hfront
      exact ⟨step :: front, later, rest, items, rfl, hwalk, hlong⟩

/-- **All that can go wrong on a path** is an index with too many digits. -/
lemma lookup_eq_error_iff : lookup data path = .error ⟨digits⟩ ↔ Overruns data path digits := by
  induction path generalizing data with
  | nil => exact iff_of_false (by simp [lookup]) not_overruns_nil
  | cons step path ih =>
    rw [lookup_cons, overruns_cons]
    cases hstep : lookup data [step] with
    | error fault => simp
    | ok found =>
      cases found with
      | none => simp
      | some value => simpa using ih

/-! ## At the end of a path -/

/-- **A value that cannot be written**: more containers lie inside each other in it than the
standard encoder follows, and the fast one refuses it. -/
def IsBeyond (encoder : Encoder) (v : Value) : Prop :=
  (∀ encode ∈ encoder.fast?, encode v = none) ∧ encoder.room < v.depth

/-- Every other value can be written. -/
lemma embed_eq_error_iff {encoder : Encoder} {v : Value} {fault : Json.WriteFault} :
    Json.embed encoder v = .error fault ↔ IsBeyond encoder v := by
  have hstandard : encoder.standardText v = .error fault ↔ encoder.room < v.depth := by
    rw [Encoder.standardText]
    split
    · next hle => simpa using hle
    · next hgt => simpa using Nat.lt_of_not_le hgt
  cases v with
  | array | object =>
    simp only [Json.embed, Encoder.fastText?, Value.isContainer, if_true]
    rw [IsBeyond, ← hstandard]
    cases encoder.fast? with
    | none => simp
    | some encode =>
      simp only [Option.bind_some, Option.mem_some_iff, forall_eq']
      split
      · next hencode => simp [hencode]
      · next hencode => simp [hencode]
  | string => simp [Json.embed, IsBeyond, Value.depth]
  | _ => simp [Json.embed, Encoder.fastText?, Value.isContainer, Encoder.standardText, IsBeyond,
      Value.depth]

/-- **What keeps the value at the end of a path from being shown.** -/
inductive Unshown (sources : Sources) (path : List Text) : ShowFault → Prop
  /-- An index has too many digits. -/
  | digits {digits : Nat} (h : Overruns sources.data path digits) :
    Unshown sources path (.digits ⟨digits⟩)
  /-- The value cannot be written. -/
  | beyond {v : Value} (hfound : lookup sources.data path = .ok (some v))
    (h : IsBeyond sources.encoder v) : Unshown sources path (.unwritable .nesting)

/-! ## In a template -/

variable {sources : Sources} {token : Token}

/-- **When a value is not shown**: it is not found, or it is found and cannot be written. -/
lemma lookupText_eq_error_iff {fault : ShowFault} :
    lookupText sources.encoder sources.data path = .error fault ↔ Unshown sources path fault := by
  rw [lookupText, except_bind_eq_error, mapError_eq_error]
  constructor
  · rintro (⟨⟨digits⟩, hlookup, rfl⟩ | ⟨found, hlookup, hwrite⟩)
    · exact .digits (lookup_eq_error_iff.1 hlookup)
    · cases found with
      | none => cases hwrite
      | some v =>
        rcases except_bind_eq_error.1 hwrite with hembed | ⟨text, -, hdone⟩
        · obtain ⟨⟨⟩, hrefused, rfl⟩ := mapError_eq_error.1 hembed
          exact .beyond (mapError_eq_ok.1 hlookup) (embed_eq_error_iff.1 hrefused)
        · cases hdone
  · rintro (hoverruns | ⟨hfound, hbeyond⟩)
    · exact .inl ⟨_, lookup_eq_error_iff.2 hoverruns, rfl⟩
    · refine .inr ⟨_, mapError_eq_ok.2 hfound, except_bind_eq_error.2 (.inl ?_)⟩
      exact mapError_eq_error.2 ⟨.nesting, embed_eq_error_iff.2 hbeyond, rfl⟩

/-- A token that has no replacement, not even none, is a placeholder whose value is not shown. -/
lemma Token.replacement_eq_error_iff {fault : ShowFault} :
    token.replacement sources = .error fault ↔
      ∃ raw path, token = .data raw path ∧ Unshown sources path fault := by
  cases token with
  | data raw path => simp [replacement, lookupText_eq_error_iff]
  | _ => simp [replacement]

/-- **The first failure**: a step fails in a certain way at one of several items, and at none
before. -/
def FirstFails {ε α β : Type} (step : α → Except ε β) (items : List α) (e : ε) : Prop :=
  ∃ front item rest, items = front ++ item :: rest ∧
    (∀ other ∈ front, ∃ b, step other = .ok b) ∧ step item = .error e

lemma firstFails_cons {ε α β : Type} {step : α → Except ε β} {item : α} {items : List α} {e : ε} :
    FirstFails step (item :: items) e ↔
      step item = .error e ∨ (∃ b, step item = .ok b) ∧ FirstFails step items e := by
  constructor
  · rintro ⟨front, found, rest, hitems, hfront, hfound⟩
    cases front with
    | nil =>
      obtain ⟨rfl, rfl⟩ := List.cons.inj hitems
      exact .inl hfound
    | cons first front =>
      obtain ⟨rfl, rfl⟩ := List.cons.inj hitems
      exact .inr ⟨hfront item (by simp), front, found, rest, rfl,
        fun other hother => hfront other (by simp [hother]), hfound⟩
  · rintro (hitem | ⟨hitem, front, found, rest, rfl, hfront, hfound⟩)
    · exact ⟨[], item, items, rfl, by simp, hitem⟩
    · exact ⟨item :: front, found, rest, rfl, by simpa using ⟨hitem, hfront⟩, hfound⟩

/-- Resolving stops at the first token that cannot be looked up. -/
lemma resolveTokens_eq_error_iff {tokens : List Token} {fault : ShowFault} :
    resolveTokens sources tokens = .error fault ↔
      FirstFails (Token.replacement sources) tokens fault := by
  induction tokens with
  | nil => simp [resolveTokens, FirstFails]
  | cons token tokens ih =>
    rw [resolveTokens, firstFails_cons, ← ih]
    cases token.replacement sources with
    | error other => simp [bind, Except.bind]
    | ok found =>
      cases resolveTokens sources tokens with
      | error other => simp [bind, Except.bind]
      | ok rest => cases found <;> simp [bind, Except.bind, pure, Except.pure]

/-- **When a template is resolved.**  Every placeholder that is found is replaced and every one that
is missed is left and reported, whatever it asks for, exactly if no path stands at an array and goes
on with a numeral of too many digits, and no path leads to a value that cannot be written. -/
theorem resolve_eq_ok_iff_forall_shown (sources : Sources) (template : Text) :
    resolve sources template =
        .ok ⟨(scan template).flatMap (Token.shown sources),
          ((scan template).filter (Token.misses sources)).map Token.text⟩ ↔
      ∀ raw path, .data raw path ∈ scan template →
        (∀ digits, ¬ Overruns sources.data path digits) ∧
        ∀ v, lookup sources.data path = .ok (some v) → ¬ IsBeyond sources.encoder v := by
  rw [resolve_eq_ok_iff, and_iff_left rfl]
  constructor
  · intro hall raw path hmem
    obtain ⟨found, hfound⟩ := hall _ hmem
    have hshown (fault : ShowFault) (hunshown : Unshown sources path fault) : False := by
      rw [Token.replacement_eq_error_iff.2 ⟨raw, path, rfl, hunshown⟩] at hfound
      cases hfound
    exact ⟨fun digits hoverruns => hshown _ (.digits hoverruns),
      fun v hv hbeyond => hshown _ (.beyond hv hbeyond)⟩
  · intro hall token hmem
    cases hreplacement : token.replacement sources with
    | ok found => exact ⟨found, rfl⟩
    | error fault =>
      obtain ⟨raw, path, rfl, hunshown⟩ := Token.replacement_eq_error_iff.1 hreplacement
      obtain ⟨hdigits, hwritten⟩ := hall raw path hmem
      cases hunshown with
      | digits hoverruns => exact absurd hoverruns (hdigits _)
      | beyond hv hbeyond => exact absurd hbeyond (hwritten _ hv)

/-- A numeral of `n` digits. -/
def ones (n : Nat) : Text := List.replicate n (CodePoint.ofChar '1')

lemma not_mem_ones {c : CodePoint} (h : c ≠ CodePoint.ofChar '1') (n : Nat) : c ∉ ones n :=
  fun hmem => h (List.eq_of_mem_replicate hmem)

lemma isCanonical_ones {n : Nat} (h : n ≠ 0) : Numeral.isCanonical (ones n) := by
  obtain ⟨n, rfl⟩ := Nat.exists_eq_succ_of_ne_zero h
  have hdigits : (ones (n + 1)).all CodePoint.isDigit := by
    rw [List.all_eq_true]
    intro c hc
    rw [List.eq_of_mem_replicate hc]
    decide
  unfold Numeral.isCanonical
  rw [hdigits]
  rfl

/-- A placeholder that asks an array for the item at such an index. -/
def onesPlaceholder (n : Nat) : Text := placeholder ("a." ++ ones n)

lemma scan_onesPlaceholder (n : Nat) :
    scan (onesPlaceholder n) = [.data (onesPlaceholder n) ["a", ones n]] := by
  have hfront : Text.ofString "a." = [CodePoint.ofChar 'a', CodePoint.ofChar '.'] := rfl
  have hclose : closeBrace ∉ ones n := not_mem_ones (by decide) n
  have hcontent : IsContent ("a." ++ ones n) := by
    have hnotMem : closeBrace ∉ Text.ofString "a." := by decide
    exact ⟨by simp [hfront], by simp [List.mem_append, hnotMem, hclose]⟩
  have hsplit : Text.splitOn (CodePoint.ofChar '.') (ones n) = [ones n] :=
    Text.splitOn_of_not_mem (not_mem_ones (by decide) n)
  have hclassify (raw : Text) : Token.classify raw ("a." ++ ones n) = .data raw ["a", ones n] := by
    have hheading : Text.after? Token.componentHeading ("a." ++ ones n) = none := rfl
    have hslot : Slot.ofName? ("a." ++ ones n) = none := by
      have hname (slot : Slot) : Text.ofString "a." ++ ones n ≠ slot.name := by
        intro heq
        have hhead : some (CodePoint.ofChar 'a') = slot.name.head? := congrArg List.head? heq
        cases slot <;> exact absurd hhead (by decide)
      rw [Slot.ofName?, if_neg (hname .styles), if_neg (hname .scripts)]
    have hpath : Text.splitOn (CodePoint.ofChar '.') ("a." ++ ones n) =
        [Text.ofString "a", ones n] := by
      rw [hfront, List.cons_append, List.cons_append, List.nil_append, Text.splitOn,
        if_neg (by decide), Text.splitOn, if_pos rfl, hsplit]
      rfl
    rw [Token.classify, hheading, hslot, hpath]
  have hscan := scan_placeholder hcontent []
  rwa [List.append_nil, scan_nil, hclassify] at hscan

/-- Data with an empty array. -/
def emptyArray : Value := .object [("a", .array [])]

/-- **A placeholder that stops everything.**  There is nothing at any index of an empty array; but
instead of being missed, the placeholder keeps the template from being resolved. -/
theorem resolve_onesPlaceholder :
    Json.read Json.usualNesting r#"{"a":[]}"# = .ok emptyArray ∧
      resolve ⟨emptyArray, [], .usual⟩ (onesPlaceholder 4301) = .error (.digits ⟨4301⟩) := by
  have hread : Json.read Json.usualNesting r#"{"a":[]}"# = .ok emptyArray := by cbv
  have hoverruns : Overruns emptyArray ["a", ones 4301] 4301 :=
    ⟨["a"], ones 4301, [], [], rfl, rfl, isCanonical_ones (by decide), List.length_replicate,
      by decide⟩
  have hreplacement : Token.replacement ⟨emptyArray, [], .usual⟩
      (.data (onesPlaceholder 4301) ["a", ones 4301]) = .error (.digits ⟨4301⟩) :=
    Token.replacement_eq_error_iff.2 ⟨_, _, rfl, .digits hoverruns⟩
  refine ⟨hread, ?_⟩
  rw [resolve, scan_onesPlaceholder, resolveTokens, hreplacement]
  rfl

end Template

end OnePage
