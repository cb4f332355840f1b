import Mathlib
import OnePage.Text.CodePoint

/-!
# Searching a text

What the searches on texts find, said with concatenations.

* `Text.after?_eq_some_iff` — what follows a start.
* `Text.Barren` — a stretch of text in which a pattern does not begin, whatever part of it would lie
  in the text behind.  The first occurrence of the pattern lies behind every barren stretch:
  `Text.replaceFirst_append_of_barren`.
* `Text.Straddles` — an occurrence that begins in one text and ends in the next.  A text is barren
  if the pattern neither occurs in it nor straddles its end.
* `Text.cutAt?_eq_none_iff` and `Text.cutAt?_append_of_eq_some` — the first occurrence in a text,
  and in a longer one.
* `Text.infix_append_iff_of_foreign` — a pattern is not found across a text that is foreign to it.
* `Text.afterEach` — what follows each occurrence; in two texts, `Text.afterEach_append`, these are
  the occurrences in both, if none straddles.
* `Text.not_mem_of_mem_splitOn` and `Text.splitOn_of_not_mem` — the pieces of a text are the longest
  ones without the separator.
* `Text.splitOn_join` and `Text.mem_join` — splitting undoes joining, and joining adds nothing but
  the separator.
-/

namespace OnePage

namespace Text

lemma after?_eq_some_iff {start text rest : Text} :
    after? start text = some rest ↔ text = start ++ rest := by
  induction start generalizing text with
  | nil => simp [after?, eq_comm]
  | cons s start ih =>
    cases text with
    | nil => simp [after?]
    | cons c text =>
      rw [after?]
      split_ifs with h
      · simp [h, ih]
      · simp [Ne.symm h]

lemma after?_append (start rest : Text) : after? start (start ++ rest) = some rest :=
  after?_eq_some_iff.2 rfl

lemma after?_eq_none_iff {start text : Text} : after? start text = none ↔ ¬ start <+: text := by
  rw [Option.eq_none_iff_forall_ne_some]
  constructor
  · rintro h ⟨rest, rfl⟩
    exact h rest (after?_append start rest)
  · intro h rest hrest
    exact h ⟨rest, (after?_eq_some_iff.1 hrest).symm⟩

/-! ## Stretches without an occurrence -/

/-- **Barren stretches.**  Nowhere in `front`, with `rest` behind it, does `pattern` begin. -/
def Barren (pattern front rest : Text) : Prop :=
  ∀ v, v ≠ [] → v <:+ front → ¬ pattern <+: v ++ rest

lemma barren_nil (pattern rest : Text) : Barren pattern [] rest := by
  intro v hv hsuffix
  exact absurd (List.suffix_nil.1 hsuffix) hv

lemma barren_cons {pattern front rest : Text} {c : CodePoint} :
    Barren pattern (c :: front) rest ↔
      ¬ pattern <+: c :: (front ++ rest) ∧ Barren pattern front rest := by
  constructor
  · intro h
    refine ⟨h (c :: front) (by simp) (List.suffix_refl _), fun v hv hsuffix => ?_⟩
    exact h v hv (hsuffix.trans (List.suffix_cons c front))
  · rintro ⟨hhere, hlater⟩ v hv hsuffix
    rcases List.suffix_cons_iff.1 hsuffix with rfl | hsuffix
    · exact hhere
    · exact hlater v hv hsuffix

/-- A stretch is barren if the pattern begins with something that does not occur in it. -/
lemma barren_of_not_mem {c : CodePoint} {pattern front : Text} (rest : Text) (h : c ∉ front) :
    Barren (c :: pattern) front rest := by
  intro v hv hsuffix hbegins
  cases v with
  | nil => exact hv rfl
  | cons x v =>
    rw [List.cons_append, List.cons_prefix_cons] at hbegins
    exact h (hsuffix.subset (by simp [hbegins.1]))

/-- An occurrence that begins in one text and ends in the next. -/
def Straddles (pattern front rest : Text) : Prop :=
  ∃ v w, v ≠ [] ∧ w ≠ [] ∧ pattern = v ++ w ∧ v <:+ front ∧ w <+: rest

/-- A text is barren if the pattern neither occurs in it nor begins in it and ends behind it. -/
lemma barren_of_not_infix_of_not_straddles {pattern front rest : Text}
    (hoccurs : ¬ pattern <:+: front) (hstraddles : ¬ Straddles pattern front rest) :
    Barren pattern front rest := by
  intro v hv hsuffix hbegins
  rcases List.prefix_or_prefix_of_prefix hbegins (List.prefix_append v rest) with hshort | hlong
  · exact hoccurs (hshort.isInfix.trans hsuffix.isInfix)
  · obtain ⟨w, rfl⟩ := hlong
    cases w with
    | nil => exact hoccurs (by simpa using hsuffix.isInfix)
    | cons c w =>
      have hrest : c :: w <+: rest := (List.prefix_append_right_inj v).1 hbegins
      exact hstraddles ⟨v, c :: w, hv, by simp, rfl, hsuffix, hrest⟩

/-- Nothing straddles the end of a text that ends with what can only end the pattern. -/
lemma not_straddles_of_dropLast {pattern front : Text}
    (h : ∀ c ∈ front.getLast?, c ∉ pattern.dropLast) (rest : Text) :
    ¬ Straddles pattern front rest := by
  rintro ⟨v, w, hv, hw, rfl, ⟨start, rfl⟩, -⟩
  have hlast : v.getLast hv ∈ (start ++ v).getLast? := by
    rw [List.getLast?_append_of_ne_nil _ hv, List.getLast?_eq_some_getLast hv]
    rfl
  rw [List.dropLast_append_of_ne_nil hw] at h
  exact h _ hlast (List.mem_append_left _ (List.getLast_mem hv))

/-- Nothing straddles the beginning of a text that begins with what can only begin the pattern. -/
lemma not_straddles_of_tail {pattern rest : Text} (front : Text)
    (h : ∀ c ∈ rest.head?, c ∉ pattern.tail) : ¬ Straddles pattern front rest := by
  rintro ⟨v, w, hv, hw, rfl, -, ⟨left, rfl⟩⟩
  obtain ⟨c, w, rfl⟩ := List.exists_cons_of_ne_nil hw
  rw [List.tail_append_of_ne_nil hv] at h
  exact h c rfl (by simp)

/-- Nothing straddles the end of a text that ends with something foreign to the pattern. -/
lemma not_straddles_of_getLast? {pattern front : Text}
    (h : ∀ c ∈ front.getLast?, c ∉ pattern) (rest : Text) : ¬ Straddles pattern front rest :=
  not_straddles_of_dropLast (fun c hc hmem => h c hc (List.mem_of_mem_dropLast hmem)) rest

/-- Nothing straddles the beginning of a text that begins with something foreign to the pattern. -/
lemma not_straddles_of_head? {pattern rest : Text} (front : Text)
    (h : ∀ c ∈ rest.head?, c ∉ pattern) : ¬ Straddles pattern front rest :=
  not_straddles_of_tail front fun c hc hmem => h c hc (List.mem_of_mem_tail hmem)

/-- What straddles the end of a text with more in front of it straddles the end of both, or occurs
in them. -/
lemma not_straddles_append {pattern front middle rest : Text}
    (hoccurs : ¬ pattern <:+: front ++ middle)
    (hstraddles : ¬ Straddles pattern (front ++ middle) rest) :
    ¬ Straddles pattern front (middle ++ rest) := by
  rintro ⟨v, w, hv, hw, rfl, ⟨start, rfl⟩, hprefix⟩
  rcases List.prefix_or_prefix_of_prefix hprefix (List.prefix_append middle rest) with
    ⟨left, rfl⟩ | ⟨u, rfl⟩
  · exact hoccurs ⟨start, left, by simp⟩
  · cases u with
    | nil => exact hoccurs ⟨start, [], by simp⟩
    | cons c u =>
      have hrest : c :: u <+: rest := (List.prefix_append_right_inj middle).1 hprefix
      exact hstraddles ⟨v ++ middle, c :: u, by simp [hv], by simp, by simp,
        ⟨start, by simp⟩, hrest⟩

lemma cutAt?_append_of_barren {pattern front rest : Text} (h : Barren pattern front rest) :
    cutAt? pattern (front ++ rest) =
      (cutAt? pattern rest).map fun (before, after) => (front ++ before, after) := by
  induction front with
  | nil => simp
  | cons c front ih =>
    rw [barren_cons] at h
    rw [List.cons_append, cutAt?, after?_eq_none_iff.2 h.1, ih h.2]
    cases cutAt? pattern rest <;> rfl

lemma cutAt?_self_append {pattern : Text} (rest : Text) :
    cutAt? pattern (pattern ++ rest) = some ([], rest) := by
  cases h : pattern ++ rest with
  | nil =>
    obtain ⟨rfl, rfl⟩ := List.append_eq_nil_iff.1 h
    rfl
  | cons c text => rw [cutAt?, ← h, after?_append]

/-- A cut takes an occurrence out. -/
lemma eq_of_cutAt?_eq_some {pattern text before after : Text}
    (h : cutAt? pattern text = some (before, after)) : text = before ++ pattern ++ after := by
  induction text generalizing before with
  | nil =>
    obtain ⟨rest, hrest, heq⟩ := Option.map_eq_some_iff.1 h
    obtain ⟨rfl, rfl⟩ := Prod.mk.inj heq
    exact after?_eq_some_iff.1 hrest
  | cons c text ih =>
    rw [cutAt?] at h
    split at h
    · next rest hrest =>
      obtain ⟨rfl, rfl⟩ := Prod.mk.inj (Option.some.inj h)
      exact after?_eq_some_iff.1 hrest
    · obtain ⟨⟨front, rest⟩, hcut, heq⟩ := Option.map_eq_some_iff.1 h
      obtain ⟨rfl, rfl⟩ := Prod.mk.inj heq
      rw [ih hcut]
      simp

/-- There is no cut exactly if the pattern does not occur. -/
lemma cutAt?_eq_none_iff {pattern text : Text} :
    cutAt? pattern text = none ↔ ¬ pattern <:+: text := by
  induction text with
  | nil => rw [cutAt?, Option.map_eq_none_iff, after?_eq_none_iff, List.prefix_nil, List.infix_nil]
  | cons c text ih =>
    rw [cutAt?, List.infix_cons_iff, not_or, ← ih, ← after?_eq_none_iff]
    cases after? pattern (c :: text) <;> simp

/-- What is behind the first occurrence does not matter. -/
lemma cutAt?_append_of_eq_some {pattern front before after : Text}
    (h : cutAt? pattern front = some (before, after)) (rest : Text) :
    cutAt? pattern (front ++ rest) = some (before, after ++ rest) := by
  induction front generalizing before with
  | nil =>
    obtain ⟨left, hleft, heq⟩ := Option.map_eq_some_iff.1 h
    obtain ⟨rfl, rfl⟩ := Prod.mk.inj heq
    obtain ⟨rfl, rfl⟩ := List.append_eq_nil_iff.1 (after?_eq_some_iff.1 hleft).symm
    exact cutAt?_self_append rest
  | cons c front ih =>
    rw [cutAt?] at h
    split at h
    · next left hleft =>
      obtain ⟨rfl, rfl⟩ := Prod.mk.inj (Option.some.inj h)
      rw [after?_eq_some_iff.1 hleft, List.append_assoc]
      exact cutAt?_self_append _
    · next hnone =>
      obtain ⟨⟨start, left⟩, hcut, heq⟩ := Option.map_eq_some_iff.1 h
      obtain ⟨rfl, rfl⟩ := Prod.mk.inj heq
      have hlater : after? pattern (c :: (front ++ rest)) = none := by
        -- the pattern is no longer than the front, in which it occurs
        rw [after?_eq_none_iff] at hnone ⊢
        have hlength : pattern.length ≤ (c :: front).length := by
          rw [eq_of_cutAt?_eq_some hcut]
          simp only [List.length_cons, List.length_append]
          omega
        exact fun hbegins => hnone <|
          List.prefix_of_prefix_length_le hbegins (List.prefix_append (c :: front) rest) hlength
      rw [List.cons_append, cutAt?, hlater, ih hcut]
      rfl

/-- The first occurrence lies behind a barren stretch. -/
lemma replaceFirst_append_of_barren {pattern front rest : Text} (replacement : Text)
    (h : Barren pattern front rest) :
    replaceFirst pattern replacement (front ++ rest) =
      front ++ replaceFirst pattern replacement rest := by
  rw [replaceFirst, replaceFirst, cutAt?_append_of_barren h]
  cases cutAt? pattern rest <;> simp

lemma replaceFirst_self_append (pattern replacement rest : Text) :
    replaceFirst pattern replacement (pattern ++ rest) = replacement ++ rest := by
  rw [replaceFirst, cutAt?_self_append]
  rfl

lemma replaceFirst_nil {pattern : Text} (replacement : Text) (h : pattern ≠ []) :
    replaceFirst pattern replacement [] = [] := by
  cases pattern with
  | nil => exact absurd rfl h
  | cons c pattern => rfl

/-! ## Texts without an occurrence -/

/-- A pattern is not found across a text that is foreign to it. -/
lemma infix_append_iff_of_foreign {pattern s foreign t : Text} (h : ∀ c ∈ foreign, c ∉ pattern)
    (hforeign : foreign ≠ []) :
    pattern <:+: s ++ (foreign ++ t) ↔ pattern <:+: s ∨ pattern <:+: t := by
  constructor
  · rw [← not_imp_not, not_or]
    rintro ⟨hs, ht⟩
    obtain ⟨c, rest, rfl⟩ := List.exists_cons_of_ne_nil hforeign
    have hfirst : Barren pattern s (c :: rest ++ t) := by
      refine barren_of_not_infix_of_not_straddles hs (not_straddles_of_head? s ?_)
      simpa using h c List.mem_cons_self
    have hsecond : Barren pattern (c :: rest) t := by
      cases pattern with
      | nil => exact absurd List.nil_infix hs
      | cons p pattern => exact barren_of_not_mem t fun hp => h p hp List.mem_cons_self
    rw [← cutAt?_eq_none_iff, cutAt?_append_of_barren hfirst, cutAt?_append_of_barren hsecond,
      cutAt?_eq_none_iff.2 ht]
    rfl
  · rintro (hs | ht)
    · exact hs.trans (List.prefix_append _ _).isInfix
    · exact ht.trans ((List.suffix_append _ _).trans (List.suffix_append _ _)).isInfix

/-! ## Every occurrence -/

/-- **What follows each occurrence** of a pattern, from left to right. -/
def afterEach (pattern : Text) : Text → List Text
  | [] => []
  | c :: text => (after? pattern (c :: text)).toList ++ afterEach pattern text

lemma afterEach_eq_nil_iff {pattern text : Text} (hpattern : pattern ≠ []) :
    afterEach pattern text = [] ↔ ¬ pattern <:+: text := by
  induction text with
  | nil => simp [afterEach, hpattern]
  | cons c text ih =>
    rw [afterEach, List.append_eq_nil_iff, ih, List.infix_cons_iff, not_or, ← after?_eq_none_iff]
    cases after? pattern (c :: text) <;> simp

/-- The occurrences in two texts are those in the one and those in the other, if none straddles. -/
lemma afterEach_append {pattern front rest : Text} (h : ¬ Straddles pattern front rest) :
    afterEach pattern (front ++ rest) =
      (afterEach pattern front).map (· ++ rest) ++ afterEach pattern rest := by
  induction front with
  | nil => rfl
  | cons c front ih =>
    have htail : ¬ Straddles pattern front rest := by
      rintro ⟨v, w, hv, hw, hpattern, hsuffix, hprefix⟩
      exact h ⟨v, w, hv, hw, hpattern, hsuffix.trans (List.suffix_cons c front), hprefix⟩
    have hhere : after? pattern (c :: (front ++ rest)) =
        (after? pattern (c :: front)).map (· ++ rest) := by
      cases hafter : after? pattern (c :: front) with
      | some left =>
        rw [← List.cons_append, after?_eq_some_iff.1 hafter, List.append_assoc, after?_append]
        rfl
      | none =>
        rw [after?_eq_none_iff] at hafter
        refine after?_eq_none_iff.2 fun hbegins => ?_
        rcases List.prefix_or_prefix_of_prefix hbegins
          (List.prefix_append (c :: front) rest) with hshort | ⟨w, rfl⟩
        · exact hafter hshort
        · cases w with
          | nil => exact hafter (by simp)
          | cons d w =>
            have hrest : d :: w <+: rest := (List.prefix_append_right_inj (c :: front)).1 hbegins
            exact h ⟨c :: front, d :: w, by simp, by simp, rfl, List.suffix_refl _, hrest⟩
    rw [List.cons_append, afterEach, afterEach, hhere, ih htail]
    cases after? pattern (c :: front) <;> simp

/-- A pattern that begins with what is not in the text in front occurs behind it only. -/
lemma afterEach_append_of_not_mem {c : CodePoint} {pattern front : Text} (h : c ∉ front)
    (rest : Text) :
    afterEach (c :: pattern) (front ++ rest) = afterEach (c :: pattern) rest := by
  induction front with
  | nil => rfl
  | cons x front ih =>
    simp only [List.mem_cons, not_or] at h
    rw [List.cons_append, afterEach, after?, if_neg h.1, ih h.2]
    rfl

/-- A pattern that begins with what it does not hold elsewhere occurs once in itself. -/
lemma afterEach_self_append {c : CodePoint} {pattern : Text} (h : c ∉ pattern) (rest : Text) :
    afterEach (c :: pattern) (c :: pattern ++ rest) = rest :: afterEach (c :: pattern) rest := by
  have hbegins : after? (c :: pattern) (c :: (pattern ++ rest)) = some rest :=
    after?_append (c :: pattern) rest
  have habsent : afterEach (c :: pattern) pattern = [] :=
    (afterEach_eq_nil_iff (by simp)).2 fun hoccurs => h (hoccurs.subset (by simp))
  have hbehind : ¬ Straddles (c :: pattern) pattern rest := by
    rintro ⟨v, w, hv, -, hpattern, hsuffix, -⟩
    obtain ⟨d, v, rfl⟩ := List.exists_cons_of_ne_nil hv
    obtain ⟨rfl, -⟩ := List.cons.inj hpattern
    exact h (hsuffix.subset (by simp))
  rw [List.cons_append, afterEach, hbegins, afterEach_append hbehind, habsent]
  rfl

/-! ## Pieces -/

/-- No piece of a text holds the separator. -/
lemma not_mem_of_mem_splitOn {separator : CodePoint} {text piece : Text}
    (h : piece ∈ splitOn separator text) : separator ∉ piece := by
  induction text generalizing piece with
  | nil =>
    obtain rfl : piece = [] := by simpa [splitOn] using h
    simp
  | cons c text ih =>
    rw [splitOn] at h
    split at h
    · rcases List.mem_cons.1 h with rfl | h
      · simp
      · exact ih h
    · next hc =>
      split at h
      · obtain rfl : piece = [c] := by simpa using h
        simpa using Ne.symm hc
      · next first pieces hsplit =>
        rcases List.mem_cons.1 h with rfl | h
        · have hfirst : separator ∉ first := ih (by simp [hsplit])
          simpa using ⟨Ne.symm hc, hfirst⟩
        · exact ih (by simp [hsplit, h])

/-- A text without the separator is one piece. -/
lemma splitOn_of_not_mem {separator : CodePoint} {text : Text} (h : separator ∉ text) :
    splitOn separator text = [text] := by
  induction text with
  | nil => rfl
  | cons c text ih =>
    simp only [List.mem_cons, not_or] at h
    rw [splitOn, if_neg (Ne.symm h.1), ih h.2]

/-- A piece without the separator is split off. -/
lemma splitOn_append {separator : CodePoint} {piece : Text} (h : separator ∉ piece) (rest : Text) :
    splitOn separator (piece ++ separator :: rest) = piece :: splitOn separator rest := by
  induction piece with
  | nil => simp [splitOn]
  | cons c piece ih =>
    simp only [List.mem_cons, not_or] at h
    rw [List.cons_append, splitOn, if_neg (Ne.symm h.1), ih h.2]

/-- Parts without the separator are found again when they have been joined. -/
lemma splitOn_join {separator : CodePoint} {parts : List Text} (hne : parts ≠ [])
    (h : ∀ part ∈ parts, separator ∉ part) :
    splitOn separator (join [separator] parts) = parts := by
  induction parts with
  | nil => exact absurd rfl hne
  | cons part parts ih =>
    have hpart : separator ∉ part := h part (by simp)
    cases parts with
    | nil => exact splitOn_of_not_mem hpart
    | cons next parts =>
      have hrest := ih (by simp) fun part hmem => h part (List.mem_cons_of_mem _ hmem)
      rw [join, List.append_assoc, List.singleton_append, splitOn_append hpart, hrest]
      simp

/-- What is in joined parts is in one of them or separates them. -/
lemma mem_join {separator : Text} {parts : List Text} {c : CodePoint}
    (h : c ∈ join separator parts) : c ∈ separator ∨ ∃ part ∈ parts, c ∈ part := by
  induction parts with
  | nil => simp [join] at h
  | cons part parts ih =>
    cases parts with
    | nil => exact .inr ⟨part, by simp, h⟩
    | cons next parts =>
      rw [join] at h
      · rcases List.mem_append.1 h with h | h
        · rcases List.mem_append.1 h with h | h
          · exact .inr ⟨part, by simp, h⟩
          · exact .inl h
        · refine (ih h).imp_right ?_
          rintro ⟨other, hother, hc⟩
          exact ⟨other, by simp [hother], hc⟩
      · simp

lemma infix_join {separator : Text} {part : Text} {parts : List Text} (h : part ∈ parts) :
    part <:+: join separator parts := by
  induction parts with
  | nil => simp at h
  | cons first parts ih =>
    cases parts with
    | nil =>
      obtain rfl : part = first := by simpa using h
      exact List.infix_refl _
    | cons second parts =>
      rw [join]
      · rcases List.mem_cons.1 h with rfl | h
        · exact (List.prefix_append _ _).isInfix.trans (List.prefix_append _ _).isInfix
        · exact (ih h).trans (List.suffix_append _ _).isInfix
      · simp

end Text

end OnePage
