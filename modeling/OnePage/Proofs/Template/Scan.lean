import OnePage.Proofs.Text.Search
import OnePage.Template.Scan

/-!
# What scanning a template finds

Scanning is defined by a search from left to right.  This file says what its result *is*, without a
search, and that nothing else is it.

* `IsContent` — what may stand between the braces of a placeholder.
* `scan_placeholder` and `scan_append_of_barren` — a placeholder at the beginning is the first
  token, and a stretch in which no placeholder begins becomes literal text.  All further facts on
  scans are drawn from these two.
* `IsReading` — a decomposition of a text into literals and placeholders in which no placeholder
  has been overlooked.
* **`isReading_iff`** — a text has exactly one reading, and that is its scan.
-/

namespace OnePage

namespace Template

/-! ## Contents -/

/-- A text can stand between the braces of a placeholder: it is not empty and holds no closing
brace. -/
def IsContent (content : Text) : Prop := content ≠ [] ∧ closeBrace ∉ content

instance (content : Text) : Decidable (IsContent content) := by
  unfold IsContent; infer_instance

lemma openBrace_ne_closeBrace : openBrace ≠ closeBrace := by decide

lemma placeholder_eq (content : Text) :
    placeholder content = openBrace :: openBrace :: (content ++ [closeBrace, closeBrace]) := rfl

lemma placeholder_ne_nil (content : Text) : placeholder content ≠ [] := by simp [placeholder_eq]

/-- The content of a placeholder ends at its first closing brace. -/
lemma takeWhile_content {content : Text} (h : IsContent content) (rest : Text) :
    (content ++ closeBrace :: rest).takeWhile (· ≠ closeBrace) = content := by
  rw [List.takeWhile_append_of_pos, List.takeWhile_cons_of_neg, List.append_nil]
  · simp
  · intro c hc
    simpa using fun heq : c = closeBrace => h.2 (heq ▸ hc)

lemma dropWhile_content {content : Text} (h : IsContent content) (rest : Text) :
    (content ++ closeBrace :: rest).dropWhile (· ≠ closeBrace) = closeBrace :: rest := by
  rw [List.dropWhile_append_of_pos, List.dropWhile_cons_of_neg]
  · simp
  · intro c hc
    simpa using fun heq : c = closeBrace => h.2 (heq ▸ hc)

lemma contentAt?_eq_some_iff {text content : Text} :
    contentAt? text = some content ↔ IsContent content ∧ placeholder content <+: text := by
  constructor
  · intro h
    simp only [contentAt?] at h
    split at h
    · simp at h
    · next body hbody =>
      split_ifs at h with hclosed
      obtain ⟨hne, hsome⟩ := hclosed
      obtain ⟨rest, hrest⟩ := Option.isSome_iff_exists.1 hsome
      rw [Text.after?_eq_some_iff] at hbody hrest
      have hbraces := List.takeWhile_append_dropWhile (p := (· ≠ closeBrace)) (l := body)
      have hclose : closeBrace ∉ body.takeWhile (· ≠ closeBrace) :=
        fun hmem => by simpa using List.mem_takeWhile_imp hmem
      rw [Option.some.inj h] at hne hbraces hclose
      refine ⟨⟨hne, hclose⟩, rest, ?_⟩
      rw [hbody, ← hbraces, hrest, placeholder_eq]
      simp
  · rintro ⟨hcontent, rest, rfl⟩
    have hafter : Text.after? [openBrace, openBrace] (placeholder content ++ rest) =
        some (content ++ closeBrace :: closeBrace :: rest) := by
      rw [Text.after?_eq_some_iff]
      simp [placeholder_eq]
    have hclosed : Text.after? [closeBrace, closeBrace] (closeBrace :: closeBrace :: rest) =
        some rest := Text.after?_append [closeBrace, closeBrace] rest
    simp only [contentAt?, hafter, takeWhile_content hcontent, dropWhile_content hcontent, hclosed]
    simp [hcontent.1]

lemma contentAt?_eq_none_iff {text : Text} :
    contentAt? text = none ↔ ∀ content, IsContent content → ¬ placeholder content <+: text := by
  rw [Option.eq_none_iff_forall_ne_some]
  refine forall_congr' fun content => ?_
  rw [Ne, contentAt?_eq_some_iff, not_and]

/-- No placeholder begins in `front` with `rest` behind it. -/
def Sterile (front rest : Text) : Prop :=
  ∀ content, IsContent content → Text.Barren (placeholder content) front rest

lemma sterile_nil (rest : Text) : Sterile [] rest := fun _ _ => Text.barren_nil _ _

lemma sterile_cons {c : CodePoint} {front rest : Text} :
    Sterile (c :: front) rest ↔ contentAt? (c :: (front ++ rest)) = none ∧ Sterile front rest := by
  simp only [Sterile, Text.barren_cons, contentAt?_eq_none_iff]
  exact ⟨fun h => ⟨fun d hd => (h d hd).1, fun d hd => (h d hd).2⟩,
    fun h d hd => ⟨h.1 d hd, h.2 d hd⟩⟩

/-- No placeholder begins where there is no opening brace. -/
lemma sterile_of_not_mem {front : Text} (rest : Text) (h : openBrace ∉ front) :
    Sterile front rest :=
  fun _ _ => Text.barren_of_not_mem rest h

/-! ## The steps of a scan -/

/-- Whether a token is literal text. -/
def Token.isLiteral : Token → Bool
  | literal _ => true
  | _ => false

lemma Token.exists_eq_literal {token : Token} (h : token.isLiteral) : ∃ s, token = .literal s := by
  cases token with
  | literal s => exact ⟨s, rfl⟩
  | _ => exact absurd h (by simp [isLiteral])

lemma Token.isLiteral_classify (raw content : Text) : (classify raw content).isLiteral = false := by
  rw [classify]
  split
  · rfl
  · split <;> rfl

@[simp] lemma Token.text_classify (raw content : Text) : (classify raw content).text = raw := by
  rw [classify]
  split
  · rfl
  · split <;> rfl

@[simp] lemma scan_nil : scan [] = [] := rfl

lemma scanFrom_append (front rest : Text) : scanFrom front.length (front ++ rest) = scan rest := by
  induction front with
  | nil => rfl
  | cons c front ih => exact ih

/-- A placeholder at the beginning is the first token. -/
lemma scan_placeholder {content : Text} (h : IsContent content) (rest : Text) :
    scan (placeholder content ++ rest) =
      .classify (placeholder content) content :: scan rest := by
  have hfound : contentAt? (placeholder content ++ rest) = some content :=
    contentAt?_eq_some_iff.2 ⟨h, List.prefix_append _ _⟩
  have hskip := scanFrom_append (openBrace :: (content ++ [closeBrace, closeBrace])) rest
  have hlength : (openBrace :: (content ++ [closeBrace, closeBrace])).length =
      content.length + 3 := by simp
  rw [hlength] at hskip
  rw [placeholder_eq, List.cons_append] at hfound
  rw [placeholder_eq, List.cons_append, scan, scanFrom, hfound, ← hskip]
  rfl

lemma scan_cons {c : CodePoint} {text : Text} (h : contentAt? (c :: text) = none) :
    scan (c :: text) = addLiteral c (scan text) := by
  rw [scan, scanFrom, h]
  rfl

/-- A stretch in which no placeholder begins becomes literal text. -/
lemma scan_append_of_sterile {front rest : Text} (h : Sterile front rest) :
    scan (front ++ rest) = front.foldr addLiteral (scan rest) := by
  induction front with
  | nil => rfl
  | cons c front ih =>
    rw [sterile_cons] at h
    rw [List.cons_append, scan_cons h.1, ih h.2]
    rfl

/-- Texts are read from the left: a text is empty, or a placeholder and a text, or one code point at
which no placeholder begins and a text. -/
lemma scan_induction {motive : Text → Prop} (nil : motive [])
    (placeholder : ∀ content rest, IsContent content → motive rest →
      motive (placeholder content ++ rest))
    (cons : ∀ c text, contentAt? (c :: text) = none → motive text → motive (c :: text))
    (text : Text) : motive text := by
  induction h : text.length using Nat.strong_induction_on generalizing text with
  | _ n ih =>
    subst h
    cases text with
    | nil => exact nil
    | cons c text =>
      cases hfound : contentAt? (c :: text) with
      | none => exact cons c text hfound (ih _ (by simp) text rfl)
      | some content =>
        obtain ⟨hcontent, rest, hrest⟩ := contentAt?_eq_some_iff.1 hfound
        rw [← hrest]
        refine placeholder content rest hcontent (ih _ ?_ rest rfl)
        rw [← hrest, List.length_append]
        have := List.length_pos_of_ne_nil (placeholder_ne_nil content)
        omega

/-- What is put in front as literal text is one token, unless the next token is literal too. -/
lemma foldr_addLiteral {front : Text} (h : front ≠ []) {tokens : List Token}
    (hhead : ∀ token ∈ tokens.head?, token.isLiteral = false) :
    front.foldr addLiteral tokens = .literal front :: tokens := by
  induction front with
  | nil => exact absurd rfl h
  | cons c front ih =>
    rw [List.foldr_cons]
    cases front with
    | nil =>
      cases tokens with
      | nil => rfl
      | cons token tokens =>
        have := hhead token rfl
        cases token <;> first | rfl | simp [Token.isLiteral] at this
    | cons d front =>
      rw [ih (by simp)]
      rfl

/-- Literal text in front leaves the placeholders behind it alone. -/
lemma filter_foldr_addLiteral (front : Text) (tokens : List Token) :
    (front.foldr addLiteral tokens).filter (!·.isLiteral) = tokens.filter (!·.isLiteral) := by
  induction front with
  | nil => rfl
  | cons c front ih =>
    rw [List.foldr_cons, ← ih]
    cases front.foldr addLiteral tokens with
    | nil => rfl
    | cons token tokens => cases token <;> rfl

/-! ## Readings -/

/-- **Readings of a text.**  Tokens that make up the text, in which no placeholder has been
overlooked. -/
structure IsReading (text : Text) (tokens : List Token) : Prop where
  /-- Together the tokens are the text. -/
  whole : tokens.flatMap Token.text = text
  /-- Every token that is not literal is a placeholder, told by its content. -/
  known : ∀ token ∈ tokens, token.isLiteral = false →
    ∃ content, IsContent content ∧ token = .classify (placeholder content) content
  /-- Literal text is not empty. -/
  filled : ∀ s, .literal s ∈ tokens → s ≠ []
  /-- No literal text comes right after literal text. -/
  apart : tokens.IsChain fun a b => a.isLiteral = false ∨ b.isLiteral = false
  /-- No placeholder begins at a place within literal text, even if it were to go on behind it. -/
  barren : ∀ before s after, tokens = before ++ .literal s :: after →
    Sterile s (after.flatMap Token.text)

namespace IsReading

lemma nil : IsReading [] [] where
  whole := rfl
  known := by simp
  filled := by simp
  apart := .nil
  barren := by simp

lemma tail {text : Text} {token : Token} {tokens : List Token}
    (h : IsReading text (token :: tokens)) : IsReading (tokens.flatMap Token.text) tokens where
  whole := rfl
  known t ht := h.known t (by simp [ht])
  filled s hs := h.filled s (by simp [hs])
  apart := h.apart.tail
  barren before s after hsplit := h.barren (token :: before) s after (by simp [hsplit])

/-- What comes after literal text is a placeholder. -/
lemma head?_tail {text s : Text} {tokens : List Token}
    (h : IsReading text (.literal s :: tokens)) :
    ∀ token ∈ tokens.head?, token.isLiteral = false := by
  intro token htoken
  obtain ⟨rest, rfl⟩ : ∃ rest, tokens = token :: rest := by
    cases tokens <;> simp_all
  simpa [Token.isLiteral] using (List.isChain_cons_cons.1 h.apart).1

/-- Putting a placeholder in front. -/
lemma classify {text content : Text} {tokens : List Token} (hcontent : IsContent content)
    (h : IsReading text tokens) :
    IsReading (placeholder content ++ text)
      (.classify (placeholder content) content :: tokens) where
  whole := by simp [h.whole]
  known token htoken hliteral := by
    rcases List.mem_cons.1 htoken with rfl | htoken
    · exact ⟨content, hcontent, rfl⟩
    · exact h.known token htoken hliteral
  filled s hs := by
    rcases List.mem_cons.1 hs with hs | hs
    · have := Token.isLiteral_classify (placeholder content) content
      simp [← hs, Token.isLiteral] at this
    · exact h.filled s hs
  apart := by
    refine List.isChain_cons.2 ⟨fun _ _ => .inl (Token.isLiteral_classify _ _), h.apart⟩
  barren before s after hsplit := by
    cases before with
    | nil =>
      have := Token.isLiteral_classify (placeholder content) content
      simp [(List.cons.inj hsplit).1, Token.isLiteral] at this
    | cons token before => exact h.barren before s after (List.cons.inj hsplit).2

/-- Putting literal text in front of something that is not literal. -/
lemma literal {s text : Text} {tokens : List Token} (hs : s ≠ [])
    (hhead : ∀ token ∈ tokens.head?, token.isLiteral = false) (hsterile : Sterile s text)
    (h : IsReading text tokens) : IsReading (s ++ text) (.literal s :: tokens) where
  whole := by simp [h.whole, Token.text]
  known token htoken hliteral := by
    rcases List.mem_cons.1 htoken with rfl | htoken
    · simp [Token.isLiteral] at hliteral
    · exact h.known token htoken hliteral
  filled s' hs' := by
    rcases List.mem_cons.1 hs' with heq | hs'
    · exact (Token.literal.inj heq) ▸ hs
    · exact h.filled s' hs'
  apart := List.isChain_cons.2 ⟨fun token htoken => .inr (hhead token htoken), h.apart⟩
  barren before s' after hsplit := by
    cases before with
    | nil =>
      obtain ⟨heq, rfl⟩ := List.cons.inj hsplit
      rw [h.whole, ← Token.literal.inj heq]
      exact hsterile
    | cons token before => exact h.barren before s' after (List.cons.inj hsplit).2

/-- Putting one code point of literal text in front. -/
lemma addLiteral {c : CodePoint} {text : Text} {tokens : List Token}
    (hnone : contentAt? (c :: text) = none) (h : IsReading text tokens) :
    IsReading (c :: text) (addLiteral c tokens) := by
  by_cases hhead : ∀ token ∈ tokens.head?, token.isLiteral = false
  · have hsterile : Sterile [c] text := sterile_cons.2 ⟨hnone, sterile_nil text⟩
    have hadd := foldr_addLiteral (List.cons_ne_nil c []) hhead
    rw [List.foldr_cons, List.foldr_nil] at hadd
    rw [hadd]
    exact h.literal (by simp) hhead hsterile
  · obtain ⟨s, rest, rfl⟩ : ∃ s rest, tokens = .literal s :: rest := by
      cases tokens with
      | nil => simp at hhead
      | cons token rest =>
        cases token with
        | literal s => exact ⟨s, rest, rfl⟩
        | _ => simp [Token.isLiteral] at hhead
    have hrest := h.barren [] s rest rfl
    have hwhole : s ++ rest.flatMap Token.text = text := h.whole
    rw [← hwhole, ← List.cons_append]
    refine h.tail.literal (by simp) h.head?_tail (sterile_cons.2 ⟨?_, hrest⟩)
    rw [hwhole]
    exact hnone

end IsReading

/-- A scan is a reading. -/
lemma isReading_scan (text : Text) : IsReading text (scan text) := by
  induction text using scan_induction with
  | nil => exact .nil
  | placeholder content rest hcontent ih =>
    rw [scan_placeholder hcontent]
    exact ih.classify hcontent
  | cons c text hnone ih =>
    rw [scan_cons hnone]
    exact ih.addLiteral hnone

/-- The steps of a scan go along any reading, token by token. -/
lemma scan_eq_of_isReading {text : Text} {tokens : List Token} (h : IsReading text tokens) :
    scan text = tokens := by
  induction tokens generalizing text with
  | nil => rw [← h.whole]; rfl
  | cons token tokens ih =>
    have htail := ih h.tail
    rw [← h.whole, List.flatMap_cons]
    by_cases hliteral : token.isLiteral
    · obtain ⟨s, rfl⟩ := Token.exists_eq_literal hliteral
      have hs : s ≠ [] := h.filled s (by simp)
      have hsterile : Sterile s (tokens.flatMap Token.text) := h.barren [] s tokens rfl
      rw [Token.text, scan_append_of_sterile hsterile, htail, foldr_addLiteral hs h.head?_tail]
    · obtain ⟨content, hcontent, rfl⟩ := h.known token (by simp) (by simpa using hliteral)
      rw [Token.text_classify, scan_placeholder hcontent, htail]

/-- **A text has exactly one reading**, its scan. -/
theorem isReading_iff (text : Text) (tokens : List Token) :
    IsReading text tokens ↔ tokens = scan text :=
  ⟨fun h => (scan_eq_of_isReading h).symm, fun h => h ▸ isReading_scan text⟩

/-! ## Seams

What comes after literal text may be exchanged for something else.  Then a placeholder can begin in
the literal text only if that holds all of it but the last brace, and the last brace comes first in
what is put behind it.
-/

/-- A placeholder without its last brace. -/
lemma dropLast_placeholder (d : Text) :
    (placeholder d).dropLast = openBrace :: openBrace :: (d ++ [closeBrace]) := by
  have h : placeholder d = openBrace :: openBrace :: (d ++ [closeBrace]) ++ [closeBrace] := by
    simp [placeholder_eq]
  rw [h, List.dropLast_concat]

/-- A placeholder that begins in `v` only since `rest` has taken the place of a placeholder. -/
lemma eq_dropLast_of_prefix {v z rest content d : Text} (hv : v ≠ []) (hcontent : IsContent content)
    (hnone : contentAt? (v ++ (placeholder content ++ z)) = none) (hd : IsContent d)
    (hbegins : placeholder d <+: v ++ rest) :
    v = (placeholder d).dropLast ∧ rest.head? = some closeBrace := by
  rw [contentAt?_eq_none_iff] at hnone
  have hshort : v <+: placeholder d := by
    rcases List.prefix_or_prefix_of_prefix (List.prefix_append v rest) hbegins with h | h
    · exact h
    · exact absurd (h.trans (List.prefix_append v _)) (hnone d hd)
  rw [placeholder_eq] at hshort
  obtain ⟨w, rfl⟩ : ∃ w, v = openBrace :: w := by
    cases v with
    | nil => exact absurd rfl hv
    | cons x w => exact ⟨w, by rw [(List.cons_prefix_cons.1 hshort).1]⟩
  cases w with
  | nil =>
    -- a brace alone would begin a placeholder together with the one that was behind it
    have hlong : IsContent (openBrace :: content) :=
      ⟨by simp, by simpa [openBrace_ne_closeBrace.symm] using hcontent.2⟩
    exact absurd ⟨z, by simp [placeholder_eq]⟩ (hnone _ hlong)
  | cons x w =>
    have htwo := (List.cons_prefix_cons.1 hshort).2
    obtain ⟨rfl, hw⟩ := List.cons_prefix_cons.1 htwo
    have hbraces : d ++ [closeBrace, closeBrace] = d ++ [closeBrace] ++ [closeBrace] := by simp
    rw [hbraces, List.prefix_concat_iff, List.prefix_concat_iff] at hw
    rcases hw with rfl | rfl | hw
    · -- the whole placeholder was there before
      exact absurd ⟨placeholder content ++ z, by simp [placeholder_eq]⟩ (hnone d hd)
    · refine ⟨(dropLast_placeholder d).symm, ?_⟩
      have hrest : [closeBrace] <+: rest := by
        simpa [placeholder_eq, List.prefix_append_right_inj] using hbegins
      obtain ⟨r, rfl⟩ := hrest
      rfl
    · -- without a closing brace the placeholder behind it would have been swallowed
      have hclose : closeBrace ∉ w := fun hmem => hd.2 (hw.subset hmem)
      have hlong : IsContent (w ++ openBrace :: openBrace :: content) :=
        ⟨by simp, by simp [hclose, hcontent.2, openBrace_ne_closeBrace.symm]⟩
      exact absurd ⟨z, by simp [placeholder_eq]⟩ (hnone _ hlong)

/-- Literal text stays barren when what comes after it is exchanged, unless a placeholder is
completed by it. -/
lemma IsReading.barren_literal {text s d rest : Text} {tokens : List Token}
    (h : IsReading text (.literal s :: tokens)) (hd : IsContent d) (hend : tokens = [] → rest = [])
    (hseam : (placeholder d).dropLast <:+ s → rest.head? ≠ some closeBrace) :
    Text.Barren (placeholder d) s rest := by
  have hsterile : Sterile s (tokens.flatMap Token.text) := h.barren [] s tokens rfl
  cases tokens with
  | nil =>
    rw [hend rfl]
    exact hsterile d hd
  | cons token tokens =>
    obtain ⟨content, hcontent, rfl⟩ :=
      h.known token (by simp) (h.head?_tail token rfl)
    rw [List.flatMap_cons, Token.text_classify] at hsterile
    intro v hv hsuffix hbegins
    have hnone := contentAt?_eq_none_iff.2 fun e he => hsterile e he v hv hsuffix
    obtain ⟨rfl, hhead⟩ := eq_dropLast_of_prefix hv hcontent hnone hd hbegins
    exact hseam hsuffix hhead

end Template

end OnePage
