import OnePage.Proofs.Template.Resolve

/-!
# Scanning in two parts

A template may be cut in two, and its parts scanned and resolved on their own, if the cut does not
go through a placeholder.

* `weld` — tokens followed by tokens, literal text that meets at the seam being one token.
* `IsTorn` — a placeholder of the whole begins in one part and ends in the other.
* `weld_scan` — without one, the two scans welded together are the scan of the whole, by induction
  on the tokens of the whole.
* `not_torn_of_weld` — and no token of a weld lies on both sides of the seam but literal text.
* `resolveTokens_weld` — what is resolved in parts is put together.
* **`scan_append_eq_weld_iff`** — the parts can be scanned on their own exactly if no placeholder is
  torn, and then they can be resolved on their own.
-/

namespace OnePage

namespace Template

/-! ## Welding -/

/-- **Tokens followed by tokens.**  Literal text that meets at the seam becomes one token. -/
def weld : List Token → List Token → List Token
  | [], more => more
  | [.literal s], .literal t :: more => .literal (s ++ t) :: more
  | token :: tokens, more => token :: weld tokens more

/-- The whole of two texts has a placeholder that begins in the first and ends in the second. -/
def IsTorn (first second : Text) : Prop :=
  ∃ before token after, scan (first ++ second) = before ++ token :: after ∧
    token.isLiteral = false ∧ (before.flatMap Token.text).length < first.length ∧
    first.length < (before.flatMap Token.text).length + token.text.length

variable {tokens more before after : List Token} {token : Token} {first second text : Text}

@[simp] lemma weld_nil : weld [] more = more := rfl

/-- A placeholder at the beginning stays there. -/
lemma weld_cons (h : token.isLiteral = false) : weld (token :: tokens) more =
    token :: weld tokens more := by
  cases token <;> first | rfl | simp [Token.isLiteral] at h

/-- A weld goes on with its first token, unless that is all of the literal text in front of the seam
and there is more behind it. -/
lemma weld_cons_cases (token : Token) (tokens more : List Token) :
    weld (token :: tokens) more = token :: weld tokens more ∨
      ∃ s t rest, token = .literal s ∧ tokens = [] ∧ more = .literal t :: rest ∧
        weld (token :: tokens) more = .literal (s ++ t) :: rest := by
  cases token with
  | literal s =>
    cases tokens with
    | cons next tokens => exact .inl rfl
    | nil =>
      cases more with
      | nil => exact .inl rfl
      | cons next rest =>
        cases next with
        | literal t => exact .inr ⟨s, t, rest, rfl, rfl, rfl, rfl⟩
        | _ => exact .inl rfl
  | _ => exact .inl rfl

/-- Literal text can be put in front before welding or after. -/
lemma weld_addLiteral (c : CodePoint) :
    weld (addLiteral c tokens) more = addLiteral c (weld tokens more) := by
  match tokens, more with
  | [], [] => rfl
  | [], token :: more => cases token <;> rfl
  | [.literal s], [] => rfl
  | [.literal s], token :: more => cases token <;> rfl
  | .literal s :: next :: tokens, more => rfl
  | .data raw path :: tokens, more => rfl
  | .component raw name :: tokens, more => rfl
  | .sentinel raw slot :: tokens, more => rfl

lemma weld_foldr_addLiteral (front : Text) :
    weld (front.foldr addLiteral tokens) more = front.foldr addLiteral (weld tokens more) := by
  induction front with
  | nil => rfl
  | cons c front ih => rw [List.foldr_cons, weld_addLiteral, ih, List.foldr_cons]

/-! ## Where placeholders begin -/

/-- What does not begin in a longer text does not begin in a shorter one. -/
lemma Sterile.shorten {front rest end' : Text} (h : Sterile front (rest ++ end')) :
    Sterile front rest := by
  intro d hd v hv hsuffix hbegins
  refine h d hd v hv hsuffix ?_
  rw [← List.append_assoc]
  exact hbegins.trans (List.prefix_append _ _)

/-- A sterile stretch consists of sterile stretches. -/
lemma sterile_append {front back rest : Text} :
    Sterile (front ++ back) rest ↔ Sterile front (back ++ rest) ∧ Sterile back rest := by
  induction front with
  | nil => simp [sterile_nil]
  | cons c front ih =>
    rw [List.cons_append, sterile_cons, sterile_cons, ih, List.append_assoc, and_assoc]

/-! ## The seam is safe -/

/-- The parts of a text whose scan is known: the cut goes through none of its tokens but literal
text. -/
lemma weld_of_isReading (hreading : IsReading text tokens) (htext : text = first ++ second)
    (hsafe : ∀ before token after, tokens = before ++ token :: after → token.isLiteral = false →
      (before.flatMap Token.text).length < first.length →
      (before.flatMap Token.text).length + token.text.length ≤ first.length) :
    weld (scan first) (scan second) = tokens := by
  induction tokens generalizing text first with
  | nil =>
    have hwhole : [] = first ++ second := hreading.whole.trans htext
    obtain ⟨rfl, rfl⟩ := List.append_eq_nil_iff.1 hwhole.symm
    rfl
  | cons token tokens ih =>
    have hwhole : token.text ++ tokens.flatMap Token.text = first ++ second :=
      hreading.whole.trans htext
    -- the cut lies behind the first token, or in it
    rcases List.append_eq_append_iff.1 hwhole with ⟨front, rfl, hrest⟩ | ⟨back, htoken, rfl⟩
    · have hweld : weld (scan front) (scan second) = tokens := by
        refine ih hreading.tail hrest fun before t after hsplit hliteral hlength => ?_
        have hlong := hsafe (token :: before) t after (by rw [hsplit]; rfl) hliteral
        simp only [List.flatMap_cons, List.length_append] at hlong
        have := hlong (by omega)
        omega
      cases hliteral : token.isLiteral with
      | false =>
        obtain ⟨content, hcontent, rfl⟩ := hreading.known token (by simp) hliteral
        rw [Token.text_classify, scan_placeholder hcontent, weld_cons hliteral, hweld]
      | true =>
        obtain ⟨s, rfl⟩ := Token.exists_eq_literal hliteral
        have hsterile : Sterile s (front ++ second) := hrest ▸ hreading.barren [] s tokens rfl
        rw [Token.text, scan_append_of_sterile hsterile.shorten, weld_foldr_addLiteral, hweld]
        exact foldr_addLiteral (hreading.filled s (by simp)) hreading.head?_tail
    · cases hliteral : token.isLiteral with
      | false =>
        -- a placeholder is cut before its beginning or behind its end
        cases first with
        | nil =>
          rw [List.nil_append] at htoken
          rw [scan_nil, weld_nil, ← htoken]
          exact scan_eq_of_isReading ⟨rfl, hreading.known, hreading.filled, hreading.apart,
            hreading.barren⟩
        | cons c first =>
          have hlong := hsafe [] token tokens rfl hliteral (by simp)
          obtain rfl : back = [] := by
            rw [htoken, List.length_append] at hlong
            exact List.length_eq_zero_iff.1 (by simpa using hlong)
          obtain ⟨content, hcontent, rfl⟩ := hreading.known token (by simp) hliteral
          have hscan := scan_placeholder hcontent []
          rw [List.append_nil] at hscan
          rw [Token.text_classify, List.append_nil] at htoken
          rw [← htoken, hscan, scan_nil, weld_cons hliteral, weld_nil, List.nil_append,
            scan_eq_of_isReading hreading.tail]
      | true =>
        obtain ⟨s, rfl⟩ := Token.exists_eq_literal hliteral
        obtain rfl : s = first ++ back := htoken
        have hsterile : Sterile (first ++ back) (tokens.flatMap Token.text) :=
          hreading.barren [] _ tokens rfl
        obtain ⟨hfirst, hback⟩ := sterile_append.1 hsterile
        have hend : Sterile first ([] ++ (back ++ tokens.flatMap Token.text)) := hfirst
        have hscan := scan_append_of_sterile hend.shorten
        rw [List.append_nil, scan_nil] at hscan
        rw [hscan, scan_append_of_sterile hback, weld_foldr_addLiteral, weld_nil,
          scan_eq_of_isReading hreading.tail, ← List.foldr_append]
        exact foldr_addLiteral (hreading.filled _ (by simp)) hreading.head?_tail

/-- **The two scans welded together** are the scan of the whole, unless a placeholder is torn. -/
lemma weld_scan (h : ¬ IsTorn first second) :
    weld (scan first) (scan second) = scan (first ++ second) := by
  refine weld_of_isReading (isReading_scan _) rfl
    fun before token after hsplit hliteral hlength => ?_
  by_contra hlong
  exact h ⟨before, token, after, hsplit, hliteral, hlength, by omega⟩

/-! ## The seam is torn -/

/-- Every placeholder of a weld lies on one side of the seam. -/
lemma not_torn_of_weld (h : weld tokens more = before ++ token :: after)
    (hliteral : token.isLiteral = false) :
    (before.flatMap Token.text).length + token.text.length ≤
        (tokens.flatMap Token.text).length ∨
      (tokens.flatMap Token.text).length ≤ (before.flatMap Token.text).length := by
  induction tokens generalizing before with
  | nil => simp
  | cons head tokens ih =>
    rcases weld_cons_cases head tokens more with hweld | ⟨s, t, rest, rfl, rfl, rfl, hweld⟩
    · rw [hweld] at h
      cases before with
      | nil =>
        obtain ⟨rfl, -⟩ := List.cons.inj h
        exact .inl (by simp)
      | cons other before =>
        obtain ⟨rfl, hrest⟩ := List.cons.inj h
        have ih := ih hrest
        simp only [List.flatMap_cons, List.length_append]
        omega
    · rw [hweld] at h
      cases before with
      | nil =>
        obtain ⟨rfl, -⟩ := List.cons.inj h
        simp [Token.isLiteral] at hliteral
      | cons other before =>
        obtain ⟨rfl, -⟩ := List.cons.inj h
        exact .inr (by simp [Token.text])

/-! ## Resolving in parts -/

/-- Two pages, one after the other, and what was missed on the way to both. -/
def Resolved.append (front back : Resolved) : Resolved :=
  ⟨front.text ++ back.text, front.missed ++ back.missed⟩

variable {sources : Sources}

/-- **What is resolved in parts is put together.**  If a part cannot be resolved, neither can the
whole, and for the same reason. -/
lemma resolveTokens_weld : resolveTokens sources (weld tokens more) = do
    let front ← resolveTokens sources tokens
    let back ← resolveTokens sources more
    return front.append back := by
  induction tokens with
  | nil =>
    rw [weld_nil, resolveTokens]
    cases resolveTokens sources more <;> rfl
  | cons token tokens ih =>
    rcases weld_cons_cases token tokens more with hweld | ⟨s, t, rest, rfl, rfl, rfl, hweld⟩
    · rw [hweld, resolveTokens, resolveTokens, ih]
      cases token.replacement sources with
      | error fault => rfl
      | ok found =>
        cases resolveTokens sources tokens with
        | error fault => rfl
        | ok front =>
          cases resolveTokens sources more with
          | error fault => cases found <;> rfl
          | ok back =>
            cases found <;>
              simp [bind, Except.bind, pure, Except.pure, Resolved.append]
    · rw [hweld]
      simp only [resolveTokens, Token.replacement]
      cases resolveTokens sources rest with
      | error fault => rfl
      | ok back => simp [bind, Except.bind, pure, Except.pure, Resolved.append]

/-- **A template in two parts.**  The parts can be scanned on their own, literal text that meets at
the seam being merged, exactly if no placeholder of the whole lies on both sides of it.  Then they
can be resolved on their own, too: the page is the two pages, and what is missed is what is missed
in the one and then in the other. -/
theorem scan_append_eq_weld_iff (first second : Text) :
    (scan (first ++ second) = weld (scan first) (scan second) ↔ ¬ IsTorn first second) ∧
      (¬ IsTorn first second → ∀ sources, resolve sources (first ++ second) = do
        let front ← resolve sources first
        let back ← resolve sources second
        return front.append back) := by
  refine ⟨⟨fun hweld => ?_, fun hsafe => (weld_scan hsafe).symm⟩, fun hsafe sources => ?_⟩
  · rintro ⟨before, token, after, hsplit, hliteral, hbegins, hends⟩
    have hside := not_torn_of_weld (hweld.symm.trans hsplit) hliteral
    rw [(isReading_scan first).whole] at hside
    omega
  · rw [resolve, ← weld_scan hsafe, resolveTokens_weld]
    rfl

end Template

end OnePage
