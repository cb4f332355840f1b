import OnePage.Page.Link
import OnePage.Proofs.Template.Resolve

/-!
# Filling the slots of a page

Templates are resolved token by token, but slots are filled by searching the resolved text for their
markers.  This file shows that the search finds the slots of the template and nothing else.

* `pieces` — the page as the template means it, one piece of text for each token.  The first token
  of a slot comes to what the slot is filled with.
* `IsTame` — no braces are put where they could begin a marker.
* `SeamsHold` — no marker is completed across a seam: literal text that ends in one without its last
  brace does not get that brace from what follows on the page.
* **`fill_resolved`** — under these two conditions, filling the resolved template gives the pieces
  in order.
-/

namespace OnePage

/-- The assets of a kind that are linked. -/
def Manifest.names (manifest : Manifest) : AssetKind → List Text
  | .style => manifest.styles
  | .script => manifest.scripts

namespace Page

open Template (Slot Sources Token IsContent IsReading openBrace closeBrace placeholder)

/-! ## Pieces -/

/-- What slots are filled with.  A slot for which there is nothing stays as it is. -/
abbrev Filling := Slot → Option Text

namespace Filling

/-- Both slots are filled. -/
def both (styles scripts : Text) : Filling
  | .styles => some styles
  | .scripts => some scripts

/-- What a token comes to: a slot to what it is filled with, and any other to what is `shown`. -/
def piece (filling : Filling) (shown : Token → Text) : Token → Text
  | .sentinel raw slot => (filling slot).getD raw
  | token => shown token

/-- What is left for the tokens after a token: every slot is filled once. -/
def spend (filling : Filling) : Token → Filling
  | .sentinel _ slot => Function.update filling slot none
  | _ => filling

end Filling

/-- **The pieces of a page**, one for each token. -/
def pieces (shown : Token → Text) : Filling → List Token → List Text
  | _, [] => []
  | filling, token :: tokens =>
    filling.piece shown token :: pieces shown (filling.spend token) tokens

variable {shown : Token → Text} {filling : Filling} {tokens : List Token}

lemma pieces_cons {token : Token} (h : token.isSentinel = false) :
    pieces shown filling (token :: tokens) = shown token :: pieces shown filling tokens := by
  cases token <;> first | rfl | simp [Token.isSentinel] at h

lemma pieces_sentinel (raw : Text) (slot : Slot) :
    pieces shown filling (.sentinel raw slot :: tokens) =
      (filling slot).getD raw :: pieces shown (Function.update filling slot none) tokens := rfl

/-- As long as nothing is filled, every token comes to what is shown. -/
lemma pieces_empty (hslot : ∀ raw slot, shown (.sentinel raw slot) = raw) :
    pieces shown (fun _ => none) tokens = tokens.map shown := by
  induction tokens with
  | nil => rfl
  | cons token tokens ih =>
    have hspend : Filling.spend (fun _ => none) token = fun _ => none := by
      cases token with
      | sentinel raw slot =>
        exact Function.update_eq_self slot (fun _ : Slot => (none : Option Text))
      | _ => rfl
    rw [pieces, hspend, ih, List.map_cons]
    cases token with
    | sentinel raw slot => rw [hslot]; rfl
    | _ => rfl

/-- Up to the first token of a slot, literal text that ends in the marker without its last brace
does not get that brace from what follows on the page. -/
def SeamHolds (slot : Slot) (shown : Token → Text) (filling : Filling) (tokens : List Token) :
    Prop :=
  ∀ before s after, tokens = before ++ .literal s :: after → (∀ raw, .sentinel raw slot ∉ before) →
    slot.marker.dropLast <:+ s →
      ((pieces shown filling tokens).drop (before.length + 1)).flatten.head? ≠ some closeBrace

/-- **No marker is completed across a seam**, of either slot. -/
def SeamsHold (shown : Token → Text) (filling : Filling) (tokens : List Token) : Prop :=
  ∀ slot, SeamHolds slot shown filling tokens

namespace SeamHolds

variable {slot : Slot}

lemma head?_ne {s : Text} (h : SeamHolds slot shown filling (.literal s :: tokens))
    (hend : slot.marker.dropLast <:+ s) :
    (pieces shown filling tokens).flatten.head? ≠ some closeBrace :=
  h [] s tokens rfl (by simp) hend

lemma tail {token : Token} (h : SeamHolds slot shown filling (token :: tokens))
    (htoken : ∀ raw, .sentinel raw slot ≠ token) :
    SeamHolds slot shown (filling.spend token) tokens := by
  intro before s after hsplit hbefore
  refine h (token :: before) s after (by rw [hsplit]; rfl) fun raw hraw => ?_
  rcases List.mem_cons.1 hraw with hraw | hraw
  · exact htoken raw hraw
  · exact hbefore raw hraw

end SeamHolds

/-! ## Where markers cannot begin -/

/-- A text in which no marker begins, whatever comes after it: no two opening braces in it, and none
at its end. -/
def IsBlunt (text : Text) : Prop :=
  ¬ [openBrace, openBrace] <:+: text ∧ text.getLast? ≠ some openBrace

lemma barren_of_isBlunt {text : Text} (h : IsBlunt text) (content rest : Text) :
    Text.Barren (placeholder content) text rest := by
  rintro v hv hsuffix hbegins
  rw [Template.placeholder_eq] at hbegins
  match v with
  | [] => exact hv rfl
  | [x] =>
    obtain rfl : openBrace = x := (List.cons_prefix_cons.1 hbegins).1
    obtain ⟨front, rfl⟩ := hsuffix
    exact h.2 (by simp)
  | x :: y :: w =>
    obtain ⟨rfl, htail⟩ := List.cons_prefix_cons.1 hbegins
    obtain rfl : openBrace = y := (List.cons_prefix_cons.1 htail).1
    exact h.1 (List.IsInfix.trans ⟨[], w, rfl⟩ hsuffix.isInfix)

/-- In a placeholder whose content holds no opening brace, no other placeholder begins. -/
lemma barren_placeholder {content d : Text} (hcontent : IsContent content)
    (hopen : openBrace ∉ content) (hd : IsContent d) (hne : content ≠ d) (rest : Text) :
    Text.Barren (placeholder d) (placeholder content) rest := by
  rw [Template.placeholder_eq content, Text.barren_cons, Text.barren_cons]
  refine ⟨fun hbegins => ?_, fun hbegins => ?_, Text.barren_of_not_mem rest ?_⟩
  · have hthere := Template.contentAt?_eq_some_iff.2 ⟨hd, hbegins⟩
    have hhere := Template.contentAt?_eq_some_iff.2
      ⟨hcontent, List.prefix_append (placeholder content) rest⟩
    exact hne (Option.some.inj (hhere.symm.trans hthere))
  · obtain ⟨c, content, rfl⟩ := List.exists_cons_of_ne_nil hcontent.1
    rw [Template.placeholder_eq] at hbegins
    have htail := (List.cons_prefix_cons.1 hbegins).2
    exact hopen (by simp [(List.cons_prefix_cons.1 htail).1])
  · simp [hopen, Template.openBrace_ne_closeBrace]

/-- A text in which a pattern does not occur and that ends with something foreign to it. -/
lemma barren_of_not_infix_of_getLast? {pattern text : Text} (h : ¬ pattern <:+: text)
    (hlast : ∀ c ∈ text.getLast?, c ∉ pattern) (rest : Text) : Text.Barren pattern text rest :=
  Text.barren_of_not_infix_of_not_straddles h (Text.not_straddles_of_getLast? hlast rest)

/-! ## The search for a marker -/

lemma isContent_name (slot : Slot) : IsContent slot.name := by cases slot <;> decide

lemma classify_name (raw : Text) (slot : Slot) :
    Token.classify raw slot.name = .sentinel raw slot := by
  cases slot <;> rfl

/-- The token of a slot is its marker. -/
lemma eq_of_classify_eq_sentinel {raw raw' content : Text} {slot : Slot}
    (h : Token.classify raw content = .sentinel raw' slot) : raw' = raw ∧ content = slot.name := by
  rw [Token.classify] at h
  split at h
  · simp at h
  · split at h
    · next found hfound =>
      obtain ⟨rfl, rfl⟩ := Token.sentinel.inj h
      rw [Slot.ofName?] at hfound
      split_ifs at hfound with hstyles hscripts
      · exact ⟨rfl, by rw [hstyles, ← Option.some.inj hfound]⟩
      · exact ⟨rfl, by rw [hscripts, ← Option.some.inj hfound]⟩
    · simp at h

/-- Every token comes to a text in which a marker can begin only if the token is that marker. -/
structure Shows (shown : Token → Text) (tokens : List Token) : Prop where
  /-- Literal text is shown as it is. -/
  literal : ∀ s, .literal s ∈ tokens → shown (.literal s) = s
  /-- No placeholder holds an opening brace. -/
  contents : ∀ content, .classify (placeholder content) content ∈ tokens → openBrace ∉ content
  /-- Other placeholders stay as they are or come to something blunt. -/
  other : ∀ token ∈ tokens, token.wanted?.isSome →
    shown token = token.text ∨ IsBlunt (shown token)

lemma Shows.tail {token : Token} (h : Shows shown (token :: tokens)) : Shows shown tokens where
  literal s hs := h.literal s (by simp [hs])
  contents content hcontent := h.contents content (by simp [hcontent])
  other t ht := h.other t (by simp [ht])

/-- No marker begins in what a token comes to that is no slot. -/
lemma Shows.barren {text : Text} {token : Token} (h : Shows shown (token :: tokens))
    (hreading : IsReading text (token :: tokens)) (htoken : token.isSentinel = false) {slot : Slot}
    (hseams : SeamHolds slot shown filling (token :: tokens)) :
    Text.Barren slot.marker (shown token) (pieces shown filling tokens).flatten := by
  cases hliteral : token.isLiteral with
  | true =>
    obtain ⟨s, rfl⟩ := Token.exists_eq_literal hliteral
    rw [h.literal s (by simp)]
    refine hreading.barren_literal (isContent_name slot) ?_ hseams.head?_ne
    rintro rfl
    rfl
  | false =>
    obtain ⟨content, hcontent, hclassify⟩ := hreading.known token (by simp) hliteral
    have hwanted : token.wanted? = some token.text :=
      Token.wanted?_eq_some_iff.2 ⟨hliteral, htoken, rfl⟩
    rcases h.other token (by simp) (by simp [hwanted]) with hshown | hblunt
    · rw [hshown, hclassify, Token.text_classify]
      refine barren_placeholder hcontent (h.contents content (by simp [hclassify]))
        (isContent_name slot) ?_ _
      rintro rfl
      rw [hclassify, classify_name] at htoken
      simp [Token.isSentinel] at htoken
    · exact barren_of_isBlunt hblunt slot.name _

/-- **The search finds the first token of a slot** that has not been filled. -/
lemma replaceFirst_pieces {text : Text} (slot : Slot) (replacement : Text)
    (hreading : IsReading text tokens) (hshows : Shows shown tokens)
    (hseams : SeamHolds slot shown filling tokens) (hfree : filling slot = none)
    (hother : ∀ other t, filling other = some t → ∀ rest, Text.Barren slot.marker t rest) :
    Text.replaceFirst slot.marker replacement (pieces shown filling tokens).flatten =
      (pieces shown (Function.update filling slot (some replacement)) tokens).flatten := by
  induction tokens generalizing filling text with
  | nil => exact Text.replaceFirst_nil _ (Template.placeholder_ne_nil _)
  | cons token tokens ih =>
    cases htoken : token.isSentinel with
    | false =>
      have hspend : filling.spend token = filling := by
        cases token <;> first | rfl | simp [Token.isSentinel] at htoken
      have hbarren := hshows.barren hreading htoken hseams
      have hseams := hseams.tail fun raw heq => by simp [← heq, Token.isSentinel] at htoken
      rw [hspend] at hseams
      rw [pieces_cons htoken, pieces_cons htoken, List.flatten_cons, List.flatten_cons,
        Text.replaceFirst_append_of_barren _ hbarren,
        ih hreading.tail hshows.tail hseams hfree hother]
    | true =>
      obtain ⟨raw, found, rfl⟩ : ∃ raw found, token = .sentinel raw found := by
        cases token <;> simp_all [Token.isSentinel]
      obtain ⟨content, hcontent, hclassify⟩ :=
        hreading.known (.sentinel raw found) (by simp) rfl
      obtain ⟨rfl, rfl⟩ := eq_of_classify_eq_sentinel hclassify.symm
      rw [pieces_sentinel, pieces_sentinel, List.flatten_cons, List.flatten_cons]
      by_cases hfound : found = slot
      · subst hfound
        have hspent : Function.update filling found none = filling := by
          rw [← hfree, Function.update_eq_self]
        rw [Function.update_idem, hspent, Function.update_self, hfree]
        exact Text.replaceFirst_self_append _ _ _
      · have hbarren : Text.Barren slot.marker
            ((filling found).getD (placeholder found.name))
            (pieces shown (Function.update filling found none) tokens).flatten := by
          cases hfilling : filling found with
          | some t => exact hother found t hfilling _
          | none =>
            refine barren_placeholder hcontent (hshows.contents _ (by simp [← hclassify]))
              (isContent_name slot) ?_ _
            revert hfound
            cases found <;> cases slot <;> decide
        have hother' : ∀ other t, Function.update filling found none other = some t →
            ∀ rest, Text.Barren slot.marker t rest := by
          intro other t ht
          refine hother other t ?_
          by_cases h : other = found
          · simp [h] at ht
          · simpa [h] using ht
        have hseams' : SeamHolds slot shown (Function.update filling found none) tokens :=
          hseams.tail fun raw heq => hfound (Token.sentinel.inj heq).2.symm
        have hfree' : Function.update filling found none slot = none := by
          rw [Function.update_of_ne (Ne.symm hfound), hfree]
        rw [Text.replaceFirst_append_of_barren _ hbarren,
          ih hreading.tail hshows.tail hseams' hfree' hother', Function.update_comm hfound,
          Function.update_of_ne hfound]

/-! ## What slots are filled with -/

/-- A text that is empty or stands in angle brackets. -/
structure IsBracketed (text : Text) : Prop where
  /-- It begins with one. -/
  head? : ∀ c ∈ text.head?, c = CodePoint.ofChar '<'
  /-- It ends with one. -/
  getLast? : ∀ c ∈ text.getLast?, c = CodePoint.ofChar '>'

/-- A text in brackets cannot begin with a part of a marker. -/
lemma IsBracketed.head?_not_mem {text : Text} (h : IsBracketed text) (slot : Slot) :
    ∀ c ∈ text.head?, c ∉ slot.marker := by
  intro c hc
  rw [h.head? c hc]
  cases slot <;> decide

/-- A text in brackets cannot end with a part of a marker. -/
lemma IsBracketed.getLast?_not_mem {text : Text} (h : IsBracketed text) (slot : Slot) :
    ∀ c ∈ text.getLast?, c ∉ slot.marker := by
  intro c hc
  rw [h.getLast? c hc]
  cases slot <;> decide

lemma tags_cons (kind : AssetKind) (name next : Text) (names : List Text) :
    tags kind (name :: next :: names) =
      tag kind name ++ (tagSeparator ++ tags kind (next :: names)) := List.append_assoc _ _ _

/-- The first of the tags begins with a bracket. -/
lemma head?_tags_cons (kind : AssetKind) (name : Text) (names : List Text) :
    (tags kind (name :: names)).head? = some (CodePoint.ofChar '<') := by
  have htag (rest : Text) : (tag kind name ++ rest).head? = some (CodePoint.ofChar '<') := by
    cases kind <;> rfl
  cases names with
  | nil => simpa [tags, Text.join] using htag []
  | cons next names => rw [tags_cons, htag]

lemma isBracketed_tags (kind : AssetKind) (names : List Text) : IsBracketed (tags kind names) := by
  have hend (name : Text) : (tag kind name).getLast? = some (CodePoint.ofChar '>') := by
    cases kind <;> exact List.getLast?_append_of_ne_nil _ (by decide)
  induction names with
  | nil => exact ⟨by simp [tags, Text.join], by simp [tags, Text.join]⟩
  | cons name names ih =>
    refine ⟨by simp [head?_tags_cons], ?_⟩
    cases names with
    | nil => simp [tags, Text.join, hend]
    | cons next names =>
      have hrest : tags kind (next :: names) ≠ [] := by
        intro hnil
        have hhead := head?_tags_cons kind next names
        simp [hnil] at hhead
      rw [tags_cons, ← List.append_assoc, List.getLast?_append_of_ne_nil _ hrest]
      exact ih.getLast?

lemma isBracketed_block (kind : AssetKind) (contents : List Text) :
    IsBracketed (block kind contents) := by
  have hhead : (block kind contents).head? = some (CodePoint.ofChar '<') := by cases kind <;> rfl
  have hlast : (block kind contents).getLast? = some (CodePoint.ofChar '>') :=
    List.getLast?_append_of_ne_nil _ (by decide)
  exact ⟨by simp [hhead], by simp [hlast]⟩

/-! ## The page as a whole -/

/-- What fills a slot in one filling fills it in another. -/
lemma le_spend {less more : Filling} (hle : ∀ slot t, less slot = some t → more slot = some t)
    (token : Token) (slot : Slot) (t : Text) (h : less.spend token slot = some t) :
    more.spend token slot = some t := by
  cases token with
  | sentinel raw found =>
    by_cases hslot : slot = found
    · simp [Filling.spend, hslot] at h
    · simp only [Filling.spend, Function.update_of_ne hslot] at h ⊢
      exact hle slot t h
  | _ => exact hle slot t h

/-- Filling more slots does not take a closing brace away from the beginning, since markers begin
with another one. -/
lemma head?_pieces_mono {text : Text} {less more : Filling} (hreading : IsReading text tokens)
    (hle : ∀ slot t, less slot = some t → more slot = some t)
    (h : (pieces shown less tokens).flatten.head? = some closeBrace) :
    (pieces shown more tokens).flatten.head? = some closeBrace := by
  induction tokens generalizing less more text with
  | nil => exact h
  | cons token tokens ih =>
    have ih := ih hreading.tail (le_spend hle token)
    have hpiece : less.piece shown token = more.piece shown token ∨
        (less.piece shown token).head? = some openBrace := by
      cases token with
      | sentinel raw slot =>
        cases hslot : less slot with
        | some t => simp [Filling.piece, hslot, hle slot t hslot]
        | none =>
          obtain ⟨content, -, hclassify⟩ := hreading.known (.sentinel raw slot) (by simp) rfl
          obtain ⟨rfl, -⟩ := eq_of_classify_eq_sentinel hclassify.symm
          exact .inr (by simp [Filling.piece, hslot, Template.placeholder_eq])
      | _ => exact .inl rfl
    rw [pieces, List.flatten_cons] at h ⊢
    rcases hpiece with hpiece | hpiece
    · rw [← hpiece]
      cases hempty : less.piece shown token with
      | nil =>
        rw [hempty] at h
        exact ih h
      | cons c t =>
        rw [hempty] at h
        exact h
    · rw [List.head?_append, hpiece] at h
      exact absurd (Option.some.inj h) Template.openBrace_ne_closeBrace

lemma SeamHolds.mono {text : Text} {slot : Slot} {less more : Filling}
    (hreading : IsReading text tokens)
    (hle : ∀ slot t, less slot = some t → more slot = some t)
    (h : SeamHolds slot shown more tokens) : SeamHolds slot shown less tokens := by
  induction tokens generalizing less more text with
  | nil => intro before s after hsplit; simp at hsplit
  | cons token tokens ih =>
    intro before s after hsplit hbefore hend hhead
    cases before with
    | nil =>
      obtain ⟨rfl, rfl⟩ := List.cons.inj hsplit
      exact h.head?_ne hend (head?_pieces_mono hreading.tail hle hhead)
    | cons token' before =>
      obtain ⟨rfl, htail⟩ := List.cons.inj hsplit
      have htoken : ∀ raw, .sentinel raw slot ≠ token := fun raw heq => hbefore raw (by simp [heq])
      exact ih hreading.tail (le_spend hle token) (h.tail htoken) before s after htail
        (fun raw hraw => hbefore raw (by simp [hraw])) hend hhead

/-- **No braces where they could begin a marker.**  No placeholder of the template holds an opening
brace, what is put in for placeholders is blunt, and the text for the style sheets does not hold the
marker of the scripts. -/
structure IsTame (sources : Sources) (styles : Text) (tokens : List Token) : Prop where
  /-- No placeholder holds an opening brace. -/
  contents : ∀ content, .classify (placeholder content) content ∈ tokens → openBrace ∉ content
  /-- What is put in for placeholders is blunt. -/
  hits : ∀ token ∈ tokens, token.wanted?.isSome →
    ∀ text, token.replacement sources = .ok (some text) → IsBlunt text
  /-- The text for the style sheets does not hold the marker of the scripts. -/
  styles : ¬ Slot.scripts.marker <:+: styles

/-- The contents of placeholders can be told from their texts. -/
lemma contents_of_text
    (h : ∀ token ∈ tokens, token.isLiteral = false → openBrace ∉ token.text.drop 2) (content : Text)
    (hmem : .classify (placeholder content) content ∈ tokens) : openBrace ∉ content := by
  have hdrop := h _ hmem (Token.isLiteral_classify _ _)
  rw [Token.text_classify, Template.placeholder_eq] at hdrop
  exact fun hbrace => hdrop (by simp [hbrace])

/-- No marker is completed where no literal text ends like one. -/
lemma seamsHold_of_literal
    (h : ∀ s, .literal s ∈ tokens → ∀ slot : Slot, ¬ slot.marker.dropLast <:+ s) :
    SeamsHold shown filling tokens := by
  intro slot before s after hsplit _ hend
  exact absurd hend (h s (by simp [hsplit]) slot)

variable {sources : Sources}

lemma IsTame.shows {styles : Text} (h : IsTame sources styles tokens) :
    Shows (Token.shown sources) tokens where
  literal s _ := rfl
  contents := h.contents
  other token htoken hwanted := by
    cases hfound : token.replacement sources with
    | error fault => exact .inl (by simp [Token.shown, hfound])
    | ok found =>
      cases found with
      | none => exact .inl (by simp [Token.shown, hfound])
      | some text =>
        have hshown : token.shown sources = text := by simp [Token.shown, hfound]
        exact .inr (hshown ▸ h.hits token htoken hwanted text hfound)

/-- **Filling finds the slots of the template.**  The page is what the tokens of the template come
to, one after the other: the first token of a slot to what fills the slot, and every other token to
what is shown for it. -/
lemma fill_resolved {template html styles scripts : Text} {missed : List Text}
    (hresolved : Template.resolve sources template = .ok ⟨html, missed⟩)
    (htame : IsTame sources styles (Template.scan template))
    (hseams : SeamsHold (Token.shown sources) (.both styles scripts) (Template.scan template))
    (hlast : ∀ c ∈ styles.getLast?, c ∉ Slot.scripts.marker) :
    fill html styles scripts =
      (pieces (Token.shown sources) (.both styles scripts) (Template.scan template)).flatten := by
  have hreading := Template.isReading_scan template
  obtain ⟨-, hout⟩ := Template.resolve_eq_ok_iff.1 hresolved
  obtain ⟨rfl, -⟩ := Template.Resolved.mk.inj hout
  -- nothing is filled, then the style sheets are, then the scripts too
  set none : Filling := fun _ => none with hnone
  set first : Filling := Function.update none .styles (some styles) with hfirst
  have hboth : Function.update first .scripts (some scripts) = Filling.both styles scripts := by
    funext slot; cases slot <;> rfl
  have hleFirst : ∀ slot t, first slot = some t → Filling.both styles scripts slot = some t := by
    intro slot t h; cases slot with
    | styles => exact h
    | scripts => simp [hfirst, hnone] at h
  have hshown : (Template.scan template).flatMap (Token.shown sources) =
      (pieces (Token.shown sources) none (Template.scan template)).flatten := by
    rw [pieces_empty fun _ _ => rfl, List.flatMap_def]
  have hleNone : ∀ slot t, none slot = some t → Filling.both styles scripts slot = some t := by
    simp [hnone]
  have hstyles := replaceFirst_pieces .styles styles hreading htame.shows
    ((hseams _).mono hreading hleNone) rfl (by simp [hnone])
  have hscripts := replaceFirst_pieces .scripts scripts hreading htame.shows
    ((hseams _).mono hreading hleFirst) rfl ?_
  · rw [fill, hshown, hstyles, hscripts, hboth]
  · intro other t ht rest
    cases other with
    | styles =>
      obtain rfl : styles = t := by simpa [hfirst] using ht
      exact barren_of_not_infix_of_getLast? htame.styles hlast rest
    | scripts => simp [hfirst, hnone] at ht

end Page

end OnePage
