import OnePage.Proofs.Template.Scan
import OnePage.Template.Resolve

/-!
# What resolving a template leaves

Resolving goes through the tokens of a template once.  This file says what comes out of it token by
token, and what a second pass over it would find.

* `resolveTokens_eq_ok_iff` — the page is the concatenation of what each token comes to
  (`Token.shown`), and the placeholders that were missed are told by `Token.misses`.
* **`scan_resolved`** — as long as what is put in is neither empty nor holds a brace, the
  placeholders of the page are the slots and the missed placeholders of the template.  So the report
  agrees with a second scan, and resolving again changes nothing.
* `resolve_congr` — a page depends on what is found by each name, and not on any order.
-/

namespace OnePage

namespace Template

variable {sources : Sources}

/-! ## Token by token -/

/-- Whether there is nothing that could take the place of a token. -/
def Token.misses (sources : Sources) (token : Token) : Bool :=
  match token.replacement sources with
  | .ok none => true
  | _ => false

/-- What a token comes to: what takes its place, or itself. -/
def Token.shown (sources : Sources) (token : Token) : Text :=
  match token.replacement sources with
  | .ok (some text) => text
  | _ => token.text

/-- Whether a token is a slot. -/
def Token.isSentinel : Token → Bool
  | sentinel _ _ => true
  | _ => false

/-- Whether a token is a placeholder that stays: a slot, or one that is missed. -/
def Token.stays (sources : Sources) (token : Token) : Bool :=
  token.isSentinel || token.misses sources

lemma Token.shown_of_misses {token : Token} (h : token.misses sources) :
    token.shown sources = token.text := by
  simp only [misses] at h
  split at h
  · next heq => simp [shown, heq]
  · simp at h

lemma Token.shown_of_isLiteral {token : Token} (h : token.isLiteral) :
    token.shown sources = token.text := by
  cases token <;> simp_all [isLiteral, shown, replacement, text]

lemma Token.shown_of_stays {token : Token} (h : token.stays sources) :
    token.shown sources = token.text := by
  rcases Bool.or_eq_true _ _ ▸ h with h | h
  · cases token <;> simp_all [isSentinel, shown, replacement, text]
  · exact shown_of_misses h

lemma Token.isLiteral_of_stays {token : Token} (h : token.stays sources) :
    token.isLiteral = false := by
  cases token <;> simp_all [stays, isSentinel, isLiteral, misses, replacement]

lemma Token.isLiteral_of_misses {token : Token} (h : token.misses sources) :
    token.isLiteral = false := by
  have hstays : token.stays sources = true := by simp [stays, h]
  exact isLiteral_of_stays hstays

/-- A token whose place is taken is literal text, a slot or a hit. -/
lemma Token.replacement_eq_of_not_misses {token : Token} {found : Option Text}
    (hfound : token.replacement sources = .ok found) (h : token.misses sources = false) :
    token.replacement sources = .ok (some (token.shown sources)) := by
  cases found with
  | none => simp [misses, hfound] at h
  | some text => simp [shown, hfound]

/-- **Resolving, token by token.**  It succeeds if every token can be looked up. -/
lemma resolveTokens_eq_ok_iff {tokens : List Token} {resolved : Resolved} :
    resolveTokens sources tokens = .ok resolved ↔
      (∀ token ∈ tokens, ∃ found, token.replacement sources = .ok found) ∧
        resolved = ⟨tokens.flatMap (Token.shown sources),
          (tokens.filter (Token.misses sources)).map Token.text⟩ := by
  induction tokens generalizing resolved with
  | nil => simp [resolveTokens, eq_comm]
  | cons token tokens ih =>
    rw [resolveTokens]
    cases hfound : token.replacement sources with
    | error fault => simp [hfound, bind, Except.bind]
    | ok found =>
      cases hrest : resolveTokens sources tokens with
      | error fault =>
        refine ⟨fun h => by simp [bind, Except.bind] at h, fun h => ?_⟩
        have hok := ih.2 ⟨fun t ht => h.1 t (by simp [ht]), rfl⟩
        simp [hok] at hrest
      | ok rest =>
        obtain ⟨hall, rfl⟩ := ih.1 hrest
        have hall' : ∀ t ∈ token :: tokens, ∃ found, t.replacement sources = .ok found := by
          simpa using ⟨⟨found, hfound⟩, hall⟩
        rw [and_iff_right hall']
        cases found with
        | none =>
          have hmisses : token.misses sources = true := by simp [Token.misses, hfound]
          simp [bind, Except.bind, pure, Except.pure, hmisses, Token.shown_of_misses, eq_comm]
        | some text =>
          have hmisses : token.misses sources = false := by simp [Token.misses, hfound]
          have hshown : token.shown sources = text := by simp [Token.shown, hfound]
          simp [bind, Except.bind, pure, Except.pure, hmisses, hshown, eq_comm]

lemma resolve_eq_ok_iff {template : Text} {resolved : Resolved} :
    resolve sources template = .ok resolved ↔
      (∀ token ∈ scan template, ∃ found, token.replacement sources = .ok found) ∧
        resolved = ⟨(scan template).flatMap (Token.shown sources),
          ((scan template).filter (Token.misses sources)).map Token.text⟩ :=
  resolveTokens_eq_ok_iff

/-! ## A second pass -/

/-- A text that cannot take part in a placeholder: it is not empty and holds no brace. -/
def IsPlain (text : Text) : Prop := text ≠ [] ∧ openBrace ∉ text ∧ closeBrace ∉ text

/-- All that is put in for placeholders is plain. -/
def PutsInPlain (sources : Sources) (tokens : List Token) : Prop :=
  ∀ token ∈ tokens, token.wanted?.isSome →
    ∀ text, token.replacement sources = .ok (some text) → IsPlain text

lemma Token.wanted?_eq_some_iff {token : Token} {raw : Text} :
    token.wanted? = some raw ↔
      token.isLiteral = false ∧ token.isSentinel = false ∧ token.text = raw := by
  cases token <;> simp [wanted?, isLiteral, isSentinel, text]

/-- A placeholder either stays as it is or comes to something plain. -/
lemma PutsInPlain.stays_or_isPlain {token : Token} {tokens : List Token}
    (hplain : PutsInPlain sources (token :: tokens))
    (hall : ∀ t ∈ token :: tokens, ∃ found, t.replacement sources = .ok found)
    (hliteral : token.isLiteral = false) :
    token.stays sources = true ∨
      token.stays sources = false ∧ IsPlain (token.shown sources) := by
  cases hstays : token.stays sources with
  | true => exact .inl rfl
  | false =>
    rw [Token.stays, Bool.or_eq_false_iff] at hstays
    obtain ⟨found, hfound⟩ := hall token (by simp)
    have hwanted : token.wanted? = some token.text :=
      Token.wanted?_eq_some_iff.2 ⟨hliteral, hstays.1, rfl⟩
    exact .inr ⟨rfl, hplain token (by simp) (by simp [hwanted]) _
      (Token.replacement_eq_of_not_misses hfound hstays.2)⟩

/-- What is put behind literal text does not complete a placeholder. -/
lemma head?_shown_ne_closeBrace {text s : Text} {tokens : List Token}
    (h : IsReading text (.literal s :: tokens)) (hplain : PutsInPlain sources tokens)
    (hall : ∀ token ∈ tokens, ∃ found, token.replacement sources = .ok found) :
    (tokens.flatMap (Token.shown sources)).head? ≠ some closeBrace := by
  cases tokens with
  | nil => simp
  | cons token tokens =>
    have hliteral := h.head?_tail token rfl
    obtain ⟨content, hcontent, htoken⟩ := h.known token (by simp) hliteral
    rcases hplain.stays_or_isPlain hall hliteral with hstays | ⟨-, hplain⟩
    · rw [List.flatMap_cons, Token.shown_of_stays hstays, htoken, Token.text_classify,
        placeholder_eq]
      simp [openBrace_ne_closeBrace]
    · rw [List.flatMap_cons, List.head?_append_of_ne_nil _ hplain.1]
      exact fun hhead => hplain.2.2 (List.mem_of_head? hhead)

/-- The placeholders of a page, one token of the template after the other. -/
lemma filter_scan_shown {text : Text} {tokens : List Token} (h : IsReading text tokens)
    (hplain : PutsInPlain sources tokens)
    (hall : ∀ token ∈ tokens, ∃ found, token.replacement sources = .ok found) :
    (scan (tokens.flatMap (Token.shown sources))).filter (!·.isLiteral) =
      tokens.filter (Token.stays sources) := by
  induction tokens generalizing text with
  | nil => rfl
  | cons token tokens ih =>
    have hplain' : PutsInPlain sources tokens := fun t ht => hplain t (by simp [ht])
    have hall' : ∀ t ∈ tokens, ∃ found, t.replacement sources = .ok found :=
      fun t ht => hall t (by simp [ht])
    have ih := ih h.tail hplain' hall'
    rw [List.flatMap_cons]
    by_cases hliteral : token.isLiteral
    · obtain ⟨s, rfl⟩ := Token.exists_eq_literal hliteral
      have hsterile : Sterile s (tokens.flatMap (Token.shown sources)) := by
        intro d hd
        refine h.barren_literal hd ?_ fun _ => head?_shown_ne_closeBrace h hplain' hall'
        rintro rfl
        rfl
      have hstays : Token.stays sources (.literal s) = false := by
        simp [Token.stays, Token.isSentinel, Token.misses, Token.replacement]
      rw [Token.shown_of_isLiteral hliteral, Token.text, scan_append_of_sterile hsterile,
        filter_foldr_addLiteral, ih, List.filter_cons_of_neg (by simp [hstays])]
    · rw [Bool.not_eq_true] at hliteral
      obtain ⟨content, hcontent, htoken⟩ := h.known token (by simp) hliteral
      rcases hplain.stays_or_isPlain hall hliteral with hstays | ⟨hstays, hplain⟩
      · rw [Token.shown_of_stays hstays, List.filter_cons_of_pos hstays, htoken,
          Token.text_classify, scan_placeholder hcontent, ← htoken,
          List.filter_cons_of_pos (by simp [hliteral]), ih]
      · rw [scan_append_of_sterile (sterile_of_not_mem _ hplain.2.1), filter_foldr_addLiteral, ih,
          List.filter_cons_of_neg (by simp [hstays])]

/-- A missed placeholder asks for something, and a slot does not. -/
lemma filterMap_wanted?_filter_stays (tokens : List Token) :
    (tokens.filter (Token.stays sources)).filterMap Token.wanted? =
      (tokens.filter (Token.misses sources)).map Token.text := by
  induction tokens with
  | nil => rfl
  | cons token tokens ih =>
    cases hmisses : token.misses sources with
    | true =>
      have hstays : token.stays sources = true := by simp [Token.stays, hmisses]
      have hsentinel : token.isSentinel = false := by
        cases token <;> simp_all [Token.isSentinel, Token.misses, Token.replacement]
      have hwanted : token.wanted? = some token.text :=
        Token.wanted?_eq_some_iff.2 ⟨Token.isLiteral_of_stays hstays, hsentinel, rfl⟩
      rw [List.filter_cons_of_pos hstays, List.filter_cons_of_pos hmisses,
        List.filterMap_cons_some hwanted, ih, List.map_cons]
    | false =>
      rw [List.filter_cons_of_neg (p := Token.misses sources) (by simp [hmisses]), ← ih]
      cases hsentinel : token.isSentinel with
      | true =>
        have hwanted : token.wanted? = none := by
          cases token <;> simp_all [Token.isSentinel, Token.wanted?]
        rw [List.filter_cons_of_pos (by simp [Token.stays, hsentinel]),
          List.filterMap_cons_none hwanted]
      | false => rw [List.filter_cons_of_neg (by simp [Token.stays, hsentinel, hmisses])]

/-- Tokens that are not missed may be left out before the missed ones are picked. -/
lemma filter_filter_misses (tokens : List Token) {p : Token → Bool}
    (h : ∀ token, token.misses sources = true → p token = true) :
    (tokens.filter p).filter (Token.misses sources) = tokens.filter (Token.misses sources) := by
  rw [List.filter_filter]
  refine List.filter_congr fun token _ => ?_
  cases hmisses : token.misses sources with
  | true => simp [h token hmisses]
  | false => rfl

lemma filterMap_wanted?_eq (tokens : List Token) :
    tokens.filterMap Token.wanted? = (tokens.filter (!·.isLiteral)).filterMap Token.wanted? := by
  rw [List.filterMap_filter]
  refine List.filterMap_congr fun token _ => ?_
  cases token <;> rfl

/-- **Replacements never interact.**  If all that is put in is plain, then the placeholders of the
page are the slots and the missed placeholders of the template, in order.  A second scan lists what
the report lists, and resolving the page again changes neither. -/
theorem scan_resolved {template out : Text} {missed : List Text}
    (hresolved : resolve sources template = .ok ⟨out, missed⟩)
    (hplain : PutsInPlain sources (scan template)) :
    (scan out).filter (!·.isLiteral) = (scan template).filter (Token.stays sources) ∧
      unresolved out = missed ∧ resolve sources out = .ok ⟨out, missed⟩ := by
  obtain ⟨hall, hout⟩ := resolve_eq_ok_iff.1 hresolved
  obtain ⟨rfl, rfl⟩ := Resolved.mk.inj hout
  set out := (scan template).flatMap (Token.shown sources)
  have hfilter := filter_scan_shown (isReading_scan template) hplain hall
  refine ⟨hfilter, ?_, ?_⟩
  · rw [unresolved, filterMap_wanted?_eq, hfilter, filterMap_wanted?_filter_stays]
  · -- every token of the page is literal or one of those that stayed
    have hstays : ∀ token ∈ scan out, token.isLiteral = false →
        token ∈ scan template ∧ token.stays sources = true := by
      intro token htoken hliteral
      have hmem : token ∈ (scan out).filter (!·.isLiteral) :=
        List.mem_filter.2 ⟨htoken, by simp [hliteral]⟩
      rw [hfilter] at hmem
      exact List.mem_filter.1 hmem
    have hshown : ∀ token ∈ scan out, token.shown sources = token.text := by
      intro token htoken
      cases hliteral : token.isLiteral with
      | true => exact Token.shown_of_isLiteral hliteral
      | false => exact Token.shown_of_stays (hstays token htoken hliteral).2
    have hmisses : (scan out).filter (Token.misses sources) =
        (scan template).filter (Token.misses sources) := by
      rw [← filter_filter_misses (p := (!·.isLiteral)) (scan out)
          fun _ h => by simp [Token.isLiteral_of_misses h],
        hfilter, filter_filter_misses (scan template) fun _ h => by simp [Token.stays, h]]
    rw [resolve_eq_ok_iff]
    refine ⟨fun token htoken => ?_, ?_⟩
    · cases hliteral : token.isLiteral with
      | true =>
        cases token <;> simp_all [Token.isLiteral, Token.replacement]
      | false => exact hall token (hstays token htoken hliteral).1
    · rw [hmisses, List.flatMap_congr hshown, (isReading_scan out).whole]

/-- A placeholder that is missed, a fragment, and braces that are not closed. -/
def greeting : Text := placeholder "name" ++ placeholder "component:hello" ++ r"{{!}"

/-- The fragment for `greeting`. -/
def greetingSources : Sources := ⟨.object [], [("hello", "Hello")], .usual⟩

/-- The page that `greeting` makes up. -/
def greeted : Text := placeholder "name" ++ "Hello" ++ r"{{!}"

theorem scan_resolved_greeting :
    resolve greetingSources greeting = .ok ⟨greeted, [placeholder "name"]⟩ ∧
      PutsInPlain greetingSources (scan greeting) ∧
      (scan greeted).filter (!·.isLiteral) =
        (scan greeting).filter (Token.stays greetingSources) ∧
      unresolved greeted = [placeholder "name"] ∧
      resolve greetingSources greeted = .ok ⟨greeted, [placeholder "name"]⟩ := by
  have hresolved : resolve greetingSources greeting = .ok ⟨greeted, [placeholder "name"]⟩ := by rfl
  have hplain : PutsInPlain greetingSources (scan greeting) := by
    have hscan : scan greeting = [.data (placeholder "name") ["name"],
        .component (placeholder "component:hello") "hello", .literal r"{{!}"] := by decide
    have hmissed : Token.replacement greetingSources (.data (placeholder "name") ["name"]) =
        .ok none := by rfl
    have hfound : Token.replacement greetingSources
        (.component (placeholder "component:hello") "hello") = .ok (some "Hello") := by rfl
    intro token htoken hwanted text htext
    rw [hscan] at htoken
    simp only [List.mem_cons, List.not_mem_nil, or_false] at htoken
    rcases htoken with rfl | rfl | rfl
    · simp [hmissed] at htext
    · obtain rfl : "Hello" = text := by simpa [hfound] using htext
      exact ⟨by decide, by decide, by decide⟩
    · simp [Token.wanted?] at hwanted
  exact ⟨hresolved, hplain, scan_resolved hresolved hplain⟩

/-- What is put in must not be empty: braces on both sides of an empty fragment meet, and a second
scan finds a placeholder that the report does not know. -/
example : resolve ⟨.object [], [("empty", [])], .usual⟩
    (r"{{name}" ++ placeholder "component:empty" ++ r"}") =
      .ok ⟨placeholder "name", []⟩ := by rfl

/-! ## What a page depends on -/

section Congr

variable {data other : Keyed Json.Value} {fragments more : Keyed Text} {encoder : Json.Encoder}
  (hdata : ∀ key, data.get? key = other.get? key)
  (hfragments : ∀ name, fragments.get? name = more.get? name)

include hdata hfragments

/-- What takes the place of a token is looked up step by step, so that the order of the documents
and of the fragments makes no difference. -/
lemma Token.replacement_congr {token : Token} (h : ∀ raw, token ≠ .data raw []) :
    token.replacement ⟨.object data, fragments, encoder⟩ =
      token.replacement ⟨.object other, more, encoder⟩ := by
  cases token with
  | literal text => rfl
  | sentinel raw slot => rfl
  | component raw name => simp only [replacement, hfragments]
  | data raw path =>
    cases path with
    | nil => exact absurd rfl (h raw)
    | cons step path =>
      have hlookup : lookup (.object data) (step :: path) =
          lookup (.object other) (step :: path) := by
        simp only [lookup]
        rw [hdata]
      simp only [replacement, lookupText, hlookup]

/-- **A page depends on lookups only**: documents and fragments that are found by the same names
make the same page. -/
lemma resolve_congr (template : Text) : resolve ⟨.object data, fragments, encoder⟩ template =
    resolve ⟨.object other, more, encoder⟩ template := by
  have hpath : ∀ token ∈ scan template, ∀ raw, token ≠ .data raw [] := by
    intro token htoken raw heq
    obtain ⟨content, -, hclassify⟩ := (isReading_scan template).known token htoken
      (by rw [heq]; rfl)
    exact Token.path_ne_nil_of_classify (hclassify.symm.trans heq) rfl
  rw [resolve, resolve]
  generalize scan template = tokens at hpath
  induction tokens with
  | nil => rfl
  | cons token tokens ih =>
    rw [resolveTokens, resolveTokens,
      Token.replacement_congr hdata hfragments (hpath token (by simp)),
      ih fun other hother => hpath other (by simp [hother])]

end Congr

end Template

end OnePage
