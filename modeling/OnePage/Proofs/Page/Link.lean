import OnePage.Page.Link
import OnePage.Proofs.Page.Fill

/-!
# Where assets are put in

Assets are put in one after the other, and the scripts are searched for in a page that already holds
the style sheets.  This file says when that is the same as putting both in where their markers stand
in the page as it was.

* `fillInPlace` — a page with both texts put in at the first markers of the page as it was.
* `ClosesCleanly` — no marker of the scripts appears where the marker of the style sheets is taken
  out.
* `fill_eq_fillInPlace` — a page is filled in place unless the text for the style sheets holds the
  marker of the scripts, or is empty and the page does not close cleanly.
* `infix_tags_iff` and `infix_block_iff` — a marker in the text for a slot comes from the name or
  the content of an asset.
* **`link_eq_fillInPlace`** — so a page is linked in place, whatever the assets hold, as long as no
  style sheet brings the marker of the scripts with it and nothing closes over an empty text.
-/

namespace OnePage

namespace Page

open Template (Slot placeholder)

/-! ## In place -/

/-- **A page with both texts put in where the page itself says.**  Each text takes the place of the
first marker of its slot in `html`, and neither text is searched. -/
def fillInPlace (html styles scripts : Text) : Text :=
  match Text.cutAt? Slot.styles.marker html, Text.cutAt? Slot.scripts.marker html with
  | none, none => html
  | some (before, after), none => before ++ styles ++ after
  | none, some (before, after) => before ++ scripts ++ after
  | some (before, after), some (before', after') =>
    if before.length < before'.length then
      before ++ styles ++ before'.drop (before.length + Slot.styles.marker.length) ++
        scripts ++ after'
    else
      before' ++ scripts ++ before.drop (before'.length + Slot.scripts.marker.length) ++
        styles ++ after

/-- No marker begins in front of a marker and ends in it. -/
lemma not_straddles_marker (slot other : Slot) (before after : Text) :
    ¬ Text.Straddles slot.marker before (other.marker ++ after) := by
  rintro ⟨v, w, hv, hw, hmarker, -, hprefix⟩
  have hdrop : w = slot.marker.drop v.length := by simp [hmarker]
  have hlength : v.length + w.length = slot.marker.length := by simp [hmarker]
  have hlengths : slot.marker.length ≤ 14 ∧ 13 ≤ other.marker.length := by
    cases slot <;> cases other <;> decide
  have hvpos := List.length_pos_of_ne_nil hv
  have hwpos := List.length_pos_of_ne_nil hw
  have hwithin : w <+: other.marker :=
    List.prefix_of_prefix_length_le hprefix (List.prefix_append _ _) (by omega)
  have hnone : ∀ k < slot.marker.length, 0 < k → ¬ slot.marker.drop k <+: other.marker := by
    cases slot <;> cases other <;> decide
  exact hnone v.length (by omega) hvpos (hdrop ▸ hwithin)

variable {html styles scripts before after first second : Text}

lemma fill_of_cutAt?_eq_some (h : Text.cutAt? Slot.styles.marker html = some (before, after)) :
    fill html styles scripts =
      Text.replaceFirst Slot.scripts.marker scripts (before ++ (styles ++ after)) := by
  have hstyled : Text.replaceFirst Slot.styles.marker styles html =
      before ++ styles ++ after := by
    rw [Text.replaceFirst, h]
  rw [fill, hstyled, List.append_assoc]

/-- In a page with the marker of the scripts in front of that of the style sheets, filling in place
puts the scripts first. -/
lemma fillInPlace_of_early (h : Text.cutAt? Slot.styles.marker html = some (before, after))
    (hearly : Text.cutAt? Slot.scripts.marker before = some (first, second)) :
    fillInPlace html styles scripts = first ++ (scripts ++ (second ++ (styles ++ after))) := by
  have hbefore := Text.eq_of_cutAt?_eq_some hearly
  have hcut : Text.cutAt? Slot.scripts.marker html =
      some (first, second ++ (Slot.styles.marker ++ after)) := by
    rw [Text.eq_of_cutAt?_eq_some h, List.append_assoc]
    exact Text.cutAt?_append_of_eq_some hearly _
  have hlength : ¬ before.length < first.length := by simp [hbefore]
  have hdrop : before.drop (first.length + Slot.scripts.marker.length) = second := by
    simp [hbefore]
  simp only [fillInPlace, h, hcut, hlength, if_false, hdrop, List.append_assoc]

/-- Scripts in front of the style sheets are found whatever the style sheets are. -/
lemma fill_eq_fillInPlace_of_early (h : Text.cutAt? Slot.styles.marker html = some (before, after))
    (hearly : Text.cutAt? Slot.scripts.marker before = some (first, second)) :
    fill html styles scripts = fillInPlace html styles scripts := by
  have hcut := Text.cutAt?_append_of_eq_some hearly (styles ++ after)
  rw [fill_of_cutAt?_eq_some h, Text.replaceFirst, hcut, fillInPlace_of_early h hearly]
  simp

/-- The scripts' marker is behind that of the style sheets if it is not in front of it. -/
lemma cutAt?_of_late (h : Text.cutAt? Slot.styles.marker html = some (before, after))
    (hearly : ¬ Slot.scripts.marker <:+: before) :
    Text.cutAt? Slot.scripts.marker html = (Text.cutAt? Slot.scripts.marker after).map fun cut =>
      (before ++ (Slot.styles.marker ++ cut.1), cut.2) := by
  have hbefore : Text.Barren Slot.scripts.marker before (Slot.styles.marker ++ after) :=
    Text.barren_of_not_infix_of_not_straddles hearly
      (not_straddles_marker .scripts .styles before after)
  have hmarker : Text.Barren Slot.scripts.marker Slot.styles.marker after :=
    barren_placeholder (isContent_name .styles) (by decide) (isContent_name .scripts)
      (by decide) after
  rw [Text.eq_of_cutAt?_eq_some h, List.append_assoc, Text.cutAt?_append_of_barren hbefore,
    Text.cutAt?_append_of_barren hmarker, Option.map_map]
  rfl

/-- In a page with the marker of the style sheets in front of that of the scripts, filling in place
puts the style sheets first. -/
lemma fillInPlace_of_late (h : Text.cutAt? Slot.styles.marker html = some (before, after))
    (hearly : ¬ Slot.scripts.marker <:+: before)
    (hlate : Text.cutAt? Slot.scripts.marker after = some (first, second)) :
    fillInPlace html styles scripts = before ++ (styles ++ (first ++ (scripts ++ second))) := by
  have hcut := cutAt?_of_late h hearly
  rw [hlate, Option.map_some] at hcut
  have hlength : before.length < (before ++ (Slot.styles.marker ++ first)).length := by
    have hpos : 0 < Slot.styles.marker.length := by decide
    simp only [List.length_append]
    omega
  have hdrop : (before ++ (Slot.styles.marker ++ first)).drop
      (before.length + Slot.styles.marker.length) = first := by
    rw [← List.append_assoc, ← List.length_append, List.drop_left]
  simp only [fillInPlace, h, hcut, hlength, if_true, hdrop, List.append_assoc]

/-- Scripts behind the style sheets are found if no marker of theirs begins in what has been put
in, or in front of it. -/
lemma fill_eq_fillInPlace_of_late (h : Text.cutAt? Slot.styles.marker html = some (before, after))
    (hearly : ¬ Slot.scripts.marker <:+: before)
    (hbefore : Text.Barren Slot.scripts.marker before (styles ++ after))
    (hstyles : Text.Barren Slot.scripts.marker styles after) :
    fill html styles scripts = fillInPlace html styles scripts := by
  rw [fill_of_cutAt?_eq_some h, Text.replaceFirst, Text.cutAt?_append_of_barren hbefore,
    Text.cutAt?_append_of_barren hstyles]
  cases hlate : Text.cutAt? Slot.scripts.marker after with
  | none => simp [fillInPlace, h, cutAt?_of_late h hearly, hlate]
  | some cut => simp [fillInPlace_of_late h hearly hlate]

/-- Taking the first marker of the style sheets out of a page does not join the parts of a marker of
the scripts. -/
def ClosesCleanly (html : Text) : Prop :=
  ∀ before after, Text.cutAt? Slot.styles.marker html = some (before, after) →
    ¬ Text.Straddles Slot.scripts.marker before after

/-- **Filling in place.**  A text for the style sheets that stands in brackets does not get in the
way of the scripts if it does not hold their marker and, being empty, does not join the parts of
one. -/
lemma fill_eq_fillInPlace (hmarker : ¬ Slot.scripts.marker <:+: styles)
    (hbracketed : IsBracketed styles) (hcloses : styles = [] → ClosesCleanly html) :
    fill html styles scripts = fillInPlace html styles scripts := by
  cases hstyles : Text.cutAt? Slot.styles.marker html with
  | none =>
    rw [fill, fillInPlace, Text.replaceFirst, Text.replaceFirst, hstyles]
    cases Text.cutAt? Slot.scripts.marker html <;> rfl
  | some cut =>
    obtain ⟨before, after⟩ := cut
    cases hearly : Text.cutAt? Slot.scripts.marker before with
    | some cut => exact fill_eq_fillInPlace_of_early hstyles hearly
    | none =>
      have habsent := Text.cutAt?_eq_none_iff.1 hearly
      have hstraddles : ¬ Text.Straddles Slot.scripts.marker before (styles ++ after) := by
        cases styles with
        | nil => exact hcloses rfl before after hstyles
        | cons c styles =>
          have hhead := hbracketed.head?_not_mem .scripts
          exact Text.not_straddles_of_head? before (by simpa using hhead)
      exact fill_eq_fillInPlace_of_late hstyles habsent
        (Text.barren_of_not_infix_of_not_straddles habsent hstraddles)
        (barren_of_not_infix_of_getLast? hmarker (hbracketed.getLast?_not_mem .scripts) after)

/-! ## Where a marker in the texts for the slots comes from -/

section Infix

variable {slot : Slot} {kind : AssetKind}

lemma not_infix_nil : ¬ slot.marker <:+: [] := by
  rw [List.infix_nil]
  exact Template.placeholder_ne_nil _

/-- **A marker among tags is in one of the names they refer to.** -/
lemma infix_tags_iff {names : List Text} : slot.marker <:+: tags kind names ↔
    ∃ name ∈ names, slot.marker <:+: name := by
  have htag (name rest : Text) : slot.marker <:+: tag kind name ++ rest ↔
      slot.marker <:+: name ∨ slot.marker <:+: rest := by
    have haround : ∃ before after : Text, tag kind name = before ++ name ++ after ∧
        (before ≠ [] ∧ ∀ c ∈ before, c ∉ slot.marker) ∧
        (after ≠ [] ∧ ∀ c ∈ after, c ∉ slot.marker) := by
      cases kind <;> refine ⟨_, _, rfl, ?_⟩ <;> cases slot <;> decide
    obtain ⟨before, after, htag, ⟨hbefore, hforeign⟩, hafter, hforeign'⟩ := haround
    rw [htag, List.append_assoc, List.append_assoc, ← List.nil_append (before ++ _),
      Text.infix_append_iff_of_foreign hforeign hbefore, or_iff_right not_infix_nil,
      Text.infix_append_iff_of_foreign hforeign' hafter]
  have hseparator (rest : Text) : slot.marker <:+: tagSeparator ++ rest ↔
      slot.marker <:+: rest := by
    have hforeign : ∀ c ∈ tagSeparator, c ∉ slot.marker := by cases slot <;> decide
    rw [← List.nil_append (tagSeparator ++ rest),
      Text.infix_append_iff_of_foreign hforeign (by decide), or_iff_right not_infix_nil]
  induction names with
  | nil => exact iff_of_false not_infix_nil (by simp)
  | cons name names ih =>
    rw [List.exists_mem_cons_iff]
    refine Iff.trans ?_ (or_congr_right ih)
    cases names with
    | nil =>
      have hsingle : tags kind [name] = tag kind name ++ [] := (List.append_nil _).symm
      rw [hsingle, htag]
      rfl
    | cons next names =>
      rw [tags_cons, htag, hseparator]

/-- What begins the block of a kind. -/
def opening (kind : AssetKind) : Text := "<" ++ kind.word ++ ">"

/-- What ends the block of a kind. -/
def closing (kind : AssetKind) : Text := "</" ++ kind.word ++ ">"

variable {pattern : Text} {contents : List Text}

lemma block_eq (kind : AssetKind) (contents : List Text) : block kind contents =
    opening kind ++ (Text.newline ++ (contents.flatMap (· ++ Text.newline) ++ closing kind)) := by
  have hbreak : Text.ofString ">\n" = Text.ofString ">" ++ Text.newline := rfl
  simp only [block, opening, closing, hbreak, List.append_assoc]

/-- A pattern without line breaks is in one of several lines or in what follows them. -/
lemma infix_lines_iff (h : CodePoint.ofChar '\n' ∉ pattern) {rest : Text} :
    pattern <:+: contents.flatMap (· ++ Text.newline) ++ rest ↔
      (∃ content ∈ contents, pattern <:+: content) ∨ pattern <:+: rest := by
  have hforeign : ∀ c ∈ Text.newline, c ∉ pattern := by simpa [Text.newline] using h
  induction contents with
  | nil => simp
  | cons content contents ih =>
    rw [List.flatMap_cons, List.append_assoc, List.append_assoc,
      Text.infix_append_iff_of_foreign hforeign (by decide), List.exists_mem_cons_iff, or_assoc]
    exact or_congr_right ih

/-- Such a pattern is in a block if it is in one of the contents, or in what is around them. -/
lemma infix_block_iff_of_notMem (h : CodePoint.ofChar '\n' ∉ pattern) :
    pattern <:+: block kind contents ↔ pattern <:+: opening kind ∨
      (∃ content ∈ contents, pattern <:+: content) ∨ pattern <:+: closing kind := by
  have hforeign : ∀ c ∈ Text.newline, c ∉ pattern := by simpa [Text.newline] using h
  rw [block_eq, Text.infix_append_iff_of_foreign hforeign (by decide), infix_lines_iff h]

/-- **A marker in a block is in one of its contents.** -/
lemma infix_block_iff : slot.marker <:+: block kind contents ↔
    ∃ content ∈ contents, slot.marker <:+: content := by
  have hbreak : CodePoint.ofChar '\n' ∉ slot.marker := by cases slot <;> decide
  have hopening : ¬ slot.marker <:+: opening kind := by cases slot <;> cases kind <;> decide
  have hclosing : ¬ slot.marker <:+: closing kind := by cases slot <;> cases kind <;> decide
  rw [infix_block_iff_of_notMem hbreak, or_iff_right hopening, or_iff_left hclosing]

end Infix

/-! ## Linking in place -/

section Link

variable {σ : Type} {read : AssetKind → Text → StateM σ (Option Text)} {mode : BuildMode}
  {manifest : Manifest}

/-- The texts for the style sheets and for the scripts. -/
def slotTexts (mode : BuildMode) (read : AssetKind → Text → StateM σ (Option Text))
    (manifest : Manifest) : StateM σ (Text × Text) :=
  match mode with
  | .reference => pure (tags .style manifest.styles, tags .script manifest.scripts)
  | .inline => do
    let styles ← contents read .style manifest.styles
    let scripts ← contents read .script manifest.scripts
    pure (block .style styles, block .script scripts)

/-- **The style sheets keep away from the marker of the scripts**: none brings it with it, in its
name or in its content, and without any tags the page closes cleanly. -/
def StylesKeepAway (mode : BuildMode) (read : AssetKind → Text → StateM σ (Option Text))
    (html : Text) (names : List Text) : Prop :=
  match mode with
  | .reference => (∀ name ∈ names, ¬ Slot.scripts.marker <:+: name) ∧
      (names = [] → ClosesCleanly html)
  | .inline => ∀ name ∈ names, ∀ state, ∀ content ∈ (read .style name state).1,
      ¬ Slot.scripts.marker <:+: content

/-- Contents that have been read are contents that a read has found. -/
lemma of_mem_contents {kind : AssetKind} {names : List Text} {p : Text → Prop}
    (h : ∀ name ∈ names, ∀ state, ∀ content ∈ (read kind name state).1, p content) (state : σ) :
    ∀ content ∈ (contents read kind names state).1, p content := by
  induction names generalizing state with
  | nil => intro content hcontent; exact absurd hcontent List.not_mem_nil
  | cons name names ih =>
    intro content hcontent
    have hcons : (contents read kind (name :: names) state).1 =
        (read kind name state).1.toList ++
          (contents read kind names (read kind name state).2).1 := rfl
    rw [hcons, List.mem_append, Option.mem_toList] at hcontent
    rcases hcontent with hcontent | hcontent
    · exact h name (by simp) state content hcontent
    · exact ih (fun name hname => h name (by simp [hname])) _ content hcontent

/-- **Linking in place.**  If the style sheets keep away from the marker of the scripts, both texts
are put in where the page itself says, whatever else the assets hold. -/
theorem link_eq_fillInPlace (h : StylesKeepAway mode read html manifest.styles) :
    link mode read html manifest =
      (fun texts => fillInPlace html texts.1 texts.2) <$> slotTexts mode read manifest := by
  cases mode with
  | reference =>
    obtain ⟨hnames, hcloses⟩ := h
    have hmarker : ¬ Slot.scripts.marker <:+: tags .style manifest.styles := by
      rw [infix_tags_iff]
      rintro ⟨name, hname, hoccurs⟩
      exact hnames name hname hoccurs
    have hempty (hnil : tags .style manifest.styles = []) : manifest.styles = [] := by
      cases hstyles : manifest.styles with
      | nil => rfl
      | cons name names =>
        have hhead := head?_tags_cons .style name names
        rw [hstyles] at hnil
        simp [hnil] at hhead
    have hfill : linkReference html manifest = _ :=
      fill_eq_fillInPlace hmarker (isBracketed_tags .style _) fun hnil => hcloses (hempty hnil)
    rw [link, hfill, slotTexts, map_pure]
  | inline =>
    funext state
    set texts := (contents read .style manifest.styles state).1
    have hmarker : ¬ Slot.scripts.marker <:+: block .style texts := by
      rw [infix_block_iff]
      rintro ⟨content, hcontent, hoccurs⟩
      exact of_mem_contents h state content hcontent hoccurs
    have hne : block .style texts ≠ [] := List.append_ne_nil_of_right_ne_nil _ (by decide)
    have hfill (scripts : Text) : fill html (block .style texts) scripts = _ :=
      fill_eq_fillInPlace hmarker (isBracketed_block .style texts) fun hnil => absurd hnil hne
    exact congrArg (fun page => (page, _)) (hfill _)

/-- A page with both slots. -/
def bare : Text := "<head>" ++ Slot.styles.marker ++ "</head>" ++ Slot.scripts.marker

/-- One style sheet and one script. -/
def pair : Manifest := ⟨["a.css"], ["b.js"]⟩

/-- A reader that finds the same content in every asset of a kind and counts how often it is
asked. -/
def countingReader (found : AssetKind → Text) (kind : AssetKind) (_ : Text) :
    StateM Nat (Option Text) := fun reads => (some (found kind), reads + 1)

/-- Contents that hold the marker of their own slot. -/
def ownMarkers : AssetKind → Text
  | .style => Slot.styles.marker
  | .script => Slot.scripts.marker

/-- Markers in assets stay where they are. -/
theorem link_eq_fillInPlace_ownMarkers :
    StylesKeepAway .inline (countingReader ownMarkers) bare pair.styles ∧
      link .inline (countingReader ownMarkers) bare pair 0 =
        ("<head><style>\n" ++ Slot.styles.marker ++ "\n</style></head><script>\n" ++
          Slot.scripts.marker ++ "\n</script>", 2) := by
  have haway : StylesKeepAway .inline (countingReader ownMarkers) bare pair.styles := by
    intro name hname state content hcontent
    obtain rfl : Slot.styles.marker = content := Option.some.inj hcontent
    decide
  refine ⟨haway, ?_⟩
  rw [link_eq_fillInPlace haway]
  exact Prod.ext (by decide) rfl

/-- Contents that hold the marker of the other slot. -/
def foreignMarkers : AssetKind → Text
  | .style => Slot.scripts.marker
  | .script => "x"

/-- A page in which the marker of the style sheets keeps the parts of another one apart. -/
def parted : Text := r"{{JS_" ++ Slot.styles.marker ++ r"SCRIPTS}}"

/-- **Assets are searched.**  The script ends up inside of the style sheet that holds its marker,
and its own place stays as it was.  And where there are no style sheets, it is put in for a marker
that the page does not hold. -/
theorem link_ne_fillInPlace :
    (link .inline (countingReader foreignMarkers) bare pair 0 =
        ("<head><style>\n<script>\nx\n</script>\n</style></head>" ++ Slot.scripts.marker, 2) ∧
      ((fun texts => fillInPlace bare texts.1 texts.2) <$>
          slotTexts .inline (countingReader foreignMarkers) pair) 0 =
        ("<head><style>\n" ++ Slot.scripts.marker ++
          "\n</style></head><script>\nx\n</script>", 2)) ∧
    (link .reference (countingReader foreignMarkers) parted ⟨[], ["b.js"]⟩ 0 =
        (tag .script "b.js", 0) ∧
      ((fun texts => fillInPlace parted texts.1 texts.2) <$>
          slotTexts .reference (countingReader foreignMarkers) ⟨[], ["b.js"]⟩) 0 =
        (Slot.scripts.marker, 0)) :=
  ⟨⟨Prod.ext (by decide) rfl, Prod.ext (by decide) rfl⟩,
    ⟨Prod.ext (by decide) rfl, Prod.ext (by decide) rfl⟩⟩

end Link

end Page

end OnePage
