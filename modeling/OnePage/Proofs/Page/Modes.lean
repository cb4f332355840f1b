import OnePage.Proofs.Page.Link

/-!
# What gives a mode away

A page that refers to its assets and a page that holds them can be told apart by four texts: the
tags that begin a block, and the beginnings of the tags that refer to an asset.  This file counts
them in a linked page, together with the markers of the slots.

* `signs` — the four texts and the two markers; a text is `IsPlain` if it holds none of them.
* `IsSign` — a sign has a bracket at its ends only.  So no sign lies across the edge of a text that
  stands in brackets, and `afterEach_insert` finds the signs of such a text where it is put in.
* `forall₂_tags` and `afterEach_block` — the signs in the texts for the slots: one for each name,
  in order, and one for the block.
* `exists_fill_eq` — a page with one marker for each slot is filled in place, whichever of the two
  comes first, and even if what is put in is empty.
* **`link_refersTo_and_holdsBlocks`** — so a page refers to each of its assets, in order, and holds
  no block; or it holds one block for each kind, and no reference.  No marker is left.
-/

namespace OnePage

namespace Page

open Template (Slot)

/-! ## Signs -/

/-- What begins a tag that refers to an asset. -/
def reference : AssetKind → Text
  | .style => "<link rel=\"stylesheet\""
  | .script => "<script src="

/-- The rest of the tag that refers to an asset. -/
def target : AssetKind → (name : Text) → Text
  | .style, name => " href=\"./styles/" ++ name ++ "\">"
  | .script, name => "\"./scripts/" ++ name ++ "\"></script>"

lemma tag_eq (kind : AssetKind) (name : Text) :
    tag kind name = reference kind ++ target kind name := by
  cases kind <;> rfl

/-- What begins a tag that gives the mode away. -/
def traces : List Text :=
  [opening .style, opening .script, reference .style, reference .script]

/-- What is to be found in a page only where linking has put it. -/
def signs : List Text := traces ++ [Slot.styles.marker, Slot.scripts.marker]

/-- A text that holds no sign. -/
def IsPlain (text : Text) : Prop := ∀ sign ∈ signs, ¬ sign <:+: text

instance (text : Text) : Decidable (IsPlain text) :=
  inferInstanceAs (Decidable (∀ sign ∈ signs, ¬ sign <:+: text))

/-- A pattern with brackets at its ends only. -/
structure IsSign (sign : Text) : Prop where
  /-- There is something to be found. -/
  ne_nil : sign ≠ []
  /-- It is not opened after its beginning. -/
  notMem_tail : CodePoint.ofChar '<' ∉ sign.tail
  /-- It is not closed before its end. -/
  notMem_dropLast : CodePoint.ofChar '>' ∉ sign.dropLast

variable {sign : Text} {slot : Slot} {kind : AssetKind}

lemma isSign_of_mem (h : sign ∈ signs) : IsSign sign := by
  have hnil : ∀ sign ∈ signs, sign ≠ [] := by decide
  have htail : ∀ sign ∈ signs, CodePoint.ofChar '<' ∉ sign.tail := by decide
  have hlast : ∀ sign ∈ signs, CodePoint.ofChar '>' ∉ sign.dropLast := by decide
  exact ⟨hnil sign h, htail sign h, hlast sign h⟩

lemma marker_mem_signs (slot : Slot) : slot.marker ∈ signs := by cases slot <;> decide

lemma opening_mem_traces (kind : AssetKind) : opening kind ∈ traces := by cases kind <;> decide

lemma reference_mem_traces (kind : AssetKind) : reference kind ∈ traces := by cases kind <;> decide

lemma opening_injective : Function.Injective opening := by
  intro kind other h
  cases kind <;> cases other <;> first | rfl | exact absurd h (by decide)

lemma reference_injective : Function.Injective reference := by
  intro kind other h
  cases kind <;> cases other <;> first | rfl | exact absurd h (by decide)

lemma opening_ne_reference (kind other : AssetKind) : opening kind ≠ reference other := by
  cases kind <;> cases other <;> decide

/-! ## Signs where a text is put in -/

namespace IsSign

variable {text front rest : Text}

lemma afterEach_eq_nil_iff (h : IsSign sign) : Text.afterEach sign text = [] ↔ ¬ sign <:+: text :=
  Text.afterEach_eq_nil_iff h.ne_nil

lemma not_straddles_front (h : IsSign sign) (htext : IsBracketed text) (hne : text ≠ []) :
    ¬ Text.Straddles sign front (text ++ rest) := by
  refine Text.not_straddles_of_tail front fun c hc => ?_
  rw [List.head?_append_of_ne_nil _ hne] at hc
  rw [htext.head? c hc]
  exact h.notMem_tail

lemma not_straddles_rest (h : IsSign sign) (htext : IsBracketed text) :
    ¬ Text.Straddles sign text rest := by
  refine Text.not_straddles_of_dropLast (fun c hc => ?_) rest
  rw [htext.getLast? c hc]
  exact h.notMem_dropLast

/-- A text in brackets keeps its signs wherever it is put in. -/
lemma afterEach_append_append (h : IsSign sign) (htext : IsBracketed text) (hne : text ≠ []) :
    Text.afterEach sign (front ++ (text ++ rest)) =
      (Text.afterEach sign front).map (· ++ (text ++ rest)) ++
        ((Text.afterEach sign text).map (· ++ rest) ++ Text.afterEach sign rest) := by
  rw [Text.afterEach_append (h.not_straddles_front htext hne),
    Text.afterEach_append (h.not_straddles_rest htext)]

/-- **Putting a text in.**  Where no sign has been, the signs are those of the text. -/
lemma afterEach_insert (h : IsSign sign) (htext : IsBracketed text)
    (hbare : ¬ sign <:+: front ++ rest) :
    Text.afterEach sign (front ++ (text ++ rest)) =
      (Text.afterEach sign text).map (· ++ rest) := by
  by_cases hne : text = []
  · rw [hne, List.nil_append, h.afterEach_eq_nil_iff.2 hbare]
    rfl
  · have hfront : ¬ sign <:+: front := fun hfront =>
      hbare (hfront.trans (List.prefix_append _ _).isInfix)
    have hrest : ¬ sign <:+: rest := fun hrest =>
      hbare (hrest.trans (List.suffix_append _ _).isInfix)
    rw [h.afterEach_append_append htext hne, h.afterEach_eq_nil_iff.2 hfront,
      h.afterEach_eq_nil_iff.2 hrest]
    simp

/-- Two texts put in have their own signs each. -/
lemma afterEach_insert_insert {before between after first second : Text} (h : IsSign sign)
    (hfirst : IsBracketed first) (hsecond : IsBracketed second)
    (hbare : ¬ sign <:+: before ++ (between ++ after)) :
    Text.afterEach sign (before ++ (first ++ (between ++ (second ++ after)))) =
      (Text.afterEach sign first).map (· ++ (between ++ (second ++ after))) ++
        (Text.afterEach sign second).map (· ++ after) := by
  by_cases hne : first = []
  · have hjoined : ¬ sign <:+: (before ++ between) ++ after := by rwa [List.append_assoc]
    rw [hne, List.nil_append, ← List.append_assoc, h.afterEach_insert hsecond hjoined]
    rfl
  · have hbefore : ¬ sign <:+: before := fun hbefore =>
      hbare (hbefore.trans (List.prefix_append _ _).isInfix)
    have hbehind : ¬ sign <:+: between ++ after := fun hbehind =>
      hbare (hbehind.trans (List.suffix_append _ _).isInfix)
    rw [h.afterEach_append_append hfirst hne, h.afterEach_eq_nil_iff.2 hbefore,
      h.afterEach_insert hsecond hbehind]
    rfl

end IsSign

/-! ## The signs of the texts for the slots -/

lemma exists_eq_cons_of_mem_traces (h : sign ∈ traces) :
    ∃ rest, sign = CodePoint.ofChar '<' :: rest ∧ CodePoint.ofChar '<' ∉ rest := by
  have hhead : ∀ sign ∈ traces, sign.head? = some (CodePoint.ofChar '<') := by decide
  have htail := (isSign_of_mem (List.mem_append_left _ h)).notMem_tail
  exact ⟨sign.tail, List.eq_cons_of_mem_head? (hhead sign h), htail⟩

/-- A tag holds no more of the traces than it begins with. -/
lemma afterEach_tag (h : sign ∈ traces) {name : Text} (hname : CodePoint.ofChar '<' ∉ name) :
    Text.afterEach sign (tag kind name) = (Text.after? sign (tag kind name)).toList := by
  obtain ⟨front, back, htag, hfront, hback⟩ : ∃ front back : Text,
      tag kind name = CodePoint.ofChar '<' :: (front ++ (name ++ back)) ∧
        CodePoint.ofChar '<' ∉ front ∧ ∀ sign ∈ traces, Text.afterEach sign back = [] := by
    cases kind
    · exact ⟨"link rel=\"stylesheet\" href=\"./styles/", "\">", by simp [tag, Text.ofString],
        by decide, by decide⟩
    · exact ⟨"script src=\"./scripts/", "\"></script>", by simp [tag, Text.ofString],
        by decide, by decide⟩
  have hnone := hback sign h
  obtain ⟨rest, rfl, -⟩ := exists_eq_cons_of_mem_traces h
  rw [htag, Text.afterEach, Text.afterEach_append_of_not_mem hfront,
    Text.afterEach_append_of_not_mem hname, hnone, List.append_nil]

/-- A tag begins with the reference of its kind, and with no other trace. -/
lemma after?_tag (h : sign ∈ traces) (name : Text) : Text.after? sign (tag kind name) =
    if sign = reference kind then some (target kind name) else none := by
  split_ifs with hsign
  · rw [hsign, tag_eq, Text.after?_append]
  · fin_cases h <;> cases kind <;> first | rfl | exact absurd rfl hsign

lemma afterEach_tags_cons (h : sign ∈ traces) {name : Text} (hname : CodePoint.ofChar '<' ∉ name)
    (names : List Text) : ∃ rest, Text.afterEach sign (tags kind (name :: names)) =
      (Text.after? sign (tag kind name)).toList.map (· ++ rest) ++
        Text.afterEach sign (tags kind names) := by
  cases names with
  | nil =>
    refine ⟨[], ?_⟩
    have hsingle : tags kind [name] = tag kind name := rfl
    have hnil : tags kind [] = [] := rfl
    rw [hsingle, hnil, afterEach_tag h hname]
    simp [Text.afterEach]
  | cons next names =>
    have hbracketed : IsBracketed (tag kind name) := isBracketed_tags kind [name]
    have hsign := isSign_of_mem (List.mem_append_left _ h)
    obtain ⟨rest, rfl, -⟩ := exists_eq_cons_of_mem_traces h
    have hseparator : CodePoint.ofChar '<' ∉ tagSeparator := by decide
    rw [tags_cons, Text.afterEach_append (hsign.not_straddles_rest hbracketed),
      Text.afterEach_append_of_not_mem hseparator, afterEach_tag h hname]
    exact ⟨_, rfl⟩

section Tags

variable {names : List Text} (hopen : ∀ name ∈ names, CodePoint.ofChar '<' ∉ name)

include hopen

/-- **The references among tags** are those to the assets, in order. -/
lemma forall₂_tags : List.Forall₂ (fun name rest => target kind name <+: rest) names
    (Text.afterEach (reference kind) (tags kind names)) := by
  have hreference := reference_mem_traces kind
  induction names with
  | nil => exact .nil
  | cons name names ih =>
    obtain ⟨rest, htags⟩ := afterEach_tags_cons hreference (hopen name (by simp)) names
    rw [htags, after?_tag hreference, if_pos rfl]
    exact .cons (List.prefix_append _ _) (ih fun name hname => hopen name (by simp [hname]))

/-- No other trace is among tags. -/
lemma not_infix_tags (h : sign ∈ traces) (hsign : sign ≠ reference kind) :
    ¬ sign <:+: tags kind names := by
  have hne := (isSign_of_mem (List.mem_append_left _ h)).ne_nil
  rw [← Text.afterEach_eq_nil_iff hne]
  induction names with
  | nil => rfl
  | cons name names ih =>
    obtain ⟨rest, htags⟩ := afterEach_tags_cons h (hopen name (by simp)) names
    rw [htags, after?_tag h, if_neg hsign, ih fun name hname => hopen name (by simp [hname])]
    rfl

end Tags

section Block

variable {contents : List Text} (hplain : ∀ content ∈ contents, IsPlain content)

include hplain

/-- **A block begins once.** -/
lemma afterEach_block : (Text.afterEach (opening kind) (block kind contents)).length = 1 := by
  have hopening := opening_mem_traces kind
  have hsign : opening kind ∈ signs := List.mem_append_left _ hopening
  have hbreak : CodePoint.ofChar '\n' ∉ opening kind := by cases kind <;> decide
  have hclosing : ¬ opening kind <:+: closing kind := by cases kind <;> decide
  have hbehind : ¬ opening kind <:+: contents.flatMap (· ++ Text.newline) ++ closing kind := by
    rw [infix_lines_iff hbreak, or_iff_left hclosing]
    rintro ⟨content, hcontent, hoccurs⟩
    exact hplain content hcontent _ hsign hoccurs
  rw [← Text.afterEach_eq_nil_iff (isSign_of_mem hsign).ne_nil] at hbehind
  obtain ⟨rest, hrest, htail⟩ := exists_eq_cons_of_mem_traces hopening
  have hnewline : CodePoint.ofChar '<' ∉ Text.newline := by decide
  rw [hrest] at hbehind
  rw [block_eq, hrest, Text.afterEach_self_append htail,
    Text.afterEach_append_of_not_mem hnewline, hbehind]
  rfl

/-- Nothing else that is a sign is in a block. -/
lemma not_infix_block (h : sign ∈ signs) (hsign : sign ≠ opening kind) :
    ¬ sign <:+: block kind contents := by
  have hbreak : ∀ sign ∈ signs, CodePoint.ofChar '\n' ∉ sign := by decide
  have hopening : ∀ sign ∈ signs, sign <:+: opening kind → sign = opening kind := by
    cases kind <;> decide
  have hclosing : ∀ sign ∈ signs, ¬ sign <:+: closing kind := by cases kind <;> decide
  rw [infix_block_iff_of_notMem (hbreak sign h)]
  rintro (hoccurs | ⟨content, hcontent, hoccurs⟩ | hoccurs)
  · exact hsign (hopening sign h hoccurs)
  · exact hplain content hcontent sign h hoccurs
  · exact hclosing sign h hoccurs

end Block

/-! ## Filling a page with one marker for each slot -/

/-- **A page to be linked**: each marker is in it once, and with both taken out nothing is left that
linking would put in. -/
structure IsLinkable (html : Text) : Prop where
  /-- Every slot is there once. -/
  once : ∀ slot : Slot, (Text.afterEach slot.marker html).length = 1
  /-- Apart from the slots there are no signs. -/
  plain : IsPlain (fillInPlace html [] [])

section Fill

variable {html : Text}

lemma IsLinkable.cutAt?_ne_none (h : IsLinkable html) (slot : Slot) :
    Text.cutAt? slot.marker html ≠ none := by
  rw [Ne, Text.cutAt?_eq_none_iff,
    ← Text.afterEach_eq_nil_iff (isSign_of_mem (marker_mem_signs slot)).ne_nil,
    ← List.length_eq_zero_iff, h.once]
  exact one_ne_zero

variable {texts : AssetKind → Text}

/-- **Filling a page**, whichever of its slots comes first, and even if there is nothing to put
in. -/
lemma exists_fill_eq (h : IsLinkable html) (hbracketed : IsBracketed (texts .style))
    (hmarker : ¬ Slot.scripts.marker <:+: texts .style) :
    ∃ (first second : AssetKind) (before between after : Text), first ≠ second ∧
      fillInPlace html [] [] = before ++ (between ++ after) ∧
      fill html (texts .style) (texts .script) =
        before ++ (texts first ++ (between ++ (texts second ++ after))) := by
  obtain ⟨⟨before, after⟩, hcut⟩ := Option.ne_none_iff_exists'.1 (h.cutAt?_ne_none .styles)
  cases hearly : Text.cutAt? Slot.scripts.marker before with
  | some cut =>
    obtain ⟨first, second⟩ := cut
    refine ⟨.script, .style, first, second, after, by simp, ?_, ?_⟩
    · rw [fillInPlace_of_early hcut hearly]
      rfl
    · rw [fill_eq_fillInPlace_of_early hcut hearly, fillInPlace_of_early hcut hearly]
  | none =>
    rw [Text.cutAt?_eq_none_iff] at hearly
    have hslot := h.cutAt?_ne_none .scripts
    rw [cutAt?_of_late hcut hearly, Ne, Option.map_eq_none_iff] at hslot
    obtain ⟨⟨first, second⟩, hlate⟩ := Option.ne_none_iff_exists'.1 hslot
    have hbare : fillInPlace html [] [] = before ++ (first ++ second) :=
      fillInPlace_of_late hcut hearly hlate
    have hstraddles : ¬ Text.Straddles Slot.scripts.marker before (texts .style ++ after) := by
      by_cases hne : texts .style = []
      · -- without style sheets the marker is the first one if the page without it holds none
        have hplain : ¬ Slot.scripts.marker <:+: before ++ first := fun hoccurs => by
          refine h.plain _ (marker_mem_signs .scripts) (hoccurs.trans ?_)
          rw [hbare, ← List.append_assoc]
          exact (List.prefix_append _ _).isInfix
        rw [hne, List.nil_append, Text.eq_of_cutAt?_eq_some hlate, List.append_assoc]
        exact Text.not_straddles_append hplain (not_straddles_marker .scripts .scripts _ second)
      · exact (isSign_of_mem (marker_mem_signs .scripts)).not_straddles_front hbracketed hne
    have hstyles : Text.Barren Slot.scripts.marker (texts .style) after :=
      barren_of_not_infix_of_getLast? hmarker (hbracketed.getLast?_not_mem .scripts) after
    refine ⟨.style, .script, before, first, second, by simp, hbare, ?_⟩
    rw [fill_eq_fillInPlace_of_late hcut hearly
      (Text.barren_of_not_infix_of_not_straddles hearly hstraddles) hstyles,
      fillInPlace_of_late hcut hearly hlate]

variable (h : IsLinkable html) (hbracketed : ∀ kind, IsBracketed (texts kind))
  (hmarker : ¬ Slot.scripts.marker <:+: texts .style)

include h hbracketed hmarker

/-- What only the text for one slot holds is in the page as it is in that text. -/
lemma exists_afterEach_fill (hsign : sign ∈ signs) (kind : AssetKind)
    (hother : ∀ other, other ≠ kind → ¬ sign <:+: texts other) :
    ∃ rest, Text.afterEach sign (fill html (texts .style) (texts .script)) =
      (Text.afterEach sign (texts kind)).map (· ++ rest) := by
  have hshape := isSign_of_mem hsign
  obtain ⟨first, second, before, between, after, hne, hbare, hfill⟩ :=
    exists_fill_eq h (hbracketed .style) hmarker
  have hplain : ¬ sign <:+: before ++ (between ++ after) := hbare ▸ h.plain sign hsign
  rw [hfill, hshape.afterEach_insert_insert (hbracketed first) (hbracketed second) hplain]
  by_cases hkind : kind = first
  · rw [hshape.afterEach_eq_nil_iff.2 (hother second (hkind ▸ hne.symm)), List.map_nil,
      List.append_nil, hkind]
    exact ⟨_, rfl⟩
  · obtain rfl : kind = second := by cases kind <;> cases first <;> cases second <;> simp_all
    rw [hshape.afterEach_eq_nil_iff.2 (hother first (Ne.symm hkind))]
    exact ⟨_, rfl⟩

/-- What is in none of the texts is not in the page. -/
lemma not_infix_fill (hsign : sign ∈ signs) (hnone : ∀ kind, ¬ sign <:+: texts kind) :
    ¬ sign <:+: fill html (texts .style) (texts .script) := by
  have hshape := isSign_of_mem hsign
  obtain ⟨rest, hfill⟩ := exists_afterEach_fill h hbracketed hmarker hsign .style fun other _ =>
    hnone other
  rw [← hshape.afterEach_eq_nil_iff, hfill, hshape.afterEach_eq_nil_iff.2 (hnone .style)]
  rfl

end Fill

/-! ## The two modes -/

/-- **A page that refers to its assets**, to each one once and in order, and holds none. -/
structure RefersTo (manifest : Manifest) (page : Text) : Prop where
  /-- There is one reference for each name, in order, and it is to that name. -/
  references : ∀ kind, List.Forall₂ (fun name rest => target kind name <+: rest)
    (manifest.names kind) (Text.afterEach (reference kind) page)
  /-- No block begins. -/
  no_block : ∀ kind, ¬ opening kind <:+: page
  /-- No marker is left. -/
  no_marker : ∀ slot : Slot, ¬ slot.marker <:+: page

/-- **A page that holds its assets**, in one block for each kind, and refers to none. -/
structure HoldsBlocks (page : Text) : Prop where
  /-- One block begins for each kind. -/
  one_block : ∀ kind, (Text.afterEach (opening kind) page).length = 1
  /-- There are no references. -/
  no_reference : ∀ kind, ¬ reference kind <:+: page
  /-- No marker is left. -/
  no_marker : ∀ slot : Slot, ¬ slot.marker <:+: page

variable {html : Text} {σ : Type} {read : AssetKind → Text → StateM σ (Option Text)}
  {manifest : Manifest}

/-- The names of a manifest neither begin a tag nor hold a marker. -/
def HasPlainNames (manifest : Manifest) : Prop :=
  ∀ kind, ∀ name ∈ manifest.names kind,
    CodePoint.ofChar '<' ∉ name ∧ ∀ slot : Slot, ¬ slot.marker <:+: name

/-- Whatever is read for an asset of a manifest is plain. -/
def ReadsPlain (read : AssetKind → Text → StateM σ (Option Text)) (manifest : Manifest) : Prop :=
  ∀ kind, ∀ name ∈ manifest.names kind, ∀ state, ∀ content ∈ (read kind name state).1,
    IsPlain content

lemma refersTo_linkReference (h : IsLinkable html) (hnames : HasPlainNames manifest) :
    RefersTo manifest (linkReference html manifest) := by
  have hopen (kind : AssetKind) : ∀ name ∈ manifest.names kind, CodePoint.ofChar '<' ∉ name :=
    fun name hname => (hnames kind name hname).1
  have hmarkers (slot : Slot) (kind : AssetKind) :
      ¬ slot.marker <:+: tags kind (manifest.names kind) := by
    rw [infix_tags_iff]
    rintro ⟨name, hname, hoccurs⟩
    exact (hnames kind name hname).2 slot hoccurs
  have hbracketed (kind : AssetKind) := isBracketed_tags kind (manifest.names kind)
  have hmarker := hmarkers .scripts .style
  refine ⟨fun kind => ?_, fun kind => ?_, fun slot => ?_⟩
  · have hreference := reference_mem_traces kind
    have hother (other : AssetKind) (hne : other ≠ kind) :
        ¬ reference kind <:+: tags other (manifest.names other) :=
      not_infix_tags (hopen other) hreference (reference_injective.ne hne.symm)
    obtain ⟨rest, hfill⟩ := exists_afterEach_fill h hbracketed hmarker
      (List.mem_append_left _ hreference) kind hother
    have hpage : Text.afterEach (reference kind) (linkReference html manifest) = _ := hfill
    rw [hpage, List.forall₂_map_right_iff]
    exact (forall₂_tags (hopen kind)).imp fun _ _ htarget => htarget.trans (List.prefix_append _ _)
  · have hopening := opening_mem_traces kind
    exact not_infix_fill h hbracketed hmarker (List.mem_append_left _ hopening) fun other =>
      not_infix_tags (hopen other) hopening (opening_ne_reference kind other)
  · exact not_infix_fill h hbracketed hmarker (marker_mem_signs slot) (hmarkers slot)

lemma holdsBlocks_fill {texts : AssetKind → List Text} (h : IsLinkable html)
    (hplain : ∀ kind, ∀ content ∈ texts kind, IsPlain content) :
    HoldsBlocks (fill html (block .style (texts .style)) (block .script (texts .script))) := by
  have hmarkers (slot : Slot) (kind : AssetKind) : ¬ slot.marker <:+: block kind (texts kind) := by
    rw [infix_block_iff]
    rintro ⟨content, hcontent, hoccurs⟩
    exact hplain kind content hcontent _ (marker_mem_signs slot) hoccurs
  have hbracketed (kind : AssetKind) := isBracketed_block kind (texts kind)
  have hmarker := hmarkers .scripts .style
  refine ⟨fun kind => ?_, fun kind => ?_, fun slot => ?_⟩
  · have hsign : opening kind ∈ signs := List.mem_append_left _ (opening_mem_traces kind)
    have hother (other : AssetKind) (hne : other ≠ kind) :
        ¬ opening kind <:+: block other (texts other) :=
      not_infix_block (hplain other) hsign (opening_injective.ne hne.symm)
    obtain ⟨rest, hfill⟩ := exists_afterEach_fill h hbracketed hmarker hsign kind hother
    rw [hfill, List.length_map, afterEach_block (hplain kind)]
  · have hsign : reference kind ∈ signs := List.mem_append_left _ (reference_mem_traces kind)
    exact not_infix_fill h hbracketed hmarker hsign fun other =>
      not_infix_block (hplain other) hsign (opening_ne_reference other kind).symm
  · exact not_infix_fill h hbracketed hmarker (marker_mem_signs slot) (hmarkers slot)

/-- What is read for the assets of a kind.  The scripts are read after the style sheets. -/
def found (read : AssetKind → Text → StateM σ (Option Text)) (manifest : Manifest) (state : σ) :
    AssetKind → List Text
  | .style => (contents read .style manifest.styles state).1
  | .script =>
    (contents read .script manifest.scripts (contents read .style manifest.styles state).2).1

/-- **The modes exclude each other.**  What is linked to a page by reference refers to each asset
once, in order, and begins no block; what is linked inline begins one block for each kind and refers
to nothing.  Neither leaves a marker. -/
theorem link_refersTo_and_holdsBlocks (h : IsLinkable html) (state : σ) :
    (HasPlainNames manifest → RefersTo manifest (link .reference read html manifest state).1) ∧
      (ReadsPlain read manifest → HoldsBlocks (link .inline read html manifest state).1) := by
  refine ⟨refersTo_linkReference h, fun hread => ?_⟩
  have hplain (kind : AssetKind) : ∀ content ∈ found read manifest state kind, IsPlain content := by
    cases kind with
    | style => exact of_mem_contents (hread .style) _
    | script => exact of_mem_contents (hread .script) _
  have hpage : (link .inline read html manifest state).1 = fill html
      (block .style (found read manifest state .style))
      (block .script (found read manifest state .script)) := rfl
  rw [hpage]
  exact holdsBlocks_fill h hplain

/-- A page with both slots, the scripts first, that leaves brackets and braces open around them. -/
def edgy : Text := "<style" ++ Slot.scripts.marker ++ r"<{{" ++ Slot.styles.marker ++ r"}>"

/-- Assets that come close to a sign each. -/
def edges : AssetKind → Text
  | .style => "style> <"
  | .script => "script <script"

/-- Nothing joins up across the seams. -/
theorem link_refersTo_and_holdsBlocks_edgy :
    (IsLinkable edgy ∧ HasPlainNames pair ∧ ReadsPlain (countingReader edges) pair) ∧
      RefersTo pair (link .reference (countingReader edges) edgy pair 0).1 ∧
      HoldsBlocks (link .inline (countingReader edges) edgy pair 0).1 := by
  have hlinkable : IsLinkable edgy := by
    refine ⟨fun slot => by cases slot <;> decide, ?_⟩
    decide
  have hnames : HasPlainNames pair := by
    intro kind name hname
    cases kind <;> obtain rfl := List.mem_singleton.1 hname <;>
      exact ⟨by decide, fun slot => by cases slot <;> decide⟩
  have hread : ReadsPlain (countingReader edges) pair := by
    intro kind name hname state content hcontent
    obtain rfl : edges kind = content := Option.some.inj hcontent
    cases kind <;> decide
  have hreference : RefersTo pair (link .reference (countingReader edges) edgy pair 0).1 :=
    (link_refersTo_and_holdsBlocks hlinkable 0).1 hnames
  have hinline : HoldsBlocks (link .inline (countingReader edges) edgy pair 0).1 :=
    (link_refersTo_and_holdsBlocks hlinkable 0).2 hread
  exact ⟨⟨hlinkable, hnames, hread⟩, hreference, hinline⟩

end Page

end OnePage
