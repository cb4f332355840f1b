import OnePage.Proofs.Page.Fill
import OnePage.Proofs.Site.Output

/-!
# The page that a build leaves

The template of a site is resolved token by token, its slots are then filled by searching the text
for their markers, and the page is written before assets are copied beside it.  This file follows
the page from the template to the bytes on the disk.

* `read_page` — the page on the disk is the text of the page, encoded, and nothing has changed
  outside the output directory.
* `Materials.meant` — the page as the template means it, token by token.
* **`read_page_of_build`** — as long as no braces are put where they could begin a marker, no marker
  is completed across a seam and no link is in the way, the page on the disk is the page that the
  template means.
-/

namespace OnePage

namespace Site

open Storage (Disk Path Location validName)
open Template (Slot)

variable {settings : Settings} {config : Config} {world after : World}

/-! ## From the text to the disk -/

lemma not_isCopied_page (place : Location) : ¬ IsCopied place ("index.html" :: place) := by
  rintro ⟨name, hname, hplace | hsuffix⟩
  · simpa using congrArg List.length hplace
  · have hlength : (name :: place).length = (("index.html" : Text) :: place).length := by simp
    obtain ⟨rfl, -⟩ := List.cons.inj (hsuffix.eq_of_length hlength)
    exact absurd hname (by decide)

/-- **The page on the disk** is the text of the page, encoded, if there are no links where assets
are copied to.  If there is none in the place of the page either, a build has changed nothing
outside its output directory. -/
lemma read_page {result : BuildResult} (hbuild : build settings config world = .ok result after)
    (hclean : config.output.IsClean) :
    ∃ ready place materials,
      Storage.ensureDirectory settings.chain config.output world.disk = .ok () ready ∧
      ready.locate config.output = .ok place ∧ ready.HasDirectory place ∧
      gather settings config ready = .ok materials ∧
      (ready.OpensAt config.output place writtenNames →
        ready.Confined (place <:+ ·) after.disk) ∧
      (ready.OpensAt config.output place copyNames →
        ready.Bypasses config.output ("index.html" :: place) →
          ∃ content, Utf8.encode materials.html = .ok content ∧
            after.disk.read config.page = .ok content) := by
  obtain ⟨ready, materials, written, copied, hready, hgather, hwrite, hcopy⟩ := build_eq_ok hbuild
  obtain ⟨place, hplace, hdirectory⟩ := Storage.Disk.isDirectory_eq_true_iff.1
    (Storage.isDirectory_of_ensureDirectory hclean hready)
  refine ⟨ready, place, materials, hready, hplace, hdirectory, hgather, fun hopens => ?_,
    fun hopens hbypasses => ?_⟩
  · have hwritten := confined_of_writePage hopens hwrite
    exact hwritten.trans (confined_of_copyAssets (hopens.grows hwritten.grows) hcopy)
  · -- writing the page
    have hparent : ready.locate config.page.parent = .ok place := config.parent_page ▸ hplace
    have hresult := Storage.written_of_writeAtomically hparent hdirectory hwrite
    obtain ⟨content, stamp, hencode, hface⟩ := hresult.face? hdirectory config.validName_page
    have hgrows := hresult.grows_remove hdirectory config.validName_page
    have hfree := hresult.free
    have hpage : config.page.fault? = none := hresult.fault
    rw [config.entryName_page] at hface hgrows hfree
    rw [config.page_eq] at hpage
    -- copying assets
    have hopened := (hopens.remove hbypasses hfree).grows hgrows
    have hcopied := (ensures_copyAssets hopened).of_ok (.refl written) hcopy
    have hafter := hopened.grows hcopied.1.grows
    have hthere : after.disk.face? ("index.html" :: place) = some (.file content stamp) := by
      rw [hcopied.1.same _ (not_isCopied_page place), hface]
    have hlink : ¬ after.disk.HasLink ("index.html" :: place) := by
      rintro ⟨target, htarget⟩
      simp [hthere] at htarget
    refine ⟨content, hencode, Storage.Disk.read_eq_ok_iff.2 ⟨_, stamp, ?_, hthere⟩⟩
    rw [config.page_eq]
    exact Storage.Disk.locate_child hafter.leads hafter.directory hlink hpage (by decide)

/-! ## From the template to the text -/

/-- What the slot of the style sheets is filled with does not end in a part of a marker. -/
lemma getLast?_slotTexts {disk : Disk} {manifest : Manifest} {styles scripts : Text}
    (h : slotTexts disk config manifest = .ok (styles, scripts)) :
    ∀ c ∈ styles.getLast?, c ∉ Slot.scripts.marker := by
  have hbracketed : Page.IsBracketed styles := by
    rw [slotTexts] at h
    split at h
    · obtain ⟨rfl, -⟩ := Prod.mk.inj (Except.ok.inj h)
      exact Page.isBracketed_tags .style manifest.styles
    · simp only [bind, Except.bind] at h
      split at h
      · simp at h
      · split at h
        · simp at h
        · obtain ⟨rfl, -⟩ := Prod.mk.inj (Except.ok.inj h)
          exact Page.isBracketed_block .style _
  exact hbracketed.getLast?_not_mem .scripts

/-- What has been gathered belongs together. -/
lemma gather_eq_ok {disk : Disk} {materials : Materials}
    (h : gather settings config disk = .ok materials) :
    Template.resolve (materials.sources settings) materials.template = .ok materials.resolved ∧
      ∃ manifest, slotTexts disk config manifest = .ok (materials.styles, materials.scripts) := by
  obtain ⟨data, -, h⟩ := except_bind_eq_ok.1 h
  obtain ⟨found, -, h⟩ := except_bind_eq_ok.1 h
  obtain ⟨⟨template, usedDefault⟩, -, h⟩ := except_bind_eq_ok.1 h
  obtain ⟨resolved, hresolved, h⟩ := except_bind_eq_ok.1 h
  obtain ⟨manifest, -, h⟩ := except_bind_eq_ok.1 h
  obtain ⟨⟨styles, scripts⟩, hslots, h⟩ := except_bind_eq_ok.1 h
  obtain rfl := Except.ok.inj h
  exact ⟨mapError_eq_ok.1 hresolved, manifest, hslots⟩

/-- What has been gathered is what looking for it finds. -/
lemma eq_of_gather {β : Type} {disk : Disk} {materials : Materials} {part : Materials → β} {b : β}
    (hgather : gather settings config disk = .ok materials)
    (h : (gather settings config disk).map part = .ok b) : part materials = b := by
  rw [hgather] at h
  exact Except.ok.inj h

/-! ## From the template to the disk -/

namespace Materials

/-- **The page that the template means**, token by token: the first token of a slot comes to what
the slot is filled with, and every other token to what is found for it, or to itself. -/
def meant (settings : Settings) (materials : Materials) : Text :=
  (Page.pieces (Template.Token.shown (materials.sources settings))
    (.both materials.styles materials.scripts) (Template.scan materials.template)).flatten

/-- No braces are put where they could begin a marker. -/
def IsTame (settings : Settings) (materials : Materials) : Prop :=
  Page.IsTame (materials.sources settings) materials.styles (Template.scan materials.template)

/-- No marker is completed across a seam. -/
def SeamsHold (settings : Settings) (materials : Materials) : Prop :=
  Page.SeamsHold (Template.Token.shown (materials.sources settings))
    (.both materials.styles materials.scripts) (Template.scan materials.template)

end Materials

/-- **The page of a build.**  A build that succeeds has made its output directory and gathered what
the page is made of.  Suppose that no link lies where assets are copied to, and that none in the
place of the page is on the way to it; that no braces are put where they could begin a marker, and
that no marker is completed across a seam.  Then the page on the disk is the one that the template
means. -/
theorem read_page_of_build {source output assets : Text} {mode : BuildMode} {result : BuildResult}
    (hbuild : build settings (.ofTexts source output assets mode) world = .ok result after) :
    ∃ ready place materials,
      Storage.ensureDirectory settings.chain (Path.parse output) world.disk = .ok () ready ∧
      ready.locate (Path.parse output) = .ok place ∧
      gather settings (.ofTexts source output assets mode) ready = .ok materials ∧
      (ready.LinklessAt place copyNames →
        ready.Bypasses (Path.parse output) ("index.html" :: place) →
        materials.IsTame settings → materials.SeamsHold settings →
        ∃ content, Utf8.encode (materials.meant settings) = .ok content ∧
          after.disk.read (Config.ofTexts source output assets mode).page = .ok content) := by
  obtain ⟨ready, place, materials, hready, hplace, hdirectory, hgather, -, hpage⟩ :=
    read_page hbuild (Path.isClean_parse output)
  refine ⟨ready, place, materials, hready, hplace, hgather,
    fun hlinkless hbypasses htame hseams => ?_⟩
  obtain ⟨content, hencode, hread⟩ := hpage ⟨hplace, hdirectory, hlinkless⟩ hbypasses
  obtain ⟨hresolved, manifest, hslots⟩ := gather_eq_ok hgather
  have hmeant : materials.html = materials.meant settings :=
    Page.fill_resolved hresolved htame hseams (getLast?_slotTexts hslots)
  exact ⟨content, hmeant ▸ hencode, hread⟩

/-! ### A small site -/

/-- A disk with the sources of a site: a template and one fragment called `x`. -/
def smallDisk (template fragment : Text) : Disk :=
  let bytes (text : Text) : Bytes := text.flatMap Utf8.encodeCodePoint
  let made := ((Disk.empty.putDirectory ["src"]).putDirectory ["templates", "src"]).putDirectory
    ["components", "src"]
  (made.putFile ["page.html", "templates", "src"] (bytes template) (.fresh 0)).putFile
    ["x.html", "components", "src"] (bytes fragment) (.fresh 0)

/-- The disk of a small site after its output directory has been made. -/
def smallReady (template fragment : Text) : Disk :=
  (smallDisk template fragment).putDirectory ["dist"]

/-- A small site before it is built. -/
def smallWorld (template fragment : Text) : World := ⟨smallDisk template fragment, .silent, 0.0⟩

/-- Nothing has been set. -/
def plainSettings : Settings := { Settings.usual [] with encoder := ⟨none, Json.usualRoom⟩ }

/-- Where a small site lies. -/
def smallConfig : Config := .ofTexts "src" "dist" "assets" .reference

/-- A template that greets and leaves a place for style sheets. -/
def greetingTemplate : Text :=
  "<p>" ++ Template.placeholder "component:x" ++ "</p>" ++ Slot.styles.marker

theorem read_page_of_build_greeting :
    ∃ (result : BuildResult) (after : World) (ready : Disk) (place : Location)
        (materials : Materials),
      build plainSettings smallConfig (smallWorld greetingTemplate "Hello") = .ok result after ∧
      Storage.ensureDirectory plainSettings.chain (Path.parse "dist")
        (smallDisk greetingTemplate "Hello") = .ok () ready ∧
      ready.LinklessAt place copyNames ∧
      ready.Bypasses (Path.parse "dist") ("index.html" :: place) ∧
      materials.IsTame plainSettings ∧
      materials.SeamsHold plainSettings ∧
      ∃ content, Utf8.encode (materials.meant plainSettings) = .ok content ∧
        after.disk.read smallConfig.page = .ok content := by
  have hcomes : succeeds (build plainSettings smallConfig (smallWorld greetingTemplate "Hello"))
      fun _ _ => true := by decide +kernel
  obtain ⟨result, after, hbuild, -⟩ := exists_of_succeeds hcomes
  obtain ⟨ready, place, materials, hready, hplace, hgather, hpage⟩ := read_page_of_build hbuild
  obtain rfl : smallReady greetingTemplate "Hello" = ready := (EStateM.Result.ok.inj hready).2
  have htemplate : materials.template = greetingTemplate :=
    eq_of_gather hgather (by decide +kernel)
  have hfragments : materials.fragments = [(("x" : Text), ("Hello" : Text))] :=
    eq_of_gather hgather (by decide +kernel)
  have hstyles : materials.styles = [] :=
    eq_of_gather hgather (by decide +kernel)
  have hscan : Template.scan greetingTemplate =
      [.literal "<p>", .component (Template.placeholder "component:x") "x", .literal "</p>",
        .sentinel Slot.styles.marker .styles] := by decide +kernel
  have hlinkless (names : List Text) :
      (smallReady greetingTemplate "Hello").LinklessAt place names := by
    have hdist : (smallReady greetingTemplate "Hello").locate (Path.parse "dist") =
        .ok [("dist" : Text)] := by decide +kernel
    obtain rfl := Except.ok.inj (hdist.symm.trans hplace)
    exact Storage.Disk.linklessAt_of_empty rfl _
  have htame : materials.IsTame plainSettings := by
    rw [Materials.IsTame, htemplate, hscan, hstyles]
    refine ⟨Page.contents_of_text (by decide),
      fun token htoken hwanted text htext => ?_, by decide⟩
    simp only [List.mem_cons, List.not_mem_nil, or_false] at htoken
    rcases htoken with rfl | rfl | rfl | rfl
    · simp [Template.Token.wanted?] at hwanted
    · obtain rfl : ("Hello" : Text) = text := by
        simpa [Template.Token.replacement, Materials.sources, hfragments, Keyed.get?] using htext
      exact ⟨by decide, by decide⟩
    · simp [Template.Token.wanted?] at hwanted
    · simp [Template.Token.wanted?] at hwanted
  have hseams : materials.SeamsHold plainSettings := by
    rw [Materials.SeamsHold, htemplate, hscan]
    refine Page.seamsHold_of_literal fun s hs slot => ?_
    obtain rfl | rfl : s = "<p>" ∨ s = "</p>" := by simpa using hs
    · cases slot <;> decide
    · cases slot <;> decide
  have hbypasses : (smallReady greetingTemplate "Hello").Bypasses (Path.parse "dist")
      ("index.html" :: place) := (hlinkless ["index.html"]).bypasses (by simp)
  exact ⟨result, after, _, place, materials, hbuild, hready, hlinkless _, hbypasses, htame, hseams,
    hpage (hlinkless _) hbypasses htame hseams⟩

/-! ### Two pages that stray -/

/-- A page strays if it is another one than its template means, although no braces are put where
they could begin a marker. -/
def Strays (world : World) : Prop :=
  ∃ (result : BuildResult) (after : World) (ready : Disk) (materials : Materials),
    build plainSettings smallConfig world = .ok result after ∧
    Storage.ensureDirectory plainSettings.chain (Path.parse "dist") world.disk = .ok () ready ∧
    gather plainSettings smallConfig ready = .ok materials ∧
    materials.IsTame plainSettings ∧
    ∀ content, Utf8.encode (materials.meant plainSettings) = .ok content →
      after.disk.read smallConfig.page ≠ .ok content

lemma strays_of_read {world : World} {ready : Disk} (page meant : Bytes)
    (hread : succeeds (build plainSettings smallConfig world)
      fun _ after => decide (after.disk.read smallConfig.page = .ok page))
    (hready : Storage.ensureDirectory plainSettings.chain (Path.parse "dist") world.disk =
      .ok () ready)
    (htame : ∀ materials, gather plainSettings smallConfig ready = .ok materials →
      materials.IsTame plainSettings ∧ Utf8.encode (materials.meant plainSettings) = .ok meant)
    (hne : page ≠ meant) : Strays world := by
  obtain ⟨result, after, hbuild, hread⟩ := exists_of_succeeds hread
  obtain ⟨ready', materials, written, copied, hready', hgather, -, -⟩ := build_eq_ok hbuild
  obtain rfl : ready = ready' := (EStateM.Result.ok.inj (hready.symm.trans hready')).2
  obtain ⟨htame, hmeant⟩ := htame materials hgather
  refine ⟨result, after, ready, materials, hbuild, hready, hgather, htame, ?_⟩
  intro content hcontent hpage
  refine hne ?_
  rw [← Except.ok.inj (hpage.symm.trans (of_decide_eq_true hread)),
    Except.ok.inj (hcontent.symm.trans hmeant)]

/-- A template whose literal text lacks one brace of a marker. -/
def seamTemplate : Text := Slot.styles.marker.dropLast ++ Template.placeholder "component:x"

/-- The fragment completes the marker, and the slot is filled. -/
lemma strays_seam : Strays (smallWorld seamTemplate [Template.closeBrace]) := by
  refine strays_of_read [] (Slot.styles.marker.flatMap Utf8.encodeCodePoint)
    (by decide +kernel) rfl (fun materials hgather => ?_) (by decide)
  have htemplate : materials.template = seamTemplate :=
    eq_of_gather hgather (by decide +kernel)
  have hfragments : materials.fragments = [(("x" : Text), [Template.closeBrace])] :=
    eq_of_gather hgather (by decide +kernel)
  have hstyles : materials.styles = [] := eq_of_gather hgather (by decide +kernel)
  have hscan : Template.scan seamTemplate =
      [.literal Slot.styles.marker.dropLast,
        .component (Template.placeholder "component:x") "x"] := by decide +kernel
  have hshown : (Template.Token.component (Template.placeholder "component:x") "x").replacement
      (materials.sources plainSettings) = .ok (some [Template.closeBrace]) := by
    simp [Template.Token.replacement, Materials.sources, hfragments, Keyed.get?]
  constructor
  · rw [Materials.IsTame, htemplate, hscan, hstyles]
    refine ⟨Page.contents_of_text (by decide), fun token htoken hwanted text htext => ?_, by decide⟩
    simp only [List.mem_cons, List.not_mem_nil, or_false] at htoken
    rcases htoken with rfl | rfl
    · simp [Template.Token.wanted?] at hwanted
    · obtain rfl : [Template.closeBrace] = text :=
        Option.some.inj (Except.ok.inj (hshown.symm.trans htext))
      exact ⟨by decide, by decide⟩
  · rw [Materials.meant, htemplate, hscan]
    simp only [Page.pieces, Page.Filling.piece, Template.Token.shown, hshown]
    simp only [Template.Token.replacement]
    decide

/-- A site whose output directory holds a link to itself where style sheets are copied to. -/
def linkedDisk : Disk :=
  let sources := (((Disk.empty.putDirectory ["src"]).putDirectory ["templates", "src"]).putFile
    ["page.html", "templates", "src"] [104, 105] (.fresh 0)).putDirectory ["styles", "src"]
  ((sources.putFile ["index.html", "styles", "src"] [110, 111] (.fresh 0)).putDirectory
    ["dist"]).putLink ["styles", "dist"] "."

/-- A file among the style sheets is copied over the page. -/
lemma strays_link : Strays ⟨linkedDisk, .silent, 0.0⟩ := by
  refine strays_of_read [110, 111] [104, 105] (by decide +kernel) rfl
    (fun materials hgather => ?_) (by decide)
  have htemplate : materials.template = "hi" := eq_of_gather hgather (by decide +kernel)
  have hstyles : materials.styles = [] := eq_of_gather hgather (by decide +kernel)
  have hscan : Template.scan "hi" = [.literal "hi"] := by decide +kernel
  constructor
  · rw [Materials.IsTame, htemplate, hscan, hstyles]
    refine ⟨Page.contents_of_text (by decide), fun token htoken hwanted text htext => ?_, by decide⟩
    obtain rfl := List.mem_singleton.1 htoken
    simp [Template.Token.wanted?] at hwanted
  · rw [Materials.meant, htemplate, hscan]
    simp only [Page.pieces, Page.Filling.piece, Template.Token.shown, Template.Token.replacement]
    decide

/-- **Both conditions are needed.**  Without the one on seams a fragment may complete a marker, and
without the one on links a file may be copied over the page. -/
theorem strays_seam_and_link :
    Strays (smallWorld seamTemplate [Template.closeBrace]) ∧ Strays ⟨linkedDisk, .silent, 0.0⟩ :=
  ⟨strays_seam, strays_link⟩

end Site

end OnePage
