import OnePage.Proofs.Site.References
import OnePage.Proofs.Storage.CopyAgain
import OnePage.Proofs.Storage.Listing
import OnePage.Proofs.Storage.Overwrite

/-!
# Building once more

A build that is run again finds its page and its copies where it has put them.  This file shows that
it does the same with them and leaves what it found.

* `survey_congr` — what is found depends on the tree of the sources only.
* `confined_of_steps` — a build changes nothing outside its output.
* `write_again` and `copy_again` — the page is written and the assets are copied once more.
* **`build_again`** — a build changes nothing outside its output, and if the sources are found on
  the same way afterwards, another build comes to the same and changes nothing at all.
-/

namespace OnePage

namespace Storage

variable {old new : Disk} {p : Path} {ending : Text}

/-- What has been listed as no directory is none later if nothing else is seen there. -/
lemma isDirectory_stays {middle : Disk} {found : List Text}
    (hlist : old.listFiles p ending = .ok found) (hsame : SameAt old new p)
    (hgrows : old.Grows middle) (h : middle.isDirectory p = .ok false) :
    new.isDirectory p = .ok false := by
  rw [hsame.isDirectory]
  rcases Disk.listFiles_eq_ok hlist with ⟨hnone, -⟩ | ⟨l, hl, hdirectory, -⟩
  · exact hnone
  · have hstill := Disk.isDirectory_eq_true_iff.2
      ⟨l, Disk.locate_grows hl hgrows, hgrows.directory l hdirectory⟩
    simp [h] at hstill

end Storage

namespace Site

open Storage (Disk Path Location Branch SameContents SameTree Repeatable SameKind nominal validName)

variable {settings : Settings} {config : Config} {world after : World}
  {old ready written new : Disk} {prepared : Prepared} {result : BuildResult} {now : Float}
  {place : Location}

/-! ## Looking once more -/

/-- **What is found** depends on the tree of the sources only. -/
lemma survey_congr (h : SameTree config.source old new) :
    survey settings config now new = survey settings config now old := by
  have hfound := sameFindings_of_sameTree h
  simp only [survey, linkAssets_eq, hfound.documents, hfound.fragments, hfound.template,
    hfound.discover]
  cases hmanifest : discover old config.styles config.scripts with
  | error fault => rfl
  | ok manifest => simp only [bind, Except.bind, Except.mapError, hfound.slots manifest hmanifest]

/-! ## What a build leaves -/

/-- What a build leaves in its output is no temporary file. -/
lemma temporaryNameWith_notMem (name filling : Text) :
    Storage.entryName (Storage.temporaryNameWith name filling) ∉ copyNames ∧
      Storage.entryName (Storage.temporaryNameWith name filling) ≠ "index.html" := by
  have hfirst : (Storage.temporaryNameWith name filling).head? = some (CodePoint.ofChar '.') := by
    have hdot : (("." : Text)).head? = some (CodePoint.ofChar '.') := by decide
    simp [Storage.temporaryNameWith, List.head?_append, hdot]
  have hne {other : Text} (hascii : ∀ c ∈ other, c.value < 0x80)
      (hother : other.head? ≠ some (CodePoint.ofChar '.')) :
      Storage.entryName (Storage.temporaryNameWith name filling) ≠ other := by
    intro h
    rw [(Storage.entryName_eq_iff hascii).1 h] at hfirst
    exact hother hfirst
  have hcopied : ∀ other ∈ copyNames, (∀ c ∈ other, c.value < 0x80) ∧
      other.head? ≠ some (CodePoint.ofChar '.') := by decide
  exact ⟨fun h => hne (hcopied _ h).1 (hcopied _ h).2 rfl, hne (by decide) (by decide)⟩

section Steps

variable (hsteps : BuildSteps settings config now old result new ready written prepared)
  (hlinkless : ready.Linkless) (hopens : ready.OpensAt config.output place writtenNames)

include hsteps hopens

/-- What has been done by the time the page is there, and when all has been copied. -/
lemma confined_of_steps :
    ready.Confined (place <:+ ·) written ∧ written.Confined (place <:+ ·) new := by
  have hwritten := confined_of_writePage hopens hsteps.write
  exact ⟨hwritten, confined_of_copyAssets (hopens.grows hwritten.grows) hsteps.copy⟩

/-- Where nothing is copied to, copying changes nothing. -/
lemma face?_of_steps {l : Location} (hl : ¬ IsCopied place l) : new.face? l = written.face? l := by
  obtain ⟨hwritten, -⟩ := confined_of_steps hsteps hopens
  have hcopies : ready.OpensAt config.output place copyNames :=
    hopens.mono fun _ => List.mem_cons_of_mem _
  have hcopied :=
    (ensures_copyAssets (hcopies.grows hwritten.grows)).of_ok (.refl written) hsteps.copy
  exact hcopied.1.same l hl

variable (hclean : config.output.IsClean) (hsource : ready.IsBeside config.source place)
  (hassets : ready.IsBeside config.assets place)

include hlinkless hclean hsource hassets

/-- **What has been copied**: nothing has been lost, and as long as the same is seen of the sources,
each of the copies can be repeated. -/
lemma repeatable_of_steps : (∀ l, written.content? l ≠ none → new.content? l ≠ none) ∧
    (SameTree config.source ready new → ∃ styles scripts assets,
      result.copied = styles + scripts + assets ∧
      Repeatable new config.styles (config.output.child "styles") styles ∧
      Repeatable new config.scripts (config.output.child "scripts") scripts ∧
      Repeatable new config.assets (config.output.child "assets") assets) := by
  obtain ⟨hwritten, -⟩ := confined_of_steps hsteps hopens
  have hcopies : ready.OpensAt config.output place copyNames :=
    hopens.mono fun _ => List.mem_cons_of_mem _
  obtain ⟨styles, first, scripts, second, assets, hn, hstyles, hscripts, hassets', hfirst, hsecond,
    hthird⟩ := copies_of_copyAssets (hcopies.grows hwritten.grows) hsteps.copy
  -- each copy changes the output only
  have hwithin {disk middle : Disk} {folder : Text}
      (h : disk.Confined (Branch place folder) middle) :
      disk.Confined (place <:+ ·) middle := h.mono fun l => suffix_of_branch
  have hready₁ := hwritten.trans (hwithin hfirst)
  have hready₂ := hready₁.trans (hwithin hsecond)
  have hnew₂ := hwithin hthird
  have hnew₁ := (hwithin hsecond).trans hnew₂
  have hnew := (hwithin hfirst).trans hnew₁
  have happly {disk middle : Disk} {source : Path} {folder : Text} {n : Nat}
      (hdisk : ready.Confined (place <:+ ·) disk) (hbeside : ready.IsBeside source place)
      (hvalid : validName folder)
      (hcopy : Storage.copyTree settings.chain source (config.output.child folder) disk =
        .ok n middle) :
      (∀ l, disk.content? l ≠ none → middle.content? l ≠ none) ∧
      (disk.Confined (place <:+ ·) new →
        (∀ inner, new.content? (inner ++ folder :: place) =
          middle.content? (inner ++ folder :: place)) →
        (disk.isDirectory source = .ok false → middle = disk → new.isDirectory source = .ok false) →
        Repeatable new source (config.output.child folder) n) := by
    have hstill := hlinkless.grows hdisk.grows
    have hplace := Disk.locate_grows hopens.leads hdisk.grows
    have hdirectory := hdisk.grows.directory place hopens.directory
    have hapart := fun s => (hbeside.grows hdisk.grows).of_locate (l := s) hstill
    exact ⟨fun l => Storage.there_of_copyTree hstill hplace hdirectory hclean hvalid hapart hcopy,
      Storage.repeatable_of_copyTree hstill hplace hdirectory hclean hvalid hapart hcopy⟩
  obtain ⟨hthere, hrepeat⟩ :=
    happly hwritten (hsource.join (by decide)) (by decide) hstyles
  obtain ⟨hthere₁, hrepeat₁⟩ :=
    happly hready₁ (hsource.join (by decide)) (by decide) hscripts
  obtain ⟨hthere₂, hrepeat₂⟩ := happly hready₂ hassets (by decide) hassets'
  refine ⟨fun l hl => hthere₂ l (hthere₁ l (hthere l hl)), fun htree => ?_⟩
  -- style sheets and scripts have been listed
  obtain ⟨-, template, hsurveyed⟩ := survey_eq_ok_iff.1 hsteps.survey
  have hlisted (kind : AssetKind) := listFiles_of_discover hsurveyed.discover kind
  refine ⟨styles, scripts, assets, hn, hrepeat hnew (fun inner => ?_) fun hnone _ => ?_,
    hrepeat₁ hnew₁ (fun inner => ?_) fun hnone _ => ?_,
    hrepeat₂ hnew₂ (fun inner => rfl) fun hnone hsame => hsame ▸ hnone⟩
  · have hl : ("styles" : Text) :: place <:+ inner ++ ("styles" : Text) :: place :=
      List.suffix_append _ _
    refine Disk.content?_of_face? ((hthird.same _ ?_).trans (hsecond.same _ ?_))
    · exact Storage.not_branch_of_ne (by decide) hl
    · exact Storage.not_branch_of_ne (by decide) hl
  · exact Storage.isDirectory_stays (hlisted .style) (htree.join (by decide)).at_root hwritten.grows
      hnone
  · exact Disk.content?_of_face? (hthird.same _
      (Storage.not_branch_of_ne (by decide)
        (List.suffix_append inner (("scripts" : Text) :: place))))
  · exact Storage.isDirectory_stays (hlisted .script) (htree.join (by decide)).at_root hready₁.grows
      hnone

/-- **The page is written once more**, and nothing is changed by that. -/
lemma write_again (htidy : config.output.IsTidy) : ∃ again,
    Storage.writeAtomically settings.chain config.page prepared.html new = .ok () again ∧
      again.here = new.here ∧ again.fleeting = new.fleeting ∧ SameContents new again := by
  obtain ⟨hwritten, hcopied⟩ := confined_of_steps hsteps hopens
  have hthere := (repeatable_of_steps hsteps hlinkless hopens hclean hsource hassets).1
  have hparent : ready.locate config.page.parent = .ok place := config.parent_page ▸ hopens.leads
  have hpage := Storage.written_of_writeAtomically hparent hopens.directory hsteps.write
  obtain ⟨content, hencode, hcontent⟩ := hpage.content?_eq hopens.directory config.validName_page
  refine Storage.writeAtomically_again hlinkless (config.parent_page ▸ htidy) hparent
    hopens.directory hsteps.write config.validName_page hencode (hwritten.trans hcopied).grows
    (fun other hother => hthere _ ?_) (fun n hn => ?_) ?_
  · rw [hcontent]
    split
    · simp
    · exact hother
  · obtain ⟨hcopy, hpage⟩ := temporaryNameWith_notMem config.page.name (Storage.filling n)
    rw [Disk.content?_of_face? (face?_of_steps hsteps hopens (Storage.not_branches hcopy)),
      hcontent, if_neg] at hn
    · exact hn
    · exact fun heq => hpage ((List.cons.inj heq).1.trans config.entryName_page)
  · rw [Disk.content?_of_face? (face?_of_steps hsteps hopens ?_), hcontent, if_pos rfl]
    rw [config.entryName_page]
    exact not_isCopied_page place

/-- **The assets are copied once more**, and nothing is changed by that. -/
lemma copy_again {again : Disk} (htree : SameTree config.source ready new)
    (hhere : again.here = new.here) (hfleeting : again.fleeting = new.fleeting)
    (hsame : SameContents new again) : ∃ newer,
      copyAssets settings.chain config again = .ok result.copied newer ∧
        SameContents new newer := by
  obtain ⟨hwritten, hcopied⟩ := confined_of_steps hsteps hopens
  have hnew := hlinkless.grows (hwritten.trans hcopied).grows
  obtain ⟨styles, scripts, assets, hn, hstyles, hscripts, hassets'⟩ :=
    (repeatable_of_steps hsteps hlinkless hopens hclean hsource hassets).2 htree
  obtain ⟨first, hfirst, hhere₁, hfleeting₁, hsame₁⟩ :=
    hstyles.copyTree settings.chain hnew hhere hfleeting hsame
  obtain ⟨second, hsecond, hhere₂, hfleeting₂, hsame₂⟩ :=
    hscripts.copyTree settings.chain hnew hhere₁ hfleeting₁ hsame₁
  obtain ⟨third, hthird, -, -, hsame₃⟩ :=
    hassets'.copyTree settings.chain hnew hhere₂ hfleeting₂ hsame₂
  refine ⟨third, ?_, hsame₃⟩
  have hjoin (name : Text) (hvalid : validName name) :
      config.output.join name = config.output.child name :=
    Path.join_of_validName hvalid config.output
  simp [copyAssets, bind, EStateM.bind, pure, EStateM.pure, hjoin "styles" (by decide),
    hjoin "scripts" (by decide), hjoin "assets" (by decide), hfirst, hsecond, hthird, hn]

end Steps

/-! ## The whole build -/

/-- **Building once more.**  Suppose that there are no links, and that the sources and the assets
are beside the output.  Then a build that succeeds leaves everything outside its output as it was,
apart from directories that it had to make.  Suppose further that the path of the sources, wherever
it passes through the output, finds what has been made for the output or the same kind of thing
before and afterwards.  Then a second build succeeds with the same result, and nothing changes. -/
theorem build_again {source output assets : Text} {mode : BuildMode}
    (hlinkless : world.disk.Linkless)
    (hplace : nominal (world.disk.origin (Path.parse output)) (Path.parse output).parts = place)
    (hsource : world.disk.IsBeside (Path.parse source) place)
    (hassets : world.disk.IsBeside (Path.parse assets) place)
    (hbuild : build settings (.ofTexts source output assets mode) world = .ok result after) :
    (∀ l, ¬ place <:+ l →
      (world.disk.IsMissing (Path.parse output) l → after.disk.HasDirectory l) ∧
      (¬ world.disk.IsMissing (Path.parse output) l →
        after.disk.content? l = world.disk.content? l)) ∧
    ((∀ front, front <+: (Path.parse source).parts →
      place <:+ nominal (world.disk.origin (Path.parse source)) front →
        world.disk.IsMissing (Path.parse output)
          (nominal (world.disk.origin (Path.parse source)) front) ∨
        SameKind world.disk after.disk (nominal (world.disk.origin (Path.parse source)) front)) →
      ∃ again, build settings (.ofTexts source output assets mode) after = .ok result again ∧
        SameContents after.disk again.disk) := by
  generalize hconfig : Config.ofTexts source output assets mode = config at hbuild ⊢
  have hclean : config.output.IsClean := hconfig ▸ Path.isClean_parse output
  have htidy : config.output.IsTidy := hconfig ▸ Path.isTidy_parse output
  rw [show Path.parse output = config.output from hconfig ▸ rfl] at hplace ⊢
  rw [show Path.parse source = config.source from hconfig ▸ rfl] at hsource ⊢
  rw [show Path.parse assets = config.assets from hconfig ▸ rfl] at hassets
  obtain ⟨hclock, ready, written, prepared, hsteps⟩ := build_steps hbuild
  -- the directory that has been made
  have hpaving := Storage.ensureDirectory_ok hlinkless hclean hsteps.make
  have hready := hlinkless.grows hpaving.grows
  have hopens : ready.OpensAt config.output place writtenNames :=
    ⟨hplace ▸ hpaving.leads, hplace ▸ hpaving.paves _ (List.prefix_refl _), hready.linklessAt _ _⟩
  obtain ⟨hwritten, hcopied⟩ := confined_of_steps hsteps hopens
  have hafter := hwritten.trans hcopied
  have hmade {l : Location} (hl : world.disk.IsMissing config.output l) : ready.HasDirectory l := by
    obtain ⟨-, front, hfront, rfl⟩ := hl
    exact hpaving.paves front hfront
  refine ⟨fun l hl => ⟨fun hmissing => hafter.grows.directory l (hmade hmissing), fun hmissing =>
    (Disk.content?_of_face? (hafter.same l hl)).trans (hpaving.held l hmissing)⟩, fun hway => ?_⟩
  -- the sources are found as they were
  have hsource := hsource.grows hpaving.grows
  have hassets := hassets.grows hpaving.grows
  have htree : SameTree config.source ready after.disk := by
    refine Storage.sameTree_of_kinds hready hafter hsource.1 hsource.2
      fun front hfront hinside => ?_
    rw [hpaving.grows.origin] at hinside ⊢
    by_cases hmissing : world.disk.IsMissing config.output
        (nominal (world.disk.origin config.source) front)
    · exact hafter.grows.sameKind (hmade hmissing)
    · obtain ⟨hnone, hdirectory⟩ := (hway front hfront hinside).resolve_left hmissing
      have hheld := hpaving.held _ hmissing
      constructor
      · rw [hnone, ← Disk.content?_eq_none_iff, ← Disk.content?_eq_none_iff, hheld]
      · rw [hdirectory, ← Disk.content?_eq_directory_iff, ← Disk.content?_eq_directory_iff, hheld]
  -- the steps of the second build
  obtain ⟨again, hwrite, hhere, hfleeting, hsame⟩ :=
    write_again hsteps hready hopens hclean hsource hassets htidy
  obtain ⟨newer, hcopy, hnewer⟩ :=
    copy_again hsteps hready hopens hclean hsource hassets htree hhere hfleeting hsame
  have hagain : BuildSteps settings config after.clock after.disk result newer after.disk again
      prepared := {
    make := Storage.ensureDirectory_of_isDirectory (hopens.grows hafter.grows).isDirectory
    survey := (survey_congr htree).trans (hclock ▸ hsteps.survey)
    write := hwrite
    copy := hcopy
    time := hclock ▸ hsteps.time
    tell := hsteps.tell }
  obtain ⟨last, hlast, rfl⟩ := build_of_steps hagain
  exact ⟨last, hlast, hnewer⟩

/-- A site with a style sheet, a script and an asset in a directory of its own, and with an output
from earlier days, which holds a copy of the style sheet as it was. -/
def stockedDisk : Disk :=
  let sources := (((((((smallDisk greetingTemplate "Hello").putDirectory ["styles", "src"]).putFile
    ["x.css", "styles", "src"] [97] (.fresh 0)).putDirectory ["scripts", "src"]).putFile
    ["y.js", "scripts", "src"] [98] (.fresh 0)).putDirectory ["assets"]).putDirectory
    ["img", "assets"]).putFile ["z", "img", "assets"] [99] (.fresh 0)
  ((sources.putDirectory ["dist"]).putDirectory ["styles", "dist"]).putFile
    ["x.css", "styles", "dist"] [100] (.fresh 0)

/-- The first build replaces the copy of the style sheet and makes the other two, and the second one
leaves all three as they are. -/
theorem build_again_stocked : stockedDisk.Linkless ∧
    stockedDisk.IsBeside (Path.parse "src") ["dist"] ∧
    stockedDisk.IsBeside (Path.parse "assets") ["dist"] ∧
    stockedDisk.content? ["x.css", "styles", "dist"] = some (.file [100]) ∧
    ∃ result after again,
      build plainSettings smallConfig ⟨stockedDisk, .silent, 0.0⟩ = .ok result after ∧
      result.copied = 3 ∧
      after.disk.content? ["x.css", "styles", "dist"] = some (.file [97]) ∧
      after.disk.content? ["z", "img", "assets", "dist"] = some (.file [99]) ∧
      build plainSettings smallConfig after = .ok result again ∧
      SameContents after.disk again.disk := by
  have hlinkless : stockedDisk.Linkless :=
    @Storage.Disk.linkless_of_inventory _ (Path.parse "") (by decide +kernel)
  have hsource : stockedDisk.IsBeside (Path.parse "src") ["dist"] := by
    rw [Disk.IsBeside]
    decide +kernel
  have hassets : stockedDisk.IsBeside (Path.parse "assets") ["dist"] := by
    rw [Disk.IsBeside]
    decide +kernel
  have hcomes : succeeds (build plainSettings smallConfig ⟨stockedDisk, .silent, 0.0⟩)
      fun result after => decide (result.copied = 3 ∧
        after.disk.content? ["x.css", "styles", "dist"] = some (.file [97]) ∧
        after.disk.content? ["z", "img", "assets", "dist"] = some (.file [99])) := by
    decide +kernel
  obtain ⟨result, after, hbuild, hcopies⟩ := exists_of_succeeds hcomes
  obtain ⟨hcopied, hstyle, hasset⟩ := of_decide_eq_true hcopies
  obtain ⟨-, hagain⟩ := build_again hlinkless (by decide +kernel) hsource hassets hbuild
  obtain ⟨again, hbuild', hsame⟩ := hagain fun front hfront hinside => by
    have hnever : ∀ front ∈ (Path.parse "src").parts.inits,
        ¬ [("dist" : Text)] <:+ nominal [] front := by decide +kernel
    exact absurd hinside (hnever front ((List.mem_inits _ _).2 hfront))
  exact ⟨hlinkless, hsource, hassets, by decide +kernel, result, after, again, hbuild, hcopied,
    hstyle, hasset, hbuild', hsame⟩

/-! ### Sources that are found later -/

/-- A disk with a template, and with a directory of assets, through the copy of which the template
is to be found. -/
def detourDisk : Disk :=
  (((Disk.empty.putDirectory ["src"]).putDirectory ["templates", "src"]).putDirectory
    ["assets"]).putFile ["page.html", "templates", "src"] [97] (.fresh 0)

/-- Sources whose path passes through the copy of the assets. -/
def detourConfig : Config := .ofTexts "dist/assets/../../src" "dist" "assets" .reference

theorem build_again_strays : detourDisk.Linkless ∧
    detourDisk.IsBeside detourConfig.source ["dist"] ∧
    detourDisk.IsBeside detourConfig.assets ["dist"] ∧
    ∃ result after, build plainSettings detourConfig ⟨detourDisk, .silent, 0.0⟩ = .ok result after ∧
      result.usedDefault = true ∧ after.disk.read detourConfig.template = .ok [97] ∧
      ¬ ∃ again, build plainSettings detourConfig after = .ok result again := by
  refine ⟨@Storage.Disk.linkless_of_inventory _ (Path.parse "") (by decide +kernel), ?_, ?_, ?_⟩
  · rw [Disk.IsBeside]
    decide +kernel
  · rw [Disk.IsBeside]
    decide +kernel
  · have hcomes : succeeds (build plainSettings detourConfig ⟨detourDisk, .silent, 0.0⟩)
        fun result after => decide (result.usedDefault = true ∧
          after.disk.isDirectory detourConfig.output = .ok true ∧
          after.disk.read detourConfig.template = .ok [97]) := by decide +kernel
    obtain ⟨result, after, hbuild, hfound⟩ := exists_of_succeeds hcomes
    obtain ⟨hdefault, houtput, htemplate⟩ := of_decide_eq_true hfound
    refine ⟨result, after, hbuild, hdefault, htemplate, fun ⟨again, hagain⟩ => ?_⟩
    -- by now there is a template to be read
    obtain ⟨-, ready, written, prepared, hsteps⟩ := build_steps hagain
    have hmake := hsteps.make
    rw [Storage.ensureDirectory_of_isDirectory houtput] at hmake
    obtain ⟨-, rfl⟩ := EStateM.Result.ok.inj hmake
    obtain ⟨-, template, hsurveyed⟩ := survey_eq_ok_iff.1 hsteps.survey
    have hread := hsurveyed.read
    have hsame : result.usedDefault = prepared.usedDefault := by rw [hsteps.tell]; rfl
    rw [← hsame, hdefault, readTemplate, htemplate] at hread
    cases hdecode : decode .template detourConfig.template [97] with
    | error failure => simp [hdecode, Except.map] at hread
    | ok text => simp [hdecode, Except.map] at hread

end Site

end OnePage
