import OnePage.Proofs.Site.Page
import OnePage.Proofs.Storage.Tree

/-!
# What a page depends on

Everything that goes into a page is found by following paths below the directory of the sources.  So
two disks on which the same tree is seen there give the same page.

* `SameTree.listFiles_eq` — the same files are listed in a directory of the tree.
* `slotTexts_congr` — the slots are filled with the assets that are linked.
* `SameFindings` and `sameFindings_of_sameTree` — the same is found for the page.
* `freshPage` — the page that would be built from what is on a disk now.
* **`freshPage_eq`** — it depends on the tree of the sources only.
* `freshPage_of_build` and `read_page_of_opens` — it is the page that a build leaves.
-/

namespace OnePage

open Storage (Disk Path Location SameAt SameTree nominal validName)

namespace Storage.SameTree

variable {old new : Disk} {p : Path} {ending : Text}

lemma join {name : Text} (h : SameTree p old new) (hname : validName name) :
    SameTree (p.join name) old new := by
  rw [Path.join_of_validName hname]
  exact h.child hname

lemma filesAmong_eq (h : SameTree p old new) {names : List Text}
    (hnames : ∀ name ∈ names, validName name) :
    new.filesAmong p ending names = old.filesAmong p ending names := by
  induction names with
  | nil => rfl
  | cons name names ih =>
    rw [Disk.filesAmong, Disk.filesAmong, ih fun other hother => hnames other (by simp [hother]),
      (h.at_child (hnames name (by simp))).isFile]

/-- The same files are listed in a directory of a tree that is seen the same. -/
lemma listFiles_eq (h : SameTree p old new) : new.listFiles p ending = old.listFiles p ending := by
  rw [Disk.listFiles, Disk.listFiles, h.at_root.isDirectory, h.at_root.list]
  cases hlist : old.list p with
  | error fault => rfl
  | ok names =>
    have hfiles : new.filesAmong p ending names = old.filesAmong p ending names :=
      h.filesAmong_eq fun name => old.validName_of_list hlist
    simp only [bind, Except.bind, hfiles]

end Storage.SameTree

namespace Storage.Disk

variable {disk : Disk} {p : Path} {ending : Text} {found : List Text}

lemma filesAmong_subset {names : List Text} (h : disk.filesAmong p ending names = .ok found) :
    found ⊆ names := by
  induction names generalizing found with
  | nil =>
    obtain rfl : [] = found := Except.ok.inj h
    simp
  | cons name names ih =>
    have hfound (wanted : Bool) (hwanted : (do
        let rest ← disk.filesAmong p ending names
        return if wanted then name :: rest else rest) = .ok found) : found ⊆ name :: names := by
      obtain ⟨rest, hrest, hlast⟩ := except_bind_eq_ok.1 hwanted
      obtain rfl := Except.ok.inj hlast
      split
      · exact List.cons_subset_cons name (ih hrest)
      · exact List.subset_cons_of_subset name (ih hrest)
    rw [filesAmong] at h
    split at h
    · obtain ⟨wanted, -, hwanted⟩ := except_bind_eq_ok.1 h
      exact hfound wanted hwanted
    · exact hfound false h

/-- The names of the files in a directory are valid. -/
lemma validName_of_listFiles (h : disk.listFiles p ending = .ok found) {name : Text}
    (hname : name ∈ found) : validName name := by
  obtain ⟨there, -, h⟩ := except_bind_eq_ok.1 h
  split at h
  · obtain ⟨names, hlist, h⟩ := except_bind_eq_ok.1 h
    exact disk.validName_of_list hlist (filesAmong_subset h hname)
  · obtain rfl := Except.ok.inj h
    simp at hname

end Storage.Disk

namespace Site

variable {settings : Settings} {config : Config} {old new : Disk} {p : Path}

/-! ## Reading -/

lemma readText_eq (h : new.read p = old.read p) (purpose : Purpose) :
    readText purpose new p = readText purpose old p := by
  rw [readText, readText, h]

lemma readDocument_eq (h : new.read p = old.read p) (nesting : Nat) :
    readDocument nesting new p = readDocument nesting old p := by
  rw [readDocument, readDocument, readText_eq h]

lemma readTemplate_eq (h : SameAt old new p) : readTemplate new p = readTemplate old p := by
  rw [readTemplate, readTemplate, h.read]

/-- Ways of reading that agree on the files of a directory read the same from it. -/
lemma readEach_congr {α : Type} {first second : Path → Except Failure α} {ending : Text}
    {names : List Text} (h : ∀ name ∈ names, first (p.child name) = second (p.child name)) :
    readEach first p ending names = readEach second p ending names := by
  induction names with
  | nil => rfl
  | cons name names ih =>
    rw [readEach, readEach, h name (by simp), ih fun other hother => h other (by simp [hother])]

lemma readAll_eq {α : Type} {read : Disk → Path → Except Failure α} {ending : Text}
    (hread : ∀ q, SameAt old new q → read new q = read old q) (h : SameTree p old new) :
    readAll (read new) new p ending = readAll (read old) old p ending := by
  rw [readAll, readAll, h.listFiles_eq]
  cases hlist : old.listFiles p ending with
  | error fault => rfl
  | ok names =>
    exact readEach_congr fun name hname =>
      hread _ (h.at_child (Disk.validName_of_listFiles hlist hname))

lemma documents_eq (h : SameTree p old new) (nesting : Nat) :
    documents nesting new p = documents nesting old p :=
  readAll_eq (fun _ hq => readDocument_eq hq.read nesting) h

lemma fragments_eq (h : SameTree p old new) : fragments new p = fragments old p :=
  readAll_eq (fun _ hq => readText_eq hq.read .source) h

/-! ## Assets -/

/-- The directory in which the assets of a kind lie, among the sources and in the output. -/
def assetFolder : AssetKind → Text
  | .style => "styles"
  | .script => "scripts"

/-- Where the assets of a kind are found. -/
def Config.assetsOf (config : Config) (kind : AssetKind) : Path :=
  config.source.join (assetFolder kind)

lemma validName_assetFolder (kind : AssetKind) : validName (assetFolder kind) := by
  cases kind <;> decide

section Assets

variable {manifest : Manifest}

lemma listFiles_of_discover (h : discover old config.styles config.scripts = .ok manifest)
    (kind : AssetKind) :
    old.listFiles (config.assetsOf kind) (assetEnding kind) = .ok (manifest.names kind) := by
  obtain ⟨styles, hstyles, h⟩ := except_bind_eq_ok.1 h
  obtain ⟨scripts, hscripts, h⟩ := except_bind_eq_ok.1 h
  obtain rfl := Except.ok.inj h
  cases kind with
  | style => exact hstyles
  | script => exact hscripts

lemma readAsset_congr {kind : AssetKind} {name : Text} (hname : validName name)
    (h : new.read ((config.assetsOf kind).child name) =
      old.read ((config.assetsOf kind).child name)) :
    readAsset new config.styles config.scripts kind name =
      readAsset old config.styles config.scripts kind name := by
  have hlast : (Path.parse name).name = name := by
    rw [Path.parse_of_validName hname]
    rfl
  rw [← Path.join_of_validName hname] at h
  cases kind with
  | style =>
    have hstyle : new.read (config.styles.join name) = old.read (config.styles.join name) := h
    simp only [readAsset, hlast, hstyle]
  | script =>
    have hscript : new.read (config.scripts.join name) = old.read (config.scripts.join name) := h
    simp only [readAsset, hlast, hscript]

lemma contents_congr {first second : AssetKind → Text → Except Failure (Option Text)}
    {kind : AssetKind} {names : List Text}
    (h : ∀ name ∈ names, first kind name = second kind name) :
    Page.contents first kind names = Page.contents second kind names := by
  induction names with
  | nil => rfl
  | cons name names ih =>
    rw [Page.contents, Page.contents, h name (by simp),
      ih fun other hother => h other (by simp [hother])]

/-- **What the slots are filled with** depends on the assets that are linked only. -/
lemma slotTexts_congr (hmanifest : discover old config.styles config.scripts = .ok manifest)
    (h : ∀ kind, ∀ name ∈ manifest.names kind,
      new.read ((config.assetsOf kind).child name) = old.read ((config.assetsOf kind).child name)) :
    slotTexts new config manifest = slotTexts old config manifest := by
  have hread (kind : AssetKind) (name : Text) (hname : name ∈ manifest.names kind) :
      readAsset new config.styles config.scripts kind name =
        readAsset old config.styles config.scripts kind name :=
    readAsset_congr (Disk.validName_of_listFiles (listFiles_of_discover hmanifest kind) hname)
      (h kind name hname)
  rw [slotTexts, slotTexts]
  cases config.mode with
  | reference => rfl
  | inline =>
    have hstyles : ∀ name ∈ manifest.styles, _ := hread .style
    have hscripts : ∀ name ∈ manifest.scripts, _ := hread .script
    dsimp only
    rw [contents_congr hstyles, contents_congr hscripts]

end Assets

/-! ## The whole page -/

/-- **The same findings**: looking for what a page is made of comes to the same on two disks. -/
structure SameFindings (config : Config) (old new : Disk) : Prop where
  /-- The same data documents are read. -/
  documents : ∀ nesting,
    Site.documents nesting new config.data = Site.documents nesting old config.data
  /-- So are the same fragments. -/
  fragments : Site.fragments new config.components = Site.fragments old config.components
  /-- So is the same template. -/
  template : readTemplate new config.template = readTemplate old config.template
  /-- The same assets are listed. -/
  discover : Site.discover new config.styles config.scripts =
    Site.discover old config.styles config.scripts
  /-- The slots are filled with the same. -/
  slots : ∀ manifest, Site.discover old config.styles config.scripts = .ok manifest →
    slotTexts new config manifest = slotTexts old config manifest

/-- What is found depends on the tree of the sources only. -/
lemma sameFindings_of_sameTree (h : SameTree config.source old new) :
    SameFindings config old new where
  documents := documents_eq (h.join (by decide))
  fragments := fragments_eq (h.join (by decide))
  template := readTemplate_eq ((h.join (by decide)).join (by decide)).at_root
  discover := by
    have hlist (kind : AssetKind) : new.listFiles (config.assetsOf kind) (assetEnding kind) =
        old.listFiles (config.assetsOf kind) (assetEnding kind) :=
      (h.join (validName_assetFolder kind)).listFiles_eq
    have hstyles : new.listFiles config.styles (assetEnding .style) =
        old.listFiles config.styles (assetEnding .style) := hlist .style
    have hscripts : new.listFiles config.scripts (assetEnding .script) =
        old.listFiles config.scripts (assetEnding .script) := hlist .script
    rw [Site.discover, Site.discover, hstyles, hscripts]
  slots _ hmanifest := slotTexts_congr hmanifest fun kind name hname =>
    ((h.join (validName_assetFolder kind)).at_child
      (Disk.validName_of_listFiles (listFiles_of_discover hmanifest kind) hname)).read

/-- **The materials of a page** depend on what is found only. -/
lemma SameFindings.gather_eq (h : SameFindings config old new) :
    gather settings config new = gather settings config old := by
  rw [gather, gather, h.documents, h.fragments, h.template, h.discover]
  cases hmanifest : Site.discover old config.styles config.scripts with
  | error fault => rfl
  | ok manifest => simp only [bind, Except.bind, Except.mapError, h.slots manifest hmanifest]

/-- **The page that would be built** from what is on a disk now. -/
def freshPage (settings : Settings) (config : Config) (disk : Disk) : Except Failure Bytes := do
  let materials ← gather settings config disk
  (Utf8.encode materials.html).mapError fun fault => .storage (.unencodable fault)

lemma freshPage_eq (h : SameTree config.source old new) :
    freshPage settings config new = freshPage settings config old := by
  rw [freshPage, freshPage, (sameFindings_of_sameTree h).gather_eq]

/-! ## The page that has been built -/

section Building

variable {world after : World} {result : BuildResult} {place : Location}
  (hclean : config.output.IsClean) (hbuild : build settings config world = .ok result after)

include hclean hbuild

/-- **What a build leaves on a disk without links.**  It first makes its directory; the page is the
one to be built from what is there then, and nothing else changes but what lies in the directory. -/
lemma freshPage_of_build (hlinkless : world.disk.Linkless) :
    ∃ ready, world.disk.Grows ready ∧
      ready.OpensAt config.output (nominal (world.disk.origin config.output) config.output.parts)
        writtenNames ∧
      ready.Confined (nominal (world.disk.origin config.output) config.output.parts <:+ ·)
        after.disk ∧
      ∃ content, after.disk.read config.page = .ok content ∧
        freshPage settings config ready = .ok content := by
  obtain ⟨ready, place, materials, hready, hplace, hdirectory, hgather, hconfined, hpage⟩ :=
    read_page hbuild hclean
  have hgrows := Storage.grows_of_ensureDirectory hready
  have hstill := hlinkless.grows hgrows
  obtain rfl : place = nominal (world.disk.origin config.output) config.output.parts := by
    rw [Disk.locate_eq_nominal hstill hplace, hgrows.origin]
  have hopens : ready.OpensAt config.output _ writtenNames :=
    ⟨hplace, hdirectory, hstill.linklessAt _ _⟩
  obtain ⟨content, hencode, hread⟩ := hpage (hopens.mono fun _ => List.mem_cons_of_mem _)
    (hopens.linkless.bypasses (by decide))
  refine ⟨ready, hgrows, hopens, hconfined hopens, content, hread, ?_⟩
  simp [freshPage, hgather, hencode, bind, Except.bind, Except.mapError]

/-- A build into a directory that is there leaves the page to be built from what there was. -/
lemma read_page_of_opens (hopens : world.disk.OpensAt config.output place writtenNames) :
    ∃ content, after.disk.read config.page = .ok content ∧
      freshPage settings config world.disk = .ok content := by
  obtain ⟨ready, place', materials, hready, hplace, -, hgather, -, hpage⟩ :=
    read_page hbuild hclean
  rw [Storage.ensureDirectory_of_isDirectory hopens.isDirectory] at hready
  obtain ⟨-, rfl⟩ := EStateM.Result.ok.inj hready
  obtain rfl : place = place' := Except.ok.inj (hopens.leads.symm.trans hplace)
  obtain ⟨content, hencode, hread⟩ := hpage (hopens.mono fun _ => List.mem_cons_of_mem _)
    (hopens.linkless.bypasses (by decide))
  refine ⟨content, hread, ?_⟩
  simp [freshPage, hgather, hencode, bind, Except.bind, Except.mapError]

end Building

end Site

end OnePage
