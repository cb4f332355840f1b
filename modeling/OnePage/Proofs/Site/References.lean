import OnePage.Proofs.Site.Sources
import OnePage.Proofs.Storage.CopyFiles
import OnePage.Proofs.Storage.Made

/-!
# The assets that a page refers to

A page in reference mode names its style sheets and scripts, and the build copies the directories
that they were found in.  The two go through these directories in different ways; this file shows
that what is named is what is copied.

* `mem_manifest_iff` and `nodup_manifest` — every style sheet or script directly in its directory is
  linked, once, and nothing else.
* `steady_of_listed` — a file that is listed stays what it is, whatever changes in the output.
* `exists_copy_of_kind` — the copy of one of the directories, and that the others leave it alone.
* `read_copy_of_steps` — what is linked lies in the output when all has been copied.
* **`read_references_of_build`** — all assets that a page refers to lie beside it after a build.
-/

namespace OnePage

namespace Site

open Storage (Disk Path Location Branch validName)
open Template (Slot)

variable {settings : Settings} {config : Config} {world after : World} {disk ready : Disk}
  {p : Path} {place l : Location} {name : Text} {kind : AssetKind}

/-- Where the assets of a kind are copied to. -/
def Config.copiesOf (config : Config) (kind : AssetKind) : Path :=
  config.output.join (assetFolder kind)

lemma assetFolder_mem_copyNames (kind : AssetKind) : assetFolder kind ∈ copyNames := by
  cases kind <;> decide

lemma Config.copiesOf_eq (config : Config) (kind : AssetKind) :
    config.copiesOf kind = config.output.child (assetFolder kind) :=
  Path.join_of_validName (validName_assetFolder kind) config.output

/-! ## What is linked -/

section Manifest

variable {manifest : Manifest} (h : discover disk config.styles config.scripts = .ok manifest)

include h

/-- **What is linked**: the files with the right ending that lie directly in the directory. -/
lemma mem_manifest_iff : name ∈ manifest.names kind ↔ assetEnding kind <:+ name ∧
    (∃ names, disk.list (config.assetsOf kind) = .ok names ∧ name ∈ names) ∧
      disk.isFile ((config.assetsOf kind).child name) = .ok true :=
  Disk.mem_listFiles_iff (listFiles_of_discover h kind)

/-- Nothing is linked twice. -/
lemma nodup_manifest : (manifest.names kind).Nodup :=
  Disk.nodup_listFiles (listFiles_of_discover h kind)

end Manifest

/-! ## What is copied -/

/-- **A file that is listed** is listed still, and still has the same contents, whatever has changed
in a directory that it does not lie in. -/
lemma steady_of_listed (hlinks : ∀ l, place <:+ l → ¬ ready.HasLink l)
    (hlist : ∃ names, ready.list p = .ok names ∧ name ∈ names)
    (hfile : ready.isFile (p.child name) = .ok true)
    (hapart : ∀ l, ready.locate (p.child name) = .ok l → ¬ place <:+ l) :
    ∃ content, ∀ disk, ready.Confined (place <:+ ·) disk →
      (∃ names, disk.list p = .ok names ∧ name ∈ names) ∧
        disk.isDirectory (p.child name) = .ok false ∧
          disk.read (p.child name) = .ok content := by
  -- where the file is
  obtain ⟨l, content, hl, hcontent⟩ : ∃ l content, ready.locate (p.child name) = .ok l ∧
      ready.content? l = some (.file content) := by
    rw [Disk.isFile_eq] at hfile
    cases hl : ready.locate (p.child name) with
    | error fault =>
      simp only [hl] at hfile
      split_ifs at hfile
      simp at hfile
    | ok l =>
      simp only [hl] at hfile
      split at hfile
      · next content hcontent => exact ⟨l, content, rfl, hcontent⟩
      · simp at hfile
  -- where it is listed
  obtain ⟨names, hnames, hname⟩ := hlist
  obtain ⟨s, hs, hdirectory, hfleeting, rfl⟩ := Disk.list_eq_ok_iff.1 hnames
  have hout : ¬ place <:+ s := by
    intro hinside
    have hchild := Disk.locate_child hs hdirectory
      (hlinks _ (hinside.trans (List.suffix_cons name s))) (Disk.locate_eq_ok_iff.1 hl).1
      (Disk.validName_of_mem_children hname)
    exact hapart _ hchild (hinside.trans (List.suffix_cons name s))
  refine ⟨content, fun disk hdisk => ?_⟩
  have hsame := Disk.content?_of_face? (hdisk.same l (hapart l hl))
  have hnow := Disk.locate_grows hl hdisk.grows
  refine ⟨⟨disk.children s, Disk.list_eq_ok_iff.2 ⟨s, Disk.locate_grows hs hdisk.grows,
    hdisk.grows.directory s hdirectory, hdisk.grows.fleeting ▸ hfleeting, rfl⟩, ?_⟩, ?_, ?_⟩
  · rw [Disk.children_congr (hdisk.same s hout)]
    exact hname
  · simp [Disk.isDirectory_eq, hnow, hsame, hcontent]
  · simp [Disk.read_eq, hnow, hsame, hcontent]

/-- **The copy of one of the directories**: before it nothing has changed outside the output, and
what follows changes other branches of it. -/
lemma exists_copy_of_kind {old new : Disk} {copied : Nat}
    (hopens : old.OpensAt config.output place copyNames)
    (h : copyAssets settings.chain config old = .ok copied new) (kind : AssetKind) :
    ∃ before n middle, old.Confined (place <:+ ·) before ∧
      Storage.copyTree settings.chain (config.assetsOf kind)
        (config.output.child (assetFolder kind)) before = .ok n middle ∧
      middle.Confined (fun l => ∃ other, other ≠ assetFolder kind ∧ Branch place other l) new := by
  obtain ⟨styles, first, scripts, second, assets, -, hstyles, hscripts, -, hfirst, hsecond,
    hthird⟩ := copies_of_copyAssets hopens h
  have hother {folder : Text} (hne : folder ≠ assetFolder kind) (l : Location)
      (hl : Branch place folder l) :
      ∃ other, other ≠ assetFolder kind ∧ Branch place other l := ⟨folder, hne, hl⟩
  cases kind with
  | style => exact ⟨old, styles, first, .refl old, hstyles,
      (hsecond.mono (hother (by decide))).trans (hthird.mono (hother (by decide)))⟩
  | script => exact ⟨first, scripts, second, hfirst.mono fun l => suffix_of_branch, hscripts,
      hthird.mono (hother (by decide))⟩

/-- A file in one of the directories of the output is read by its path there. -/
lemma read_of_face? {names : List Text} {folder : Text} {content : Bytes} {stamp : Storage.Stamp}
    (hopens : disk.OpensAt p place names) (hfolder : folder ∈ names)
    (hfault : ((p.child folder).child name).fault? = none)
    (hface : disk.face? (name :: folder :: place) = some (.file content stamp)) :
    disk.read ((p.child folder).child name) = .ok content := by
  have hthere : disk.node? (name :: folder :: place) ≠ none := by
    rw [Ne, ← Disk.face?_eq_none, hface]
    simp
  have hvalid : ∀ part ∈ name :: folder :: place, validName part := fun _ =>
    disk.validName_of_mem_location hthere
  have hinner : (p.child folder).fault? = none :=
    Path.fault?_of_prefix (List.prefix_append _ [name]) hfault
  have hlinks := hopens.linkless folder hfolder
  have hdirectory : disk.locate (p.child folder) = .ok (folder :: place) :=
    hopens.locate_child hfolder hinner (hvalid folder (by simp))
  exact Disk.read_eq_ok_iff.2 ⟨_, stamp, Disk.locate_child hdirectory
    (Disk.hasDirectory_of_node?_cons hthere) (hlinks _ (List.suffix_cons name _)) hfault
    (hvalid name (by simp)), hface⟩

/-! ## What is there in the end -/

/-- **The copy of what is linked**: it lies in the output when all has been copied. -/
lemma read_copy_of_steps {now : Float} {old written new : Disk} {prepared : Prepared}
    {result : BuildResult} (hclean : config.output.IsClean)
    (hsteps : BuildSteps settings config now old result new ready written prepared)
    (hopens : ready.OpensAt config.output place writtenNames)
    (hlinks : ∀ l, place <:+ l → ¬ ready.HasLink l)
    (hnew : ready.Confined (place <:+ ·) new) (hname : name ∈ prepared.manifest.names kind)
    (hapart : ∀ l, ready.locate ((config.assetsOf kind).child name) = .ok l → ¬ place <:+ l) :
    ∃ content, ready.read ((config.assetsOf kind).child name) = .ok content ∧
      new.read ((config.assetsOf kind).child name) = .ok content ∧
      new.read ((config.copiesOf kind).child name) = .ok content ∧
      ∃ stamp, new.face? (name :: assetFolder kind :: place) = some (.file content stamp) := by
  obtain ⟨-, template, hsurveyed⟩ := survey_eq_ok_iff.1 hsteps.survey
  obtain ⟨-, hlist, hfile⟩ := (mem_manifest_iff hsurveyed.discover).1 hname
  obtain ⟨content, hsteady⟩ := steady_of_listed hlinks hlist hfile hapart
  -- up to the copy, only the output has changed
  have hwritten := confined_of_writePage hopens hsteps.write
  have hcopies : ready.OpensAt config.output place copyNames :=
    hopens.mono fun _ => List.mem_cons_of_mem _
  obtain ⟨before, n, middle, hbefore, hcopy, hrest⟩ :=
    exists_copy_of_kind (hcopies.grows hwritten.grows) hsteps.copy kind
  have hbefore := hwritten.trans hbefore
  have hdirectory : before.isDirectory (config.assetsOf kind) = .ok true := by
    obtain ⟨⟨names, hnames, -⟩, -⟩ := hsteady before hbefore
    obtain ⟨s, hs, hs', -⟩ := Disk.list_eq_ok_iff.1 hnames
    exact Disk.isDirectory_eq_true_iff.2 ⟨s, hs, hs'⟩
  have hyields := Storage.copyTree_yields_file (hcopies.grows hbefore.grows)
    (assetFolder_mem_copyNames kind) (validName_assetFolder kind) settings.chain hclean hdirectory
    fun disk hdisk => hsteady disk (hbefore.trans (hdisk.mono fun l => suffix_of_branch))
  rw [config.copiesOf_eq]
  rw [Storage.Yields, hcopy] at hyields
  obtain ⟨hfault, stamp, hface⟩ := hyields
  -- what is copied after it goes elsewhere
  have hthere : new.face? (name :: assetFolder kind :: place) = some (.file content stamp) := by
    rw [hrest.same, hface]
    rintro ⟨other, hne, hl⟩
    exact Storage.not_branch_of_ne hne (List.suffix_cons name _) hl
  exact ⟨content, (hsteady ready (.refl ready)).2.2, (hsteady new hnew).2.2,
    read_of_face? (hcopies.grows hnew.grows) (assetFolder_mem_copyNames kind) hfault hthere,
    stamp, hthere⟩

/-- **The assets that a page refers to.**  A build in reference mode links every style sheet and
script that lies directly in its directory, once, and nothing else.  Suppose that there are no links
in the output.  Then the page is filled with references to what is linked, and whatever is linked
and does not lead into the output lies beside the page, byte for byte. -/
theorem read_references_of_build {source output assets : Text} {result : BuildResult}
    (hbuild : build settings (.ofTexts source output assets .reference) world = .ok result after) :
    ∃ ready place,
      Storage.ensureDirectory settings.chain (Path.parse output) world.disk = .ok () ready ∧
      ready.locate (Path.parse output) = .ok place ∧
      (∀ kind, (result.manifest.names kind).Nodup ∧
        ∀ name, name ∈ result.manifest.names kind ↔ assetEnding kind <:+ name ∧
          (∃ names, ready.list ((Config.ofTexts source output assets .reference).assetsOf kind) =
            .ok names ∧ name ∈ names) ∧
          ready.isFile (((Config.ofTexts source output assets .reference).assetsOf kind).child
            name) = .ok true) ∧
      ((∀ l, place <:+ l → ¬ world.disk.HasLink l) →
        (∃ text content, Utf8.encode (Page.linkReference text result.manifest) = .ok content ∧
          after.disk.read (Config.ofTexts source output assets .reference).page = .ok content) ∧
        ∀ kind, ∀ name ∈ result.manifest.names kind,
          (∀ l, ready.locate (((Config.ofTexts source output assets .reference).assetsOf
            kind).child name) = .ok l → ¬ place <:+ l) →
          ∃ content,
            ready.read (((Config.ofTexts source output assets .reference).assetsOf kind).child
              name) = .ok content ∧
            after.disk.read (((Config.ofTexts source output assets .reference).assetsOf
              kind).child name) = .ok content ∧
            after.disk.read (((Config.ofTexts source output assets .reference).copiesOf
              kind).child name) = .ok content ∧
            ∃ stamp, after.disk.face? (name :: assetFolder kind :: place) =
              some (.file content stamp)) := by
  generalize hconfig : Config.ofTexts source output assets .reference = config at hbuild ⊢
  have houtput : config.output = Path.parse output := hconfig ▸ rfl
  have hmode : config.mode = .reference := hconfig ▸ rfl
  have hclean : config.output.IsClean := houtput ▸ Path.isClean_parse output
  obtain ⟨ready, place, materials, hready, hplace, hdirectory, hgather, hconfined, hpage⟩ :=
    read_page hbuild hclean
  obtain ⟨-, ready', written, prepared, hsteps⟩ := build_steps hbuild
  obtain ⟨-, rfl⟩ := EStateM.Result.ok.inj (hready.symm.trans hsteps.make)
  obtain ⟨-, template, hsurveyed⟩ := survey_eq_ok_iff.1 hsteps.survey
  have hmanifest : result.manifest = prepared.manifest := by rw [hsteps.tell]; rfl
  rw [← houtput, hmanifest]
  refine ⟨ready, place, hready, hplace, fun kind => ⟨nodup_manifest hsurveyed.discover,
    fun name => mem_manifest_iff hsurveyed.discover⟩, fun hlinks => ?_⟩
  -- links are neither made nor removed
  have honly := Storage.onlyMade_of_ensureDirectory hready
  have hlinks : ∀ l, place <:+ l → ¬ ready.HasLink l := fun l hl ⟨target, htarget⟩ =>
    hlinks l hl ⟨target, (honly.link_iff l target).1 htarget⟩
  have hopens : ready.OpensAt config.output place writtenNames :=
    ⟨hplace, hdirectory, fun name _ l hl => hlinks l ((List.suffix_cons name place).trans hl)⟩
  have hcopies : ready.OpensAt config.output place copyNames :=
    hopens.mono fun _ => List.mem_cons_of_mem _
  refine ⟨?_, fun kind name => read_copy_of_steps hclean hsteps hopens hlinks (hconfined hopens)⟩
  obtain ⟨content, hencode, hread⟩ := hpage hcopies (hopens.linkless.bypasses (by decide))
  obtain ⟨materials', hgather', hhtml⟩ := gather_of_survey hsteps.survey
  obtain rfl := Except.ok.inj (hgather.symm.trans hgather')
  have hlink := hsurveyed.link
  rw [linkAssets, hmode, Page.link] at hlink
  exact ⟨prepared.resolved.text, content, by rw [Except.ok.inj hlink, ← hhtml, hencode], hread⟩

/-- A site with one style sheet, which is a link to a file beside the directory. -/
def styledDisk : Disk :=
  (((smallDisk Slot.styles.marker "").putDirectory ["styles", "src"]).putFile ["y.css", "src"] [97]
    (.fresh 0)).putLink ["x.css", "styles", "src"] "../y.css"

theorem read_references_of_build_linked :
    (∀ l, [("dist" : Text)] <:+ l → ¬ styledDisk.HasLink l) ∧
    ∃ result after, build plainSettings smallConfig ⟨styledDisk, .silent, 0.0⟩ = .ok result after ∧
      ("x.css" : Text) ∈ result.manifest.names .style ∧
      ∃ stamp, after.disk.face? ["x.css", "styles", "dist"] = some (.file [97] stamp) := by
  have hcomes : succeeds (build plainSettings smallConfig ⟨styledDisk, .silent, 0.0⟩)
      fun _ _ => true := by decide +kernel
  have hlinks : ∀ l, [("dist" : Text)] <:+ l → ¬ styledDisk.HasLink l := by
    rintro l ⟨inner, rfl⟩ ⟨target, htarget⟩
    have hdist : styledDisk.node? [("dist" : Text)] = none := by decide +kernel
    have hnothing : styledDisk.node? (inner ++ [("dist" : Text)]) = none := by
      by_cases hinner : inner = []
      · rw [hinner]
        exact hdist
      · exact Disk.node?_append_eq_none hinner fun h => h.node?_ne_none hdist
    simp [Disk.face?_eq_none.2 hnothing] at htarget
  refine ⟨hlinks, ?_⟩
  obtain ⟨result, after, hbuild, -⟩ := exists_of_succeeds hcomes
  obtain ⟨ready, place, hready, hplace, hmanifest, hreferences⟩ := read_references_of_build hbuild
  have hmade : Storage.ensureDirectory plainSettings.chain (Path.parse "dist") styledDisk =
      .ok () (styledDisk.putDirectory ["dist"]) := by rfl
  obtain ⟨-, rfl⟩ := EStateM.Result.ok.inj (hmade.symm.trans hready)
  have hdist : (styledDisk.putDirectory ["dist"]).locate (Path.parse "dist") = .ok ["dist"] := by
    decide +kernel
  obtain rfl := Except.ok.inj (hdist.symm.trans hplace)
  have hfound : (styledDisk.putDirectory ["dist"]).locate
      ((smallConfig.assetsOf .style).child "x.css") = .ok ["y.css", "src"] := by decide +kernel
  have hmember : ("x.css" : Text) ∈ result.manifest.names .style := by
    refine ((hmanifest .style).2 "x.css").2 ⟨by decide +kernel, ⟨["x.css"], ?_, by simp⟩, ?_⟩
    · decide +kernel
    · decide +kernel
  obtain ⟨content, hread, -, -, hthere⟩ := (hreferences hlinks).2 .style "x.css" hmember
    fun l hl => Except.ok.inj (hfound.symm.trans hl) ▸ by decide +kernel
  have hcontent : (styledDisk.putDirectory ["dist"]).read
      ((smallConfig.assetsOf .style).child "x.css") = .ok [97] := by decide +kernel
  obtain rfl := Except.ok.inj (hcontent.symm.trans hread)
  exact ⟨result, after, hbuild, hmember, hthere⟩

end Site

end OnePage
