import OnePage.Proofs.Keyed
import OnePage.Proofs.Site.References
import OnePage.Proofs.Site.Sources
import OnePage.Proofs.Storage.Sight
import OnePage.Proofs.Template.Resolve

/-!
# A page and its sources

Two sites with the same sources get the same page, whatever else lies on their disks and in whatever
order the data and the fragments are listed.

* `stem_injective` — files with the same ending are told apart by what comes before it.
* `listFiles_perm` and `readAll_perm` — files that are the same up to their order are listed and
  read the same up to their order.
* `SameSources` — two disks hold the same sources.
* `Disk.ClimbsFor` — the path of the sources finds directories wherever it steps up.
* **`build_of_sameSources`** — two builds from the same sources leave the same page and come to the
  same, up to the order of the data and of the fragments.
-/

namespace OnePage

namespace Site

open Storage (Disk Path Location SameWay nominal validName)

variable {α : Type} {settings : Settings} {config : Config} {world after : World}
  {old new ready : Disk} {p : Path} {l s : Location} {ending name : Text} {found found' : List Text}

/-! ## Names and stems -/

lemma stem_append (h : ending <:+ name) : stem ending name ++ ending = name := by
  obtain ⟨front, rfl⟩ := h
  simp [stem, Text.before?]

/-- **Files with the same ending** are told apart by what comes before it. -/
lemma stem_injective {other : Text} (h : ending <:+ name) (hother : ending <:+ other)
    (hsame : stem ending name = stem ending other) : name = other := by
  rw [← stem_append h, ← stem_append hother, hsame]

/-- What has been read, name by name. -/
lemma readEach_eq_ok {read : Path → Except Failure α} {names : List Text} {entries : Keyed α}
    (h : readEach read p ending names = .ok entries) :
    entries =
        names.filterMap (fun name => (read (p.child name)).toOption.map (stem ending name, ·)) ∧
      Keyed.keys entries = names.map (stem ending) := by
  induction names generalizing entries with
  | nil =>
    obtain rfl : [] = entries := Except.ok.inj h
    exact ⟨rfl, rfl⟩
  | cons name names ih =>
    obtain ⟨value, hvalue, h⟩ := except_bind_eq_ok.1 h
    obtain ⟨rest, hrest, h⟩ := except_bind_eq_ok.1 h
    obtain rfl := Except.ok.inj h
    obtain ⟨hentries, hkeys⟩ := ih hrest
    refine ⟨?_, by rw [Keyed.keys, List.map_cons, List.map_cons, ← hkeys]; rfl⟩
    rw [List.filterMap_cons, hvalue, ← hentries]
    rfl

/-! ## Data, fragments and templates -/

section Reading

variable (hway : SameWay p old new)

include hway

/-- **The same files in another order** are read in another order, each under a name of its own. -/
lemma readAll_perm {read : Disk → Path → Except Failure α} {entries entries' : Keyed α}
    (hread : ∀ q, new.read q = old.read q → read new q = read old q)
    (hentries : readAll (read old) old p ending = .ok entries)
    (hentries' : readAll (read new) new p ending = .ok entries')
    (hfiles : (old.filesIn ending (nominal (old.origin p) p.parts)).Perm
      (new.filesIn ending (nominal (old.origin p) p.parts))) :
    entries.Perm entries' ∧ (Keyed.keys entries).Nodup := by
  rw [readAll] at hentries hentries'
  cases hlist : old.listFiles p ending with
  | error fault => simp [hlist] at hentries
  | ok found =>
    cases hlist' : new.listFiles p ending with
    | error fault => simp [hlist'] at hentries'
    | ok found' =>
      rw [hlist] at hentries
      rw [hlist'] at hentries'
      obtain ⟨hvalues, hkeys⟩ := readEach_eq_ok hentries
      obtain ⟨hvalues', -⟩ := readEach_eq_ok hentries'
      obtain ⟨hperm, hsame⟩ := hway.listFiles_perm hlist hlist' hfiles
      constructor
      · rw [hvalues, hvalues']
        refine (hperm.filterMap _).trans (.of_eq (List.filterMap_congr fun name hname => ?_))
        rw [hread _ (hsame name (hperm.mem_iff.2 hname))]
      · rw [hkeys]
        exact (Disk.nodup_listFiles hlist).map_on fun a ha b hb =>
          stem_injective ((Disk.mem_listFiles_iff hlist).1 ha).1
            ((Disk.mem_listFiles_iff hlist).1 hb).1

/-- Templates are the same if the same is at their place. -/
lemma readTemplate_congr {first second : Text × Bool} (hfirst : readTemplate old p = .ok first)
    (hsecond : readTemplate new p = .ok second)
    (hfile : ∀ bytes, old.content? (nominal (old.origin p) p.parts) = some (.file bytes) ↔
      new.content? (nominal (old.origin p) p.parts) = some (.file bytes)) : first = second := by
  have hread := hway.read_iff hfile
  -- without a template there is the default
  have hdefault {disk : Disk} {found : Text × Bool} (h : readTemplate disk p = .ok found)
      (hnone : ∀ bytes, disk.read p ≠ .ok bytes) : found = (Page.defaultTemplate, true) := by
    rw [readTemplate] at h
    split at h
    · next bytes hbytes => exact absurd hbytes (hnone bytes)
    · exact (Except.ok.inj h).symm
    · simp at h
  by_cases hthere : ∃ bytes, old.read p = .ok bytes
  · obtain ⟨bytes, hbytes⟩ := hthere
    rw [readTemplate, hbytes] at hfirst
    rw [readTemplate, (hread bytes).1 hbytes] at hsecond
    exact Except.ok.inj (hfirst.symm.trans hsecond)
  · have hnone : ∀ bytes, old.read p ≠ .ok bytes := not_exists.1 hthere
    rw [hdefault hfirst hnone, hdefault hsecond fun bytes => mt (hread bytes).2 (hnone bytes)]

end Reading

/-! ## The same sources -/

/-- **The same sources** lie in a directory of two disks: the same data documents and fragments up
to their order, the same template or none, and the same style sheets and scripts. -/
structure SameSources (s : Location) (old new : Disk) : Prop where
  /-- The data documents. -/
  documents : (old.filesIn dataEnding ("data" :: s)).Perm (new.filesIn dataEnding ("data" :: s))
  /-- The fragments. -/
  fragments : (old.filesIn fragmentEnding ("components" :: s)).Perm
    (new.filesIn fragmentEnding ("components" :: s))
  /-- The template. -/
  template : ∀ bytes, old.content? ("page.html" :: "templates" :: s) = some (.file bytes) ↔
    new.content? ("page.html" :: "templates" :: s) = some (.file bytes)
  /-- The style sheets and scripts. -/
  assets : ∀ kind, old.filesIn (assetEnding kind) (assetFolder kind :: s) =
    new.filesIn (assetEnding kind) (assetFolder kind :: s)

/-- Making directories does not change the sources. -/
lemma SameSources.made {q : Path} {ready' : Disk} (h : SameSources s old new)
    (hold : Storage.OnlyMade p old ready) (hnew : Storage.OnlyMade q new ready') :
    SameSources s ready ready' where
  documents := by rw [hold.filesIn_eq, hnew.filesIn_eq]; exact h.documents
  fragments := by rw [hold.filesIn_eq, hnew.filesIn_eq]; exact h.fragments
  template bytes := by
    rw [hold.content?_eq_file_iff, hnew.content?_eq_file_iff]
    exact h.template bytes
  assets kind := by rw [hold.filesIn_eq, hnew.filesIn_eq, h.assets]

lemma nominal_join {disk : Disk} (h : validName name) :
    nominal (disk.origin (p.join name)) (p.join name).parts =
      name :: nominal (disk.origin p) p.parts := by
  rw [Path.join_of_validName h]
  exact Storage.nominal_child h _ p

section Surveys

variable {first second : Prepared} {template template' : Text}
  (hway : SameWay config.source old new)
  (hsources : SameSources (nominal (old.origin config.source) config.source.parts) old new)
  (hfirst : Surveyed settings config old first template)
  (hsecond : Surveyed settings config new second template')

include hway hsources hfirst hsecond

/-- The same style sheets and scripts are listed in the same order, and the same can be read. -/
lemma manifest_eq : first.manifest = second.manifest ∧
    ∀ kind, ∀ name ∈ first.manifest.names kind,
      new.read ((config.assetsOf kind).child name) =
        old.read ((config.assetsOf kind).child name) := by
  have hkind (kind : AssetKind) : first.manifest.names kind = second.manifest.names kind ∧
      ∀ name ∈ first.manifest.names kind, new.read ((config.assetsOf kind).child name) =
        old.read ((config.assetsOf kind).child name) := by
    have hvalid := validName_assetFolder kind
    have hassets : SameWay (config.assetsOf kind) old new := hway.join hvalid
    have hfiles : old.filesIn (assetEnding kind) (nominal (old.origin (config.assetsOf kind))
        (config.assetsOf kind).parts) = new.filesIn (assetEnding kind)
          (nominal (old.origin (config.assetsOf kind)) (config.assetsOf kind).parts) := by
      rw [Config.assetsOf, nominal_join hvalid]
      exact hsources.assets kind
    have hlist := listFiles_of_discover hfirst.discover kind
    have hlist' := listFiles_of_discover hsecond.discover kind
    exact ⟨hassets.listFiles_eq hlist hlist' hfiles,
      (hassets.listFiles_perm hlist hlist' (.of_eq hfiles)).2⟩
  refine ⟨?_, fun kind => (hkind kind).2⟩
  have hstyles : first.manifest.styles = second.manifest.styles := (hkind .style).1
  have hscripts : first.manifest.scripts = second.manifest.scripts := (hkind .script).1
  cases hm : first.manifest
  cases hm' : second.manifest
  simp_all

/-- **What is found in the same sources** is the same, up to the order of the data and of the
fragments. -/
lemma surveyed_perm : first.data.Perm second.data ∧ first.fragments.Perm second.fragments ∧
    first.usedDefault = second.usedDefault ∧ first.resolved = second.resolved ∧
      first.manifest = second.manifest ∧ first.html = second.html := by
  -- data, fragments and template
  obtain ⟨hdata, hkeys⟩ := readAll_perm (hway.join (by decide))
    (fun _ h => readDocument_eq h settings.nesting) hfirst.documents hsecond.documents (by
      rw [nominal_join (by decide)]
      exact hsources.documents)
  obtain ⟨hfragments, hnames⟩ := readAll_perm (hway.join (by decide))
    (fun _ h => readText_eq h .source) hfirst.fragments hsecond.fragments (by
      rw [nominal_join (by decide)]
      exact hsources.fragments)
  have htemplates := readTemplate_congr ((hway.join (by decide)).join (by decide)) hfirst.read
    hsecond.read (by
      rw [nominal_join (by decide), nominal_join (by decide)]
      exact hsources.template)
  obtain ⟨rfl, hdefault⟩ := Prod.mk.inj htemplates
  -- the resolved template depends on lookups only
  have hresolved : first.resolved = second.resolved := by
    have hsame := @Template.resolve_congr _ _ _ _ settings.encoder (Keyed.get?_perm hdata hkeys)
      (Keyed.get?_perm hfragments hnames) template
    have hresolve := hfirst.resolve
    rw [resolveTemplate, hsame] at hresolve
    exact Except.ok.inj (hresolve.symm.trans hsecond.resolve)
  -- the assets
  obtain ⟨hmanifest, hread⟩ := manifest_eq hway hsources hfirst hsecond
  refine ⟨hdata, hfragments, hdefault, hresolved, hmanifest, ?_⟩
  have hlink := hsecond.link
  rw [linkAssets_eq, ← hmanifest, ← hresolved, slotTexts_congr hfirst.discover hread,
    ← linkAssets_eq] at hlink
  exact Except.ok.inj (hfirst.link.symm.trans hlink)

end Surveys

/-! ## Two builds -/

/-- **A build, by what it finds**: the directory that it makes, and the page that it leaves. -/
lemma surveyed_of_build {result : BuildResult} (hlinkless : world.disk.Linkless)
    (hclean : config.output.IsClean) (hbuild : build settings config world = .ok result after) :
    ∃ ready prepared template, Storage.OnlyMade config.output world.disk ready ∧
      Storage.Paving config.output world.disk ready ∧
      Surveyed settings config ready prepared template ∧
      result = prepared.told config result.copied result.elapsed ∧
      ∃ content, Utf8.encode prepared.html = .ok content ∧
        after.disk.read config.page = .ok content := by
  obtain ⟨-, ready, written, prepared, hsteps⟩ := build_steps hbuild
  obtain ⟨-, template, hsurveyed⟩ := survey_eq_ok_iff.1 hsteps.survey
  have honly := Storage.onlyMade_of_ensureDirectory hsteps.make
  refine ⟨ready, prepared, template, honly,
    Storage.ensureDirectory_ok hlinkless hclean hsteps.make, hsurveyed, hsteps.tell, ?_⟩
  -- the page that has been written is the one that is read
  obtain ⟨ready', place, materials, hready, hplace, hdirectory, hgather, -, hpage⟩ :=
    read_page hbuild hclean
  obtain ⟨-, rfl⟩ := EStateM.Result.ok.inj (hsteps.make.symm.trans hready)
  have hopens (names : List Text) : ready.OpensAt config.output place names :=
    ⟨hplace, hdirectory, (honly.linkless hlinkless).linklessAt _ _⟩
  obtain ⟨materials', hgather', hhtml⟩ := gather_of_survey hsteps.survey
  obtain rfl := Except.ok.inj (hgather.symm.trans hgather')
  rw [← hhtml]
  exact hpage (hopens copyNames) ((hopens ["index.html"]).linkless.bypasses (by decide))

/-- **The same page from the same sources.**  Suppose that two disks without links have the same
working directory and hold the same sources, whatever else they hold, and that the path of the
sources climbs on both, once the output has been made, or on neither.  Then builds that succeed on
both leave the same page, byte for byte.  They leave the same placeholders, link the same assets and
use the same kind of template, and what they tell about data and fragments is the same up to its
order. -/
theorem build_of_sameSources {first second after after' : World} {result result' : BuildResult}
    {source output assets : Text} {mode : BuildMode}
    (hlinkless : first.disk.Linkless) (hlinkless' : second.disk.Linkless)
    (hhere : second.disk.here = first.disk.here)
    (hplace : nominal (first.disk.origin (Path.parse source)) (Path.parse source).parts = s)
    (hsources : SameSources s first.disk second.disk)
    (hclimbs : second.disk.ClimbsFor (Path.parse source) (Path.parse output) ↔
      first.disk.ClimbsFor (Path.parse source) (Path.parse output))
    (hbuild : build settings (.ofTexts source output assets mode) first = .ok result after)
    (hbuild' : build settings (.ofTexts source output assets mode) second = .ok result' after') :
    (∃ content, after.disk.read (Config.ofTexts source output assets mode).page = .ok content ∧
      after'.disk.read (Config.ofTexts source output assets mode).page = .ok content) ∧
    result.unresolved = result'.unresolved ∧ result.manifest = result'.manifest ∧
    result.usedDefault = result'.usedDefault ∧ result.dataKeys.Perm result'.dataKeys ∧
    result.fragmentNames.Perm result'.fragmentNames := by
  obtain ⟨ready, prepared, template, honly, hpaving, hsurveyed, htell, content, hencode, hread⟩ :=
    surveyed_of_build hlinkless (Path.isClean_parse output) hbuild
  obtain ⟨ready', prepared', template', honly', hpaving', hsurveyed', htell', content', hencode',
    hread'⟩ := surveyed_of_build hlinkless' (Path.isClean_parse output) hbuild'
  have hway : SameWay (Path.parse source) ready ready' := {
    linkless := honly.linkless hlinkless
    linkless' := honly'.linkless hlinkless'
    here := by rw [honly'.here, honly.here, hhere]
    tidy := Path.isTidy_parse source
    climbs := hpaving'.climbs_iff.trans (hclimbs.trans hpaving.climbs_iff.symm) }
  have hready : SameSources (nominal (ready.origin (Path.parse source)) (Path.parse source).parts)
      ready ready' := by
    rw [hpaving.grows.origin, hplace]
    exact hsources.made honly honly'
  obtain ⟨hdata, hfragments, hdefault, hresolved, hmanifest, hhtml⟩ :=
    surveyed_perm hway hready hsurveyed hsurveyed'
  rw [← hhtml] at hencode'
  obtain rfl := Except.ok.inj (hencode.symm.trans hencode')
  rw [htell, htell']
  exact ⟨⟨content, hread, hread'⟩, congrArg Template.Resolved.missed hresolved, hmanifest, hdefault,
    hdata.map _, hfragments.map _⟩

/-- A template that names two fragments and two data documents. -/
def pairTemplate : Text :=
  Template.placeholder "component:x" ++ Template.placeholder "component:y" ++
    Template.placeholder "a" ++ Template.placeholder "b"

/-- A site with two fragments and two data documents, each listed by name. -/
def pairDisk : Disk :=
  ((((smallDisk pairTemplate "Hello").putFile ["y.html", "components", "src"] [33]
    (.fresh 0)).putDirectory ["data", "src"]).putFile ["a.json", "data", "src"] [49]
    (.fresh 0)).putFile ["b.json", "data", "src"] [50] (.fresh 0)

/-- The same sources with the second of each kind listed first, and with an output and assets from
earlier days. -/
def turnedDisk : Disk :=
  (((((pairDisk.pin ["y.html", "components", "src"]).pin ["b.json", "data", "src"]).putDirectory
    ["dist"]).putFile ["index.html", "dist"] [97] (.fresh 0)).putDirectory ["assets"]).putFile
    ["a", "assets"] [98] (.fresh 0)

/-- What a build finds there, in the order in which it is listed. -/
def pairPrepared (data : Keyed Json.Value) (fragments : Keyed Text) : Prepared :=
  ⟨0.0, data, fragments, false, ⟨"Hello!12", []⟩, ⟨[], []⟩, "Hello!12"⟩

/-- A site with that template is built with what has been found. -/
lemma exists_build_pair {disk ready : Disk} {data : Keyed Json.Value} {fragments : Keyed Text}
    (hmake : Storage.ensureDirectory plainSettings.chain smallConfig.output disk = .ok () ready)
    (hsurveyed : Surveyed plainSettings smallConfig ready (pairPrepared data fragments)
      pairTemplate)
    (hfinish : succeeds
      (Storage.writeAtomically plainSettings.chain smallConfig.page "Hello!12" ready)
      fun _ written => succeeds (copyAssets plainSettings.chain smallConfig written)
        fun _ _ => true) :
    ∃ result after, build plainSettings smallConfig ⟨disk, .silent, 0.0⟩ = .ok result after ∧
      result.dataKeys = data.keys ∧ result.fragmentNames = fragments.keys := by
  obtain ⟨_, written, hwrite, hcopies⟩ := exists_of_succeeds hfinish
  obtain ⟨copied, new, hcopy, -⟩ := exists_of_succeeds hcopies
  have htime : Decimal.milliseconds 0.0 0.0 = .ok 0 := by decide +kernel
  have hsteps : BuildSteps plainSettings smallConfig 0.0 disk
      ((pairPrepared data fragments).told smallConfig copied 0) new ready written
      (pairPrepared data fragments) := {
    make := hmake
    survey := survey_eq_ok_iff.2 ⟨rfl, pairTemplate, hsurveyed⟩
    write := hwrite
    copy := hcopy
    time := htime
    tell := rfl }
  obtain ⟨after, hbuild, -⟩ := @build_of_steps _ _ ⟨disk, .silent, 0.0⟩ _ _ _ _ _ hsteps
  exact ⟨_, after, hbuild, rfl, rfl⟩

theorem build_of_sameSources_turned :
    pairDisk.Linkless ∧ turnedDisk.Linkless ∧
    SameSources [("src" : Text)] pairDisk turnedDisk ∧
    ∃ result after result' after',
      build plainSettings smallConfig ⟨pairDisk, .silent, 0.0⟩ = .ok result after ∧
      build plainSettings smallConfig ⟨turnedDisk, .silent, 0.0⟩ = .ok result' after' ∧
      result.dataKeys = [("a" : Text), "b"] ∧ result'.dataKeys = [("b" : Text), "a"] ∧
      result.fragmentNames = [("x" : Text), "y"] ∧ result'.fragmentNames = [("y" : Text), "x"] ∧
      ∃ content, after.disk.read smallConfig.page = .ok content ∧
        after'.disk.read smallConfig.page = .ok content := by
  have hlinkless : pairDisk.Linkless :=
    @Storage.Disk.linkless_of_inventory _ (Path.parse "") (by decide +kernel)
  have hlinkless' : turnedDisk.Linkless :=
    @Storage.Disk.linkless_of_inventory _ (Path.parse "") (by decide +kernel)
  have hsources : SameSources [("src" : Text)] pairDisk turnedDisk := {
    documents := by decide_cbv
    fragments := by decide_cbv
    template := fun bytes => by
      have hsame : pairDisk.content? ["page.html", "templates", "src"] =
          turnedDisk.content? ["page.html", "templates", "src"] := by decide +kernel
      rw [hsame]
    assets := fun kind => by cases kind <;> decide +kernel }
  -- the two surveys
  have hlist : (pairDisk.putDirectory ["dist"]).listFiles smallConfig.data dataEnding =
      .ok ["a.json", "b.json"] := by decide_cbv
  have hlist' : turnedDisk.listFiles smallConfig.data dataEnding = .ok ["b.json", "a.json"] := by
    decide_cbv
  have hfound : (pairDisk.putDirectory ["dist"]).listFiles smallConfig.components fragmentEnding =
      .ok ["x.html", "y.html"] := by decide_cbv
  have hfound' : turnedDisk.listFiles smallConfig.components fragmentEnding =
      .ok ["y.html", "x.html"] := by decide_cbv
  have hsurveyed : Surveyed plainSettings smallConfig (pairDisk.putDirectory ["dist"])
      (pairPrepared [("a", .number (.whole 1)), ("b", .number (.whole 2))]
        [("x", "Hello"), ("y", "!")]) pairTemplate := {
    documents := by
      rw [documents, readAll, hlist]
      rfl
    fragments := by
      rw [fragments, readAll, hfound]
      decide +kernel
    read := by decide +kernel
    resolve := by decide +kernel
    discover := by decide +kernel
    link := by decide +kernel }
  have hsurveyed' : Surveyed plainSettings smallConfig turnedDisk
      (pairPrepared [("b", .number (.whole 2)), ("a", .number (.whole 1))]
        [("y", "!"), ("x", "Hello")]) pairTemplate := {
    documents := by
      rw [documents, readAll, hlist']
      rfl
    fragments := by
      rw [fragments, readAll, hfound']
      decide +kernel
    read := by decide +kernel
    resolve := by decide +kernel
    discover := by decide +kernel
    link := by decide +kernel }
  obtain ⟨result, after, hbuild, hkeys, hnames⟩ :=
    @exists_build_pair pairDisk _ _ _ (by rfl) hsurveyed (by decide +kernel)
  obtain ⟨result', after', hbuild', hkeys', hnames'⟩ :=
    @exists_build_pair turnedDisk _ _ _ (by rfl) hsurveyed' (by decide +kernel)
  have hclimbs (disk : Disk) : disk.ClimbsFor (Path.parse "src") (Path.parse "dist") :=
    Storage.Disk.climbsFor_of_notMem (by decide +kernel)
  have hhere : turnedDisk.here = pairDisk.here := by decide +kernel
  have hplace : nominal (pairDisk.origin (Path.parse "src")) (Path.parse "src").parts =
      [("src" : Text)] := by decide +kernel
  obtain ⟨hpage, -⟩ := build_of_sameSources hlinkless hlinkless' hhere hplace hsources
    (iff_of_true (hclimbs _) (hclimbs _)) hbuild hbuild'
  exact ⟨hlinkless, hlinkless', hsources, result, after, result', after', hbuild, hbuild', hkeys,
    hkeys', hnames, hnames', hpage⟩

/-! ### Sources that are found by the way of something else -/

/-- A disk with a template. -/
def templateDisk : Disk :=
  ((Disk.empty.putDirectory ["src"]).putDirectory ["templates", "src"]).putFile
    ["page.html", "templates", "src"] [97] (.fresh 0)

/-- Sources whose path passes through the output and through another directory. -/
def roundaboutConfig : Config := .ofTexts "dist/../x/../src" "dist" "assets" .reference

/-- Without the other directory the template is not found. -/
theorem build_of_sameSources_strays : templateDisk.Linkless ∧
    (templateDisk.putDirectory ["x"]).Linkless ∧
    templateDisk.IsBeside roundaboutConfig.source ["dist"] ∧
    (templateDisk.putDirectory ["x"]).IsBeside roundaboutConfig.source ["dist"] ∧
    SameSources [("src" : Text)] (templateDisk.putDirectory ["x"]) templateDisk ∧
    ∃ result after result' after',
      build plainSettings roundaboutConfig ⟨templateDisk.putDirectory ["x"], .silent, 0.0⟩ =
        .ok result after ∧
      build plainSettings roundaboutConfig ⟨templateDisk, .silent, 0.0⟩ = .ok result' after' ∧
      result.usedDefault = false ∧ result'.usedDefault = true := by
  have hcomes : succeeds (build plainSettings roundaboutConfig
      ⟨templateDisk.putDirectory ["x"], .silent, 0.0⟩) fun result _ => !result.usedDefault := by
    decide +kernel
  have hcomes' : succeeds (build plainSettings roundaboutConfig ⟨templateDisk, .silent, 0.0⟩)
      fun result _ => result.usedDefault := by decide +kernel
  obtain ⟨result, after, hbuild, hdefault⟩ := exists_of_succeeds hcomes
  obtain ⟨result', after', hbuild', hdefault'⟩ := exists_of_succeeds hcomes'
  refine ⟨@Storage.Disk.linkless_of_inventory _ (Path.parse "") (by decide +kernel),
    @Storage.Disk.linkless_of_inventory _ (Path.parse "") (by decide +kernel), ?_, ?_, ?_, result,
    after, result', after', hbuild, hbuild', by simpa using hdefault, hdefault'⟩
  · rw [Disk.IsBeside]
    decide +kernel
  · rw [Disk.IsBeside]
    decide +kernel
  · refine ⟨by decide +kernel, by decide +kernel, fun bytes => ?_, fun kind => ?_⟩
    · have hsame : (templateDisk.putDirectory ["x"]).content? ["page.html", "templates", "src"] =
          templateDisk.content? ["page.html", "templates", "src"] := by decide +kernel
      rw [hsame]
    · cases kind <;> decide +kernel

end Site

end OnePage
