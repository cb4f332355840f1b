import OnePage.Proofs.Outcome
import OnePage.Site.Build

/-!
# What a page is made of

Between the making of its directory and the writing of its page, a build only looks at the disk.
What it finds there goes into the page, and some of it is told in the end: which documents and
fragments there were, which assets are linked, whether the default template had to do.

* `Materials` is what a page is made of, and `gather` looks for it.
* `Prepared` is what a build finds, and `survey` looks for that.
* `survey_eq_ok_iff` — the findings of a survey, one after the other.
* **`map_gather`** — a survey comes to the same page as looking for its materials, or to the same
  failure.
-/

namespace OnePage

namespace Site

open Storage (Disk Path)

variable {settings : Settings} {config : Config} {disk : Disk} {failure : Failure}

/-! ## Materials -/

/-- What a page is made of. -/
structure Materials where
  /-- The values of the data documents. -/
  data : Keyed Json.Value
  /-- The fragments. -/
  fragments : Keyed Text
  /-- The template. -/
  template : Text
  /-- The template after it has been resolved. -/
  resolved : Template.Resolved
  /-- What the slot of the style sheets is filled with. -/
  styles : Text
  /-- What the slot of the scripts is filled with. -/
  scripts : Text

/-- What the template is resolved with. -/
def Materials.sources (settings : Settings) (materials : Materials) : Template.Sources :=
  ⟨.object materials.data, materials.fragments, settings.encoder⟩

/-- The text of the page. -/
def Materials.html (materials : Materials) : Text :=
  Page.fill materials.resolved.text materials.styles materials.scripts

/-- What the two slots of a page are filled with. -/
def slotTexts (disk : Disk) (config : Config) (manifest : Manifest) :
    Except Failure (Text × Text) :=
  match config.mode with
  | .reference => .ok (Page.tags .style manifest.styles, Page.tags .script manifest.scripts)
  | .inline => do
    let read := readAsset disk config.styles config.scripts
    let styles ← Page.contents read .style manifest.styles
    let scripts ← Page.contents read .script manifest.scripts
    return (Page.block .style styles, Page.block .script scripts)

/-- Looks for everything that a page is made of. -/
def gather (settings : Settings) (config : Config) (disk : Disk) : Except Failure Materials := do
  let data ← documents settings.nesting disk config.data
  let fragments ← fragments disk config.components
  let (template, _) ← readTemplate disk config.template
  let resolved ← resolveTemplate settings data fragments template
  let manifest ← (discover disk config.styles config.scripts).mapError .storage
  let (styles, scripts) ← slotTexts disk config manifest
  return ⟨data, fragments, template, resolved, styles, scripts⟩

/-- Linking the assets is filling the slots. -/
lemma linkAssets_eq (disk : Disk) (config : Config) (html : Text) (manifest : Manifest) :
    linkAssets disk config html manifest =
      (slotTexts disk config manifest).map
        fun (styles, scripts) => Page.fill html styles scripts := by
  rw [linkAssets, slotTexts]
  cases config.mode with
  | reference => rfl
  | inline =>
    simp only [Page.link, Page.linkInline, bind, Except.bind]
    cases Page.contents (readAsset disk config.styles config.scripts) .style manifest.styles with
    | error failure => rfl
    | ok styles =>
      cases Page.contents (readAsset disk config.styles config.scripts) .script manifest.scripts <;>
        rfl

/-! ## Findings -/

/-- What a build has found out before it writes the page. -/
structure Prepared where
  /-- When it began. -/
  start : Float
  /-- The data documents. -/
  data : Keyed Json.Value
  /-- The fragments. -/
  fragments : Keyed Text
  /-- Whether the default template is used. -/
  usedDefault : Bool
  /-- The resolved template. -/
  resolved : Template.Resolved
  /-- The assets that are linked. -/
  manifest : Manifest
  /-- The text of the page. -/
  html : Text

/-- Looks for everything that a build finds before it writes its page. -/
def survey (settings : Settings) (config : Config) (start : Float) (disk : Disk) :
    Except Failure Prepared := do
  let data ← documents settings.nesting disk config.data
  let fragments ← fragments disk config.components
  let (template, usedDefault) ← readTemplate disk config.template
  let resolved ← resolveTemplate settings data fragments template
  let manifest ← (discover disk config.styles config.scripts).mapError .storage
  let html ← linkAssets disk config resolved.text manifest
  return ⟨start, data, fragments, usedDefault, resolved, manifest, html⟩

/-- **The findings of a survey**, one after the other. -/
structure Surveyed (settings : Settings) (config : Config) (disk : Disk) (prepared : Prepared)
    (template : Text) : Prop where
  /-- The data documents have been read. -/
  documents : Site.documents settings.nesting disk config.data = .ok prepared.data
  /-- The fragments have been read. -/
  fragments : Site.fragments disk config.components = .ok prepared.fragments
  /-- So has the template. -/
  read : readTemplate disk config.template = .ok (template, prepared.usedDefault)
  /-- It has been resolved. -/
  resolve : resolveTemplate settings prepared.data prepared.fragments template =
    .ok prepared.resolved
  /-- The assets have been listed. -/
  discover : Site.discover disk config.styles config.scripts = .ok prepared.manifest
  /-- They have been linked. -/
  link : linkAssets disk config prepared.resolved.text prepared.manifest = .ok prepared.html

variable {start : Float} {prepared : Prepared} {materials : Materials}

lemma survey_eq_ok_iff : survey settings config start disk = .ok prepared ↔
    prepared.start = start ∧ ∃ template, Surveyed settings config disk prepared template := by
  constructor
  · intro h
    obtain ⟨data, hdata, h⟩ := except_bind_eq_ok.1 h
    obtain ⟨found, hfound, h⟩ := except_bind_eq_ok.1 h
    obtain ⟨⟨template, usedDefault⟩, htemplate, h⟩ := except_bind_eq_ok.1 h
    obtain ⟨resolved, hresolved, h⟩ := except_bind_eq_ok.1 h
    obtain ⟨manifest, hmanifest, h⟩ := except_bind_eq_ok.1 h
    obtain ⟨html, hhtml, h⟩ := except_bind_eq_ok.1 h
    obtain rfl := Except.ok.inj h
    exact ⟨rfl, template, hdata, hfound, htemplate, hresolved, mapError_eq_ok.1 hmanifest, hhtml⟩
  · rintro ⟨rfl, template, hdata, hfound, htemplate, hresolved, hmanifest, hhtml⟩
    simp [survey, hdata, hfound, htemplate, hresolved, hmanifest, hhtml, bind, Except.bind, pure,
      Except.pure, Except.mapError]

lemma start_of_survey (h : survey settings config start disk = .ok prepared) :
    prepared.start = start := (survey_eq_ok_iff.1 h).1

/-- **A survey comes to the page that its materials come to**, or fails as looking for them does. -/
lemma map_gather (settings : Settings) (config : Config) (start : Float) (disk : Disk) :
    (gather settings config disk).map Materials.html =
      (survey settings config start disk).map Prepared.html := by
  simp only [gather, survey, linkAssets_eq, bind, Except.bind]
  rcases documents settings.nesting disk config.data with failure | data
  · rfl
  rcases fragments disk config.components with failure | found
  · rfl
  rcases readTemplate disk config.template with failure | ⟨template, usedDefault⟩
  · rfl
  dsimp only
  rcases resolveTemplate settings data found template with failure | resolved
  · rfl
  rcases (discover disk config.styles config.scripts).mapError Failure.storage with
    failure | manifest
  · rfl
  dsimp only
  cases slotTexts disk config manifest <;> rfl

lemma gather_of_survey (h : survey settings config start disk = .ok prepared) :
    ∃ materials, gather settings config disk = .ok materials ∧
      materials.html = prepared.html := by
  have hmap := map_gather settings config start disk
  rw [h] at hmap
  exact except_map_eq_ok.1 hmap

lemma survey_of_gather (start : Float) (h : gather settings config disk = .ok materials) :
    ∃ prepared, survey settings config start disk = .ok prepared ∧
      prepared.html = materials.html := by
  have hmap := map_gather settings config start disk
  rw [h] at hmap
  exact except_map_eq_ok.1 hmap.symm

lemma survey_eq_error_iff : survey settings config start disk = .error failure ↔
    gather settings config disk = .error failure := by
  rw [← except_map_eq_error (f := Prepared.html), ← map_gather, except_map_eq_error]

end Site

end OnePage
