import OnePage.Site.Asset
import OnePage.Site.Config
import OnePage.Storage.AtomicWrite
import OnePage.Storage.Copy
import OnePage.Template.Resolve

/-!
# Building a site

A build loads the data and the fragments, resolves the template, links the assets into the page,
writes the page in one step and copies the assets beside it.

* `assemble` makes the page, and `Assembly` is what it is made from. It only looks at the disk.
* `copyAssets` copies style sheets, scripts and other assets.
* `build` does all of it and says so on the way. Nothing that can fail before the page is written
  leaves more behind than empty directories.
-/

namespace OnePage

namespace Site

/-- What a build has done. -/
structure BuildResult where
  /-- The page. -/
  page : Storage.Path
  /-- How it comes by its style sheets and scripts. -/
  mode : BuildMode
  /-- The names of the data documents. -/
  dataKeys : List Text
  /-- The names of the fragments. -/
  fragmentNames : List Text
  /-- The assets that are linked. -/
  manifest : Manifest
  /-- Whether the default template was used. -/
  usedDefault : Bool
  /-- The placeholders that stayed. -/
  unresolved : List Text
  /-- How many files were copied. -/
  copied : Nat
  /-- How many milliseconds it took. -/
  elapsed : Int
deriving DecidableEq

/-- That a value cannot be told or written, as a failure of a build. -/
def Failure.ofShow : Template.ShowFault → Failure
  | .digits fault => digits fault
  | .unwritable fault => unwritable fault

/-- Resolves a template with what a site holds. -/
def resolveTemplate (settings : Settings) (data : Keyed Json.Value) (fragments : Keyed Text)
    (template : Text) : Except Failure Template.Resolved :=
  (Template.resolve ⟨.object data, fragments, settings.encoder⟩ template).mapError .ofShow

/-- Links a site's assets into its page. -/
def linkAssets (disk : Storage.Disk) (config : Config) (html : Text) (manifest : Manifest) :
    Except Failure Text :=
  Page.link config.mode (readAsset disk config.styles config.scripts) html manifest

/-- Copies a site's assets to their places in the output, and counts the files. -/
def copyAssets (chain : Nat) (config : Config) : Storage.Operation Nat := do
  let styles ← Storage.copyTree chain config.styles (config.output.join "styles")
  let scripts ← Storage.copyTree chain config.scripts (config.output.join "scripts")
  let assets ← Storage.copyTree chain config.assets (config.output.join "assets")
  return styles + scripts + assets

/-- The words for placeholders that stayed. -/
def unresolvedMessage (missed : List Text) : Text :=
  Numeral.ofNat missed.length ++ " unresolved placeholder(s) left in output: " ++
    Text.join ", " missed

/-- Builds a site. -/
def build (settings : Settings) (config : Config) : Program BuildResult := do
  let start ← time
  inform ("Building " ++ config.source.text ++ " -> " ++ config.output.text ++ " (mode=" ++
    config.mode.word ++ ")")
  onDisk (Storage.ensureDirectory settings.chain config.output)
  inform "Loading data files..."
  let data ← loadData settings config.data
  inform "Loading components..."
  let fragments ← loadFragments settings config.components
  inform "Building HTML..."
  let (template, usedDefault) ← consult fun disk => readTemplate disk config.template
  if usedDefault then
    inform ("No template at " ++ config.template.text ++ "; using the built-in default")
  let resolved ← consult fun _ => resolveTemplate settings data fragments template
  let manifest ← consult fun disk =>
    (discover disk config.styles config.scripts).mapError .storage
  let html ← consult fun disk => linkAssets disk config resolved.text manifest
  onDisk (Storage.writeAtomically settings.chain config.page html)
  unless resolved.missed.isEmpty do warn (unresolvedMessage resolved.missed)
  inform "Processing assets..."
  let copied ← onDisk (copyAssets settings.chain config)
  let finish ← time
  let elapsed ← consult fun _ => (Decimal.milliseconds start finish).mapError .range
  inform ("Build completed: " ++ (config.page.absolute (← get).disk.here).text)
  observe settings "pipeline" "build.ok" [
    ("ms", Numeral.ofInt elapsed),
    ("mode", config.mode.word),
    ("data", Numeral.ofNat data.length),
    ("fragments", Numeral.ofNat fragments.length),
    ("styles", Numeral.ofNat manifest.styles.length),
    ("scripts", Numeral.ofNat manifest.scripts.length),
    ("copied", Numeral.ofNat copied),
    ("unresolved", Numeral.ofNat resolved.missed.length)]
  return {
    page := config.page
    mode := config.mode
    dataKeys := Keyed.keys data
    fragmentNames := Keyed.keys fragments
    manifest
    usedDefault
    unresolved := resolved.missed
    copied
    elapsed }

/-- Builds a site once more; what the build has done is of no interest. -/
def buildAgain (settings : Settings) (config : Config) : Program Unit := do
  let _ ← build settings config

end Site

end OnePage
