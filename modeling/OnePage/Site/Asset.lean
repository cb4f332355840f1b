import OnePage.Page.DefaultTemplate
import OnePage.Page.Link
import OnePage.Site.Store

/-!
# Templates, style sheets and scripts

* `readTemplate` reads the template of a page; a site without one gets the default template.
* `discover` lists the style sheets and scripts of a site, in the order in which their directories
  do.
* `readAsset` reads one of them. Only the last part of its name counts, so nothing outside the two
  directories is read; one that has gone missing is no fault.
-/

namespace OnePage

namespace Site

open Storage (Disk Path)

/-- The template in a file and whether the default had to stand in for it. -/
def readTemplate (disk : Disk) (p : Path) : Except Failure (Text × Bool) :=
  match disk.read p with
  | .ok content => (decode .template p content).map fun text => (text, false)
  | .error (.system .noEntry _ _) => .ok (Page.defaultTemplate, true)
  | .error fault => .error (unreadable .template p fault)

/-- The ending of the assets of a kind. -/
def assetEnding : AssetKind → Text
  | .style => ".css"
  | .script => ".js"

/-- The style sheets and scripts directly in two directories. -/
def discover (disk : Disk) (styles scripts : Path) : Except Storage.Fault Manifest := do
  let styleNames ← disk.listFiles styles (assetEnding .style)
  let scriptNames ← disk.listFiles scripts (assetEnding .script)
  return ⟨styleNames, scriptNames⟩

/-- The contents of an asset, unless it is missing. -/
def readAsset (disk : Disk) (styles scripts : Path) (kind : AssetKind) (name : Text) :
    Except Failure (Option Text) :=
  let base := match kind with
    | .style => styles
    | .script => scripts
  let p := base.join (Path.parse name).name
  match disk.read p with
  | .ok content => (decode .asset p content).map some
  | .error (.system .noEntry _ _) => .ok none
  | .error fault => .error (unreadable .asset p fault)

end Site

end OnePage
