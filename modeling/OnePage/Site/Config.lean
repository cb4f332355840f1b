import OnePage.Page.Mode
import OnePage.Storage.Path

/-!
# Where a site lies

`Config` says where a site's sources, its output and its other assets lie and how its page comes by
style sheets and scripts. Everything else has a fixed place below these directories.
-/

namespace OnePage

namespace Site

open Storage (Path)

/-- The directories of a site and the mode of its page. -/
structure Config where
  /-- The directory of the sources. -/
  source : Path
  /-- The directory of the output. -/
  output : Path
  /-- The directory of assets that are copied as they are. -/
  assets : Path
  /-- How the page comes by its style sheets and scripts. -/
  mode : BuildMode
deriving DecidableEq

namespace Config

/-- The configuration with directories given as texts. -/
def ofTexts (source output assets : Text) (mode : BuildMode) : Config :=
  ⟨Path.parse source, Path.parse output, Path.parse assets, mode⟩

/-- Where the sources are if nothing is said. -/
def defaultSource : Text := "src"

/-- Where the output goes if nothing is said. -/
def defaultOutput : Text := "dist"

/-- Where other assets are if nothing is said. -/
def defaultAssets : Text := "assets"

/-- The configuration if nothing is said. -/
def standard : Config := ofTexts defaultSource defaultOutput defaultAssets .reference

/-- The data documents. -/
def data (config : Config) : Path := config.source.join "data"

/-- The fragments. -/
def components (config : Config) : Path := config.source.join "components"

/-- The template. -/
def template (config : Config) : Path := (config.source.join "templates").join "page.html"

/-- The style sheets. -/
def styles (config : Config) : Path := config.source.join "styles"

/-- The scripts. -/
def scripts (config : Config) : Path := config.source.join "scripts"

/-- The page. -/
def page (config : Config) : Path := config.output.join "index.html"

end Config

end Site

end OnePage
