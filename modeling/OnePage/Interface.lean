import OnePage.Text.CodePoint

/-!
# The public interface

Sites are also built by other programs, which reach for the building blocks by name. The names they
may count on are fixed; whatever is not listed may change.

* `Interface.names` lists them, each once, capitals before small letters.
-/

namespace OnePage

namespace Interface

/-- The names that other programs may use. -/
def names : List Text := [
  "AssetManifest", "BuildConfig", "BuildMode", "BuildResult", "ComponentPlaceholder",
  "DataPlaceholder", "FatalLoadError", "Literal", "Sentinel", "build", "copy_tree",
  "default_template", "discover", "find_unresolved", "link", "load_data", "load_fragments",
  "read_source_asset", "resolve", "scan"]

end Interface

end OnePage
