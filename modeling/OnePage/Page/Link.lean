import OnePage.Page.Mode
import OnePage.Template.Token

/-!
# Linking assets into a page

The two slots of a page are filled with what its mode asks for: tags that refer to the assets, or
one block with all their contents. Only the first marker of each slot is replaced.

* `AssetKind` tells style sheets and scripts apart; `AssetKind.tag` refers to one asset.
* `Manifest` lists the assets of a page in order.
* `tags` and `block` are the texts put in, and `fill` puts them in.
* `link` does so for a mode. Contents come from a reader in any monad, which is asked for every
  style sheet and then for every script; an asset that is missing is left out.
-/

namespace OnePage

/-- The kinds of asset. -/
inductive AssetKind where
  /-- Style sheets. -/
  | style
  /-- Scripts. -/
  | script
deriving DecidableEq

/-- The word for a kind. -/
def AssetKind.word : AssetKind → Text
  | style => "style"
  | script => "script"

/-- The names of a page's assets, in the order they are linked. -/
structure Manifest where
  /-- The style sheets. -/
  styles : List Text
  /-- The scripts. -/
  scripts : List Text
deriving DecidableEq

namespace Page

/-- The tag that refers to an asset. -/
def tag : AssetKind → (name : Text) → Text
  | .style, name => "<link rel=\"stylesheet\" href=\"./styles/" ++ name ++ "\">"
  | .script, name => "<script src=\"./scripts/" ++ name ++ "\"></script>"

/-- What stands between two tags. -/
def tagSeparator : Text := "\n    "

/-- The tags for all assets of a kind. -/
def tags (kind : AssetKind) (names : List Text) : Text :=
  Text.join tagSeparator (names.map (tag kind))

/-- The block with all contents, a line break after each. -/
def block (kind : AssetKind) (contents : List Text) : Text :=
  "<" ++ kind.word ++ ">\n" ++ contents.flatMap (· ++ Text.newline) ++ "</" ++ kind.word ++ ">"

/-- A page with the texts for its style sheets and scripts put in, the style sheets first. -/
def fill (html styles scripts : Text) : Text :=
  Text.replaceFirst Template.Slot.scripts.marker scripts
    (Text.replaceFirst Template.Slot.styles.marker styles html)

/-- A page that refers to its assets. -/
def linkReference (html : Text) (manifest : Manifest) : Text :=
  fill html (tags .style manifest.styles) (tags .script manifest.scripts)

variable {m : Type → Type} [Monad m]

/-- The contents of those assets that are there, asked for in order. -/
def contents (read : AssetKind → Text → m (Option Text)) (kind : AssetKind) :
    List Text → m (List Text)
  | [] => pure []
  | name :: names => do
    let found ← read kind name
    let rest ← contents read kind names
    pure (found.toList ++ rest)

/-- A page that holds the contents of its assets. -/
def linkInline (read : AssetKind → Text → m (Option Text)) (html : Text) (manifest : Manifest) :
    m Text := do
  let styles ← contents read .style manifest.styles
  let scripts ← contents read .script manifest.scripts
  pure (fill html (block .style styles) (block .script scripts))

/-- A page with its assets as its mode asks. -/
def link (mode : BuildMode) (read : AssetKind → Text → m (Option Text)) (html : Text)
    (manifest : Manifest) : m Text :=
  match mode with
  | .reference => pure (linkReference html manifest)
  | .inline => linkInline read html manifest

end Page

end OnePage
