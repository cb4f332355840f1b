import OnePage.Text.CodePoint

/-!
# The tokens of a template

A template is text with placeholders: a name between two opening and two closing braces. The name
says what is wanted.

* `Token` is a literal run of text or a placeholder; a placeholder keeps its `raw` text, so that
  `Token.text` gives back what was read.
* `Slot` names the two placeholders that are filled with the page's assets.
* `Token.classify` tells placeholders apart by their content: a component after its heading word, a
  slot by its name, and everything else a path into the data, with periods between its steps.
-/

namespace OnePage

namespace Template

/-- Where the assets of a page go. -/
inductive Slot where
  /-- The place of the style sheets. -/
  | styles
  /-- The place of the scripts. -/
  | scripts
deriving DecidableEq

/-- The name of a slot. -/
def Slot.name : Slot → Text
  | styles => "CSS_LINKS"
  | scripts => "JS_SCRIPTS"

/-- The slot with a given name. -/
def Slot.ofName? (name : Text) : Option Slot :=
  if name = Slot.styles.name then some .styles
  else if name = Slot.scripts.name then some .scripts
  else none

/-- The brace that placeholders open with, twice. -/
def openBrace : CodePoint := CodePoint.ofChar '{'

/-- The brace that placeholders close with, twice. -/
def closeBrace : CodePoint := CodePoint.ofChar '}'

/-- The placeholder with a given content. -/
def placeholder (content : Text) : Text :=
  openBrace :: openBrace :: content ++ [closeBrace, closeBrace]

/-- The placeholder of a slot. -/
def Slot.marker (slot : Slot) : Text := placeholder slot.name

/-- A part of a template. -/
inductive Token where
  /-- Text that stays as it is. -/
  | literal (text : Text)
  /-- A value from the data, reached by the steps of `path`. -/
  | data (raw : Text) (path : List Text)
  /-- A fragment, by name. -/
  | component (raw : Text) (name : Text)
  /-- The place for assets of one kind. -/
  | sentinel (raw : Text) (slot : Slot)
deriving DecidableEq

namespace Token

/-- The text the token was read from. -/
def text : Token → Text
  | literal text => text
  | data raw _ => raw
  | component raw _ => raw
  | sentinel raw _ => raw

/-- The word that begins the content of a component placeholder. -/
def componentHeading : Text := "component:"

/-- The token for a placeholder, told by its content. -/
def classify (raw content : Text) : Token :=
  match Text.after? componentHeading content with
  | some name => component raw name
  | none => match Slot.ofName? content with
    | some slot => sentinel raw slot
    | none => data raw (Text.splitOn (CodePoint.ofChar '.') content)

/-- The path of a placeholder has at least one step. -/
theorem path_ne_nil_of_classify {raw content raw' : Text} {path : List Text}
    (found : classify raw content = data raw' path) : path ≠ [] := by
  rw [classify] at found
  split at found
  · simp at found
  · split at found
    · simp at found
    · obtain ⟨-, rfl⟩ : raw = raw' ∧ _ = path := by simpa using found
      exact Text.splitOn_ne_nil _ _

/-- The raw text of a token that asks for data or for a fragment. -/
def wanted? : Token → Option Text
  | data raw _ => some raw
  | component raw _ => some raw
  | literal _ => none
  | sentinel _ _ => none

end Token

end Template

end OnePage
