import OnePage.Json.Value
import OnePage.Text.Blank
import OnePage.Text.Quoted

/-!
# Build modes

A page either refers to its style sheets and scripts or holds their contents.

* `BuildMode.parse` reads a mode as a user writes it, blanks around it and capitals included.
* `ModeFault` is the complaint about anything else, and about nothing.
-/

namespace OnePage

/-- How a page comes by its style sheets and scripts. -/
inductive BuildMode where
  /-- The page links to them. -/
  | reference
  /-- The page holds their contents. -/
  | inline
deriving DecidableEq

/-- Why there is no mode. -/
inductive ModeFault where
  /-- A text was given that names none. -/
  | unknown (given : Text)
  /-- Nothing was given. -/
  | missing
  /-- An option that chooses a mode was left without a value. -/
  | unset
deriving DecidableEq

/-- How messages show what was given in place of a mode. -/
def ModeFault.shown : ModeFault → Text
  | unknown given => given.quoted
  | missing => "None"
  | unset => "[]"

/-- The words for something that is no mode. -/
def ModeFault.message (fault : ModeFault) : Text :=
  "unknown build mode: " ++ fault.shown ++ " (expected reference|inline)"

namespace BuildMode

/-- All modes, in the order they are tried and named in. -/
def all : List BuildMode := [reference, inline]

/-- The word for a mode. -/
def word : BuildMode → Text
  | reference => "reference"
  | inline => "inline"

/-- The mode that was given. -/
def parse : Option Text → Except ModeFault BuildMode
  | none => .error .missing
  | some given =>
    let wanted := given.trim.toLower
    match all.find? fun mode => mode.word == wanted with
    | some mode => .ok mode
    | none => .error (.unknown given)

/-- No plain value is a mode. -/
def refuse (value : Json.Value) : Json.KindFault := ⟨"mode", "BuildMode", value.kind⟩

end BuildMode

end OnePage
