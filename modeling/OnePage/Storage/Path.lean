import OnePage.Text.Quoted
import OnePage.Text.Utf8

/-!
# Paths

A path is kept in the form in which it is shown: single slashes, no `.` and no slash at the end.
Steps up stay where they are, because a link may lie before them.

* `Path.parse` brings a text into that form, and `Path.text` is the form as a text.
* `Path.join` goes on from a path, or starts over at an absolute one; `Path.child` adds one name.
* `Path.name` and `Path.parent` are the last part and everything before it.
* `Path.absolute` resolves steps up by their names alone, starting from a directory's own names.
-/

namespace OnePage

namespace Storage

/-- The slash that separates the parts of a path. -/
def slash : CodePoint := CodePoint.ofChar '/'

/-- The name of the directory one is in. -/
def dot : Text := "."

/-- The name of the directory above. -/
def dotDot : Text := ".."

/-- What a path begins with. -/
inductive Anchor where
  /-- Nothing: the path starts at the working directory. -/
  | here
  /-- One slash. -/
  | root
  /-- Two slashes, which lead to the root all the same. -/
  | doubleRoot
deriving DecidableEq

/-- The slashes of an anchor. -/
def Anchor.text : Anchor → Text
  | here => []
  | root => [slash]
  | doubleRoot => [slash, slash]

/-- A path in the form in which it is shown. -/
structure Path where
  /-- What it begins with. -/
  anchor : Anchor
  /-- Its parts in order. -/
  parts : List Text
deriving DecidableEq

namespace Path

/-- The parts of a text: what stands between slashes, without empty parts and single dots. -/
def partsOf (text : Text) : List Text :=
  (Text.splitOn slash text).filter fun part => part ≠ [] ∧ part ≠ dot

/-- The path that a text shows. Two slashes at its beginning are kept, more count as one. -/
def parse (text : Text) : Path where
  anchor := match (text.takeWhile (· = slash)).length with
    | 0 => .here
    | 2 => .doubleRoot
    | _ => .root
  parts := partsOf text

/-- The text of a path; the path without anchor and parts is a single dot. -/
def text (p : Path) : Text :=
  match p.anchor, p.parts with
  | .here, [] => dot
  | anchor, parts => anchor.text ++ Text.join [slash] parts

/-- The path that goes on with `text`, unless that is absolute and starts over. -/
def join (p : Path) (text : Text) : Path :=
  let q := parse text
  match q.anchor with
  | .here => { p with parts := p.parts ++ q.parts }
  | _ => q

/-- The path of an entry of a directory. -/
def child (p : Path) (name : Text) : Path := { p with parts := p.parts ++ [name] }

/-- The last part, which is empty for a path without parts. -/
def name (p : Path) : Text := p.parts.getLast?.getD []

/-- The path without its last part. -/
def parent (p : Path) : Path := { p with parts := p.parts.dropLast }

/-- The path from a path to one below it. -/
def relativeTo (root p : Path) : Text := Text.join [slash] (p.parts.drop root.parts.length)

/-- The names that remain when every step up takes away the name before it, innermost first. -/
def collapse (names : List Text) (parts : List Text) : List Text :=
  parts.foldl (fun names part => if part = dotDot then names.tail else part :: names) names

/-- The absolute path with no step up in it; `here` names the working directory, innermost name
first. -/
def absolute (here : List Text) (p : Path) : Path :=
  match p.anchor with
  | .here => ⟨.root, (collapse here p.parts).reverse⟩
  | anchor => ⟨anchor, (collapse [] p.parts).reverse⟩

/-- How a path is shown in a message. -/
def quoted (p : Path) : Text := p.text.quoted

end Path

end Storage

end OnePage
