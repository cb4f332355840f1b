import OnePage.Storage.Resolve

/-!
# Single files and directories

* `Disk.read`, `Disk.list` and `Disk.listFiles` look at the disk and leave it as it is.
* An `Operation` may change it, and keeps what it has changed when it fails.
* `write` makes a file or replaces its contents, links followed.
* `makeDirectory` makes one directory, and `ensureDirectory` a directory with all that it lies in,
  unless more are missing than can be made at once. How many that are depends on how deep calls may
  nest, and `usualChain` is what is left to a program that is called from nowhere deep.
-/

namespace OnePage

namespace Storage

/-- Something that looks at the disk and may change it. -/
abbrev Operation (α : Type) := EStateM Fault Disk α

/-- An operation that only looks at the disk. -/
def query {α : Type} (look : Disk → Except Fault α) : Operation α := fun disk =>
  match look disk with
  | .ok a => .ok a disk
  | .error fault => .error fault disk

/-- An operation that only fails. -/
def fail {α : Type} (fault : Fault) : Operation α := fun disk => .error fault disk

namespace Disk

/-- The contents of the file that a path leads to. -/
def read (disk : Disk) (p : Path) : Except Fault Bytes :=
  match disk.find p with
  | .ok (.file content _) => .ok content
  | .ok _ => .error (.system .isDirectory p none)
  | .error fault => .error fault

/-- The names in the directory that a path leads to. -/
def list (disk : Disk) (p : Path) : Except Fault (List Text) :=
  match disk.follow false p p.parts with
  | .error fault => .error fault
  | .ok trail =>
    match trail.node? disk.root with
    | some (.directory entries) =>
      if trail.location ∈ disk.fleeting then .error (.system .noEntry p none)
      else .ok (Entries.listed entries)
    | some _ => .error (.system .notDirectory p none)
    | none => .error (.system .noEntry p none)

/-- Those of some names in a directory that end with `ending` and lead to a file. -/
def filesAmong (disk : Disk) (directory : Path) (ending : Text) :
    List Text → Except Fault (List Text)
  | [] => .ok []
  | name :: names => do
    let wanted ← if ending.isSuffixOf name then disk.isFile (directory.child name) else .ok false
    let rest ← filesAmong disk directory ending names
    return if wanted then name :: rest else rest

/-- The names in a directory that end with `ending` and lead to a file, in the order in which the
directory lists them. What is no directory has none. -/
def listFiles (disk : Disk) (directory : Path) (ending : Text) : Except Fault (List Text) := do
  if ← disk.isDirectory directory then
    disk.filesAmong directory ending (← disk.list directory)
  else return []

end Disk

/-! ## Changes -/

/-- Puts contents into the file that a path leads to; a file that is not there yet is made. -/
def write (p : Path) (content : Bytes) : Operation Unit := fun disk =>
  match disk.locateNew p with
  | .error fault => .error fault disk
  | .ok location =>
    match disk.node? location with
    | some (.directory _) => .error (.system .isDirectory p none) disk
    | _ => .ok () (disk.putFile location content disk.nextStamp)

/-- Makes a directory where there is nothing. -/
def makeDirectory (p : Path) : Operation Unit := fun disk =>
  match disk.entryPlace p with
  | .error fault => .error fault disk
  | .ok none => .error (.system .alreadyThere p none) disk
  | .ok (some location) =>
    match disk.node? location with
    | some _ => .error (.system .alreadyThere p none) disk
    | none => .ok () (disk.putDirectory location)

/-- Makes a directory, unless that fails and the path leads to one already. That the directory it
would lie in is missing is a fault in any case. -/
def makeUnlessThere (p : Path) : Operation Unit := fun disk =>
  match makeDirectory p disk with
  | .error (.system .noEntry p target) disk => .error (.system .noEntry p target) disk
  | .error (.system errno q target) disk =>
    match disk.isDirectory p with
    | .ok true => .ok () disk
    | .ok false => .error (.system errno q target) disk
    | .error fault => .error fault disk
  | result => result

/-- Makes the directory with the given parts, innermost first, together with all that it lies in, at
most `room` directories in all. -/
def ensureParts (anchor : Anchor) : (room : Nat) → (inner : List Text) → Operation Unit
  | 0, _ => fail .tooDeep
  | _ + 1, [] => makeUnlessThere ⟨anchor, []⟩
  | room + 1, name :: outer => fun disk =>
    let p : Path := ⟨anchor, (name :: outer).reverse⟩
    match makeUnlessThere p disk with
    | .error (.system .noEntry _ _) disk =>
      match ensureParts anchor room outer disk with
      | .ok () disk => makeUnlessThere p disk
      | .error fault disk => .error fault disk
    | result => result

/-- Makes a directory together with all that it lies in, as far as they are not there already; of
those at most `chain`. -/
def ensureDirectory (chain : Nat) (p : Path) : Operation Unit :=
  ensureParts p.anchor (chain + 1) p.parts.reverse

/-- So many directories that another one lies in can be made along with it if calls nest a thousand
deep. -/
def usualChain : Nat := 988

end Storage

end OnePage
