import OnePage.Storage.Access

/-!
# Writing a file in one step

A text is first written to a new file beside the one it is meant for, and that file then takes the
place of the other. Whoever reads the path meanwhile sees the old contents or the new ones, and
never a part. When anything fails, the new file is removed again.

* `temporaryName` is a name that is not yet taken.
* `moveOnto` lets a file take another place.
* `writeAtomically` puts the steps together.
-/

namespace OnePage

namespace Storage

/-- The `n`-th text to try between the name of a file and the ending of a temporary file. -/
def filling : Nat → Text
  | 0 => List.replicate 8 (CodePoint.ofChar 'X')
  | n + 1 =>
    let digits := Numeral.ofNat (n + 1)
    List.replicate (8 - digits.length) (CodePoint.ofChar '0') ++ digits

/-- The name of a temporary file beside the file `name`. -/
def temporaryNameWith (name filling : Text) : Text := "." ++ name ++ "." ++ filling ++ ".tmp"

/-- A name for a temporary file that is none of the names already taken: of one candidate more than
there are names, the first that is free. -/
def temporaryName (taken : List Text) (name : Text) : Text :=
  let candidates := (List.range (taken.length + 1)).map fun n => temporaryNameWith name (filling n)
  (candidates.find? fun candidate => entryName candidate ∉ taken).getD
    (temporaryNameWith name (filling 0))

/-- The names in the directory that a path leads to, whether or not they can be listed. -/
def namesIn (disk : Disk) (directory : Path) : List Text :=
  match disk.locate directory with
  | .ok location => disk.children location
  | .error _ => []

/-- Makes a file where there is nothing, and says where it is. -/
def createNew (p : Path) : Operation Location := fun disk =>
  match disk.entryPlace p with
  | .error fault => .error fault disk
  | .ok none => .error (.system .alreadyThere p none) disk
  | .ok (some location) =>
    match disk.node? location with
    | some _ => .error (.system .alreadyThere p none) disk
    | none => .ok location (disk.putFile location [] disk.nextStamp)

/-- A fault of one of two paths, told as a fault of both. -/
def Fault.withTarget (source target : Path) : Fault → Fault
  | .system errno _ _ => .system errno source (some target)
  | fault => fault

/-- Lets the file at a location, which `source` leads to, take the place of what `target` names. A
directory is not replaced, and a link is replaced itself. -/
def moveOnto (location : Location) (source target : Path) : Operation Unit := fun disk =>
  match disk.entryPlace target with
  | .error fault => .error (fault.withTarget source target) disk
  | .ok none => .error (.system .busy source (some target)) disk
  | .ok (some place) =>
    match disk.node? place, disk.node? location with
    | some (.directory _), _ => .error (.system .isDirectory source (some target)) disk
    | _, some (.file content stamp) =>
      .ok () ((disk.remove location).putFile place content stamp)
    | _, _ => .error (.system .noEntry source (some target)) disk

/-- Writes a text to a path in one step; the directories it lies in are made first. -/
def writeAtomically (chain : Nat) (p : Path) (text : Text) : Operation Unit := do
  ensureDirectory chain p.parent
  let disk ← get
  let directory := p.parent.absolute disk.here
  let temporary := directory.child (temporaryName (namesIn disk directory) p.name)
  let location ← createNew temporary
  try
    match Utf8.encode text with
    | .error fault => throw (.unencodable fault)
    | .ok content =>
      modify fun disk => disk.putFile location content disk.nextStamp
      moveOnto location temporary p
  catch fault =>
    modify fun disk => disk.remove location
    throw fault

end Storage

end OnePage
