import OnePage.Site.Program

/-!
# Data and fragments

Data documents and fragments lie in a directory each, one to a file, and are known by the name of
their file without its ending. Directories inside are left alone.

* `readText` reads one file, byte for byte.
* `documents` and `fragments` read a whole directory, in the order in which it lists its files, and
  stop at the first file that cannot be used.
* `loadData` and `loadFragments` do so as part of a build.
-/

namespace OnePage

namespace Site

open Storage (Disk Path)

/-- A failure of the disk, told as one of a file that cannot be used. A path that never reached the
disk stays what it was. -/
def unreadable (purpose : Purpose) (p : Path) : Storage.Fault → Failure
  | .nul => .storage .nul
  | .unencodable fault => .storage (.unencodable fault)
  | fault => .load ⟨.unreadable purpose fault, some p⟩

/-- The text that a file's contents stand for. -/
def decode (purpose : Purpose) (p : Path) (content : Bytes) : Except Failure Text :=
  (Utf8.decode content).mapError fun fault => .load ⟨.undecodable purpose fault, some p⟩

/-- The text of a file. -/
def readText (purpose : Purpose) (disk : Disk) (p : Path) : Except Failure Text :=
  match disk.read p with
  | .ok content => decode purpose p content
  | .error fault => .error (unreadable purpose p fault)

/-- The ending of data documents. -/
def dataEnding : Text := ".json"

/-- The ending of fragments. -/
def fragmentEnding : Text := ".html"

/-- What a file is known by: its name without the ending. -/
def stem (ending name : Text) : Text := (Text.before? ending name).getD name

/-- The value of a data document in which at most `nesting` containers lie inside each other. -/
def readDocument (nesting : Nat) (disk : Disk) (p : Path) : Except Failure Json.Value := do
  let text ← readText .source disk p
  match Json.read nesting text with
  | .ok value => return value
  | .error (.malformed complaint place) => throw (.load ⟨.malformed complaint place, some p⟩)
  | .error (.digits fault) => throw (.digits fault)
  | .error (.nesting container) => throw (.nesting container)

/-- Reads files of a directory one after the other. -/
def readEach {α : Type} (read : Path → Except Failure α) (directory : Path) (ending : Text) :
    List Text → Except Failure (Keyed α)
  | [] => .ok []
  | name :: names => do
    let value ← read (directory.child name)
    let rest ← readEach read directory ending names
    return (stem ending name, value) :: rest

/-- Reads all files of a directory that have a certain ending. -/
def readAll {α : Type} (read : Path → Except Failure α) (disk : Disk) (directory : Path)
    (ending : Text) : Except Failure (Keyed α) :=
  match disk.listFiles directory ending with
  | .error fault => .error (.storage fault)
  | .ok names => readEach read directory ending names

/-- The data documents of a directory. -/
def documents (nesting : Nat) (disk : Disk) (directory : Path) :
    Except Failure (Keyed Json.Value) :=
  readAll (readDocument nesting disk) disk directory dataEnding

/-- The fragments of a directory. -/
def fragments (disk : Disk) (directory : Path) : Except Failure (Keyed Text) :=
  readAll (readText .source disk) disk directory fragmentEnding

/-- Loads the data documents of a directory. -/
def loadData (settings : Settings) (directory : Path) : Program (Keyed Json.Value) := do
  let found ← consult fun disk => documents settings.nesting disk directory
  observe settings "stores" "data.loaded"
    [("dir", directory.text), ("keys", Numeral.ofNat found.length)]
  return found

/-- Loads the fragments of a directory. -/
def loadFragments (settings : Settings) (directory : Path) : Program (Keyed Text) := do
  let found ← consult fun disk => fragments disk directory
  observe settings "stores" "fragments.loaded"
    [("dir", directory.text), ("names", Numeral.ofNat found.length)]
  return found

end Site

end OnePage
