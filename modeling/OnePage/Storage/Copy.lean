import OnePage.Storage.Access

/-!
# Copying a tree

* `copyFile` copies what one path leads to onto another.
* `copyEntries` goes through the entries of one directory in the order in which they are listed:
  files are copied, directories are made and left for later.
* `copyTree` copies the files of a directory, then those of its last subdirectory with all that lies
  below it, then those of the one before, and so on. A path has at most `pathLimit` bytes, so it
  never goes deeper than that.
-/

namespace OnePage

namespace Storage

/-- Writes onto a path. That it leads to a directory is told differently if there is nothing: then
it ends at a link with a slash at its end. -/
def writeOnto (p : Path) (content : Bytes) : Operation Unit := fun disk =>
  match write p content disk with
  | .error (.system .isDirectory q target) disk =>
    match disk.find p with
    | .ok _ => .error (.system .isDirectory q target) disk
    | .error _ => .error (.noDirectory p) disk
  | result => result

/-- Copies the contents of a file onto a path. -/
def copyFile (source target : Path) : Operation Unit := fun disk =>
  match source.fault?, target.fault? with
  | some .nul, _ | _, some .nul => .error .nul disk
  | _, _ =>
    let same := match disk.locate source, disk.locate target with
      | .ok here, .ok there => here = there && (disk.node? here).isSome
      | _, _ => false
    if same then .error (.sameFile source target) disk
    else match disk.read source with
      | .error fault => .error fault disk
      | .ok content => writeOnto target content disk

/-- Copies the entries with the given names from one directory into another. The result is the
number of files copied and the pairs of directories that are left, in the order of the names. -/
def copyEntries (chain : Nat) (source target : Path) :
    List Text → Operation (Nat × List (Path × Path))
  | [] => pure (0, [])
  | name :: names => do
    let entry := source.child name
    let copy := target.child name
    if ← query fun disk => disk.isDirectory entry then
      ensureDirectory chain copy
      let (copied, left) ← copyEntries chain source target names
      return (copied, (entry, copy) :: left)
    else
      copyFile entry copy
      let (copied, left) ← copyEntries chain source target names
      return (copied + 1, left)

/-- Copies pairs of directories one after the other, each with all that lies below it before the
next; `deeper` copies the directories found in one of them. -/
def copyPairs (chain : Nat) (deeper : List (Path × Path) → Operation Nat) :
    List (Path × Path) → Operation Nat
  | [] => pure 0
  | (source, target) :: pairs => do
    let names ← query fun disk => disk.list source
    let (copied, left) ← copyEntries chain source target names
    let below ← deeper left.reverse
    let rest ← copyPairs chain deeper pairs
    return copied + below + rest

/-- Copies pairs of directories with all that lies at most `room` directories below them. -/
def copyLevels (chain : Nat) : (room : Nat) → List (Path × Path) → Operation Nat
  | 0 => copyPairs chain fun
    | [] => pure 0
    | (source, _) :: _ => fail (.system .nameTooLong source none)
  | room + 1 => copyPairs chain (copyLevels chain room)

/-- Copies everything below `source` to the same place below `target`, and counts the files. What is
no directory is not copied at all. -/
def copyTree (chain : Nat) (source target : Path) : Operation Nat := do
  if ← query fun disk => disk.isDirectory source then
    ensureDirectory chain target
    copyLevels chain (pathLimit + 1) [(source, target)]
  else return 0

end Storage

end OnePage
