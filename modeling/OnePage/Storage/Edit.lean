import OnePage.Storage.Access

/-!
# Edits by hand

While a program waits, its files may be changed from outside. An edit concerns one path. The
directories it lies in are made as needed, and every entry that an edit makes or needs is listed
where it was first made by hand.

* `Change` is what an edit does, and `Edit` says to which path.
* `Edit.apply` carries it out; an edit that the disk refuses changes nothing more.
-/

namespace OnePage

namespace Storage

/-- What an edit does. -/
inductive Change where
  /-- A file with these contents is there from now on, written at the given time. -/
  | file (content : Bytes) (stamp : Stamp)
  /-- A directory is there from now on. -/
  | directory
  /-- A symbolic link is there from now on. -/
  | link (target : Text)
  /-- Nothing is there any more. -/
  | remove
  /-- A directory there can be listed from now on, or not. -/
  | listable (can : Bool)
  /-- The file counts as written at the given time. -/
  | stamp (stamp : Stamp)

/-- A change from outside. -/
structure Edit where
  /-- What it concerns. -/
  path : Path
  /-- What it does. -/
  change : Change

/-- Counts what a path leads to as made by hand. -/
def pinAt (p : Path) : Operation Unit := fun disk =>
  match disk.locate p with
  | .ok location => .ok () (disk.pin location)
  | .error fault => .error fault disk

/-- Counts every directory on the way to a path as made by hand, the outermost first. -/
def pinParents (anchor : Anchor) (done : List Text) : List Text → Operation Unit
  | [] | [_] => pure ()
  | part :: parts => do
    pinAt ⟨anchor, done ++ [part]⟩
    pinParents anchor (done ++ [part]) parts

/-- Makes the directories that a path lies in, as many as there are, and counts them as made by
hand. -/
def prepareParents (p : Path) : Operation Unit := do
  ensureDirectory p.parts.length p.parent
  pinParents p.anchor [] p.parts

/-- The place of the entry that a path names. -/
def placeOf (p : Path) : Operation Location := fun disk =>
  match disk.entryPlace p with
  | .ok (some location) => .ok location disk
  | .ok none => .error (.system .busy p none) disk
  | .error fault => .error fault disk

/-- Carries an edit out. -/
def Edit.perform (edit : Edit) : Operation Unit := do
  let p := edit.path
  match edit.change with
  | .file content stamp =>
    prepareParents p
    write p content
    let location ← query fun disk => disk.locate p
    modify fun disk => (disk.putFile location content stamp).pin location
  | .directory =>
    prepareParents p
    ensureDirectory p.parts.length p
    pinAt p
  | .link target =>
    prepareParents p
    let location ← placeOf p
    modify fun disk => (disk.putLink location (entryName target)).pin location
  | .remove =>
    let location ← placeOf p
    modify fun disk => disk.remove location
  | .listable can =>
    let location ← query fun disk => disk.locate p
    modify fun disk => disk.setListable can location
  | .stamp stamp =>
    let location ← query fun disk => disk.locate p
    modify fun disk => match disk.node? location with
      | some (.file content _) => disk.putFile location content stamp
      | _ => disk

/-- The disk after an edit. -/
def Edit.apply (edit : Edit) (disk : Disk) : Disk :=
  match edit.perform disk with
  | .ok _ disk | .error _ disk => disk

/-- The disk after some edits, one after the other. -/
def Disk.edit (disk : Disk) (edits : List Edit) : Disk :=
  edits.foldl (fun disk edit => edit.apply disk) disk

/-! ## Taking stock -/

mutual

/-- Everything below a node, with the path it has if the node's is `p`. -/
def Node.inventory (p : Path) : Node → List (Path × Node)
  | .directory entries => inventoryOf p entries
  | _ => []

/-- Everything that the entries of a directory stand for and all below it. -/
def inventoryOf (p : Path) : List (Entry Node) → List (Path × Node)
  | [] => []
  | e :: entries => entryInventory p e ++ inventoryOf p entries

/-- What an entry stands for and everything below it. -/
def entryInventory (p : Path) : Entry Node → List (Path × Node)
  | ⟨name, _, node⟩ => (p.child name, node) :: node.inventory (p.child name)

end

/-- Everything below the directory that a path leads to, in the order of the texts of the paths. -/
def Disk.inventory (disk : Disk) (p : Path) : Except Fault (List (Text × Node)) :=
  match disk.find p with
  | .error fault => .error fault
  | .ok (.directory entries) =>
    let found := (inventoryOf p entries).map fun (q, node) => (q.text, node)
    .ok (found.mergeSort fun a b => Text.le a.1 b.1)
  | .ok _ => .error (.system .notDirectory p none)

end Storage

end OnePage
