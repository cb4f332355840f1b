import OnePage.Storage.Node

/-!
# The disk

The disk is the directory at the root with all that lies below it, together with the directory that
relative paths start from. That names are valid and distinct everywhere is part of the type. Some
directories may be fleeting: they are there as long as nobody tries to list them.

* `Location` is a place on the disk: the names that lead to it, the innermost first.
* `Disk.node?` is what lies at a location. This view is all that the operations on single paths see.
* `Disk.put`, `Disk.remove`, `Disk.pin` and `Disk.setListable` are the changes that everything
  else is made of.
* `Trail` is a location with what lies at each step of the way to it, for those who go there and
  back again step by step; `Disk.trail` agrees with `Disk.node?`.
-/

namespace OnePage

namespace Storage

/-- A place on the disk: the names that lead to it from the root, the innermost first. -/
abbrev Location := List Text

/-- The root directory with all that lies below it, and the directory relative paths start from. -/
structure Disk where
  /-- The entries of the root directory. -/
  entries : Entries
  /-- The working directory. -/
  here : Location
  /-- Where a directory disappears as soon as one tries to list it. -/
  fleeting : List Location
  /-- How many changes there have been. -/
  ticks : Nat
  /-- Everywhere names are valid and distinct. -/
  sound : entries.Sound

/-- What the entry of a name in a directory stands for; what is no directory has no entries. -/
def Node.child? (name : Text) : Node → Option Node
  | directory entries => Entries.find? entries name
  | _ => none

namespace Disk

/-! ## Looking -/

/-- A disk with nothing on it. -/
def empty : Disk := ⟨[], [], [], 0, .nil⟩

/-- The root directory. -/
def root (disk : Disk) : Node := .directory disk.entries

/-- What lies at a location. -/
def node? (disk : Disk) : Location → Option Node
  | [] => some disk.root
  | name :: parent => (disk.node? parent).bind (Node.child? name)

/-- The stamp of the next write. -/
def nextStamp (disk : Disk) : Stamp := .fresh disk.ticks

/-- The names in a directory, in the order in which it lists them. -/
def children (disk : Disk) (location : Location) : List Text :=
  match disk.node? location with
  | some (.directory entries) => Entries.listed entries
  | _ => []

/-! ## Changing -/

/-- The disk after a change in the directory at a location. -/
def change (disk : Disk) (directory : Location) (act : Entries → Entries)
    (keeps : ∀ {entries : Entries}, entries.Sound → (act entries).Sound) : Disk :=
  { disk with
    entries := disk.entries.within act directory.reverse
    ticks := disk.ticks + 1
    sound := .within keeps directory.reverse disk.sound }

/-- The disk after `node` has been put at a location. Nothing happens unless the location has a
valid name and lies in a directory. What was there before is replaced with all that lies below
it. -/
def put (disk : Disk) (location : Location) (node : Node) (sound : node.Sound) : Disk :=
  match location with
  | [] => disk
  | name :: parent =>
    if valid : validName name then
      disk.change parent (Entries.put name node) fun entries => entries.put valid sound
    else disk

/-- The disk with a file at a location. -/
def putFile (disk : Disk) (location : Location) (content : Bytes) (stamp : Stamp) : Disk :=
  disk.put location (.file content stamp) (.file content stamp)

/-- The disk with an empty directory at a location. -/
def putDirectory (disk : Disk) (location : Location) : Disk :=
  disk.put location (.directory []) (Node.sound_directory.2 .nil)

/-- The disk with a link at a location. -/
def putLink (disk : Disk) (location : Location) (target : Text) : Disk :=
  disk.put location (.link target) (.link target)

/-- The disk without what lies at a location and below it. -/
def remove (disk : Disk) : Location → Disk
  | [] => disk
  | name :: parent => disk.change parent (Entries.erase name) fun sound => sound.erase name

/-- The disk with the entry at a location counted as made by hand now, unless it already was. -/
def pin (disk : Disk) : Location → Disk
  | [] => disk
  | name :: parent =>
    disk.change parent (Entries.pin name disk.ticks) fun sound => sound.pin name disk.ticks

/-- The disk on which a directory at a location can be listed, or cannot, until this is set
again. -/
def setListable (disk : Disk) (can : Bool) (location : Location) : Disk :=
  let others := disk.fleeting.filter (· ≠ location)
  { disk with fleeting := if can then others else location :: others }

end Disk

/-! ## Going step by step -/

/-- A location, innermost name first, with what lies there and at every step on the way. -/
abbrev Trail := List (Text × Option Node)

namespace Trail

/-- The location that a trail ends at. -/
def location (trail : Trail) : Location := trail.map (·.1)

/-- What lies where a trail ends, the trail having begun at `root`. -/
def node? (root : Node) : Trail → Option Node
  | [] => some root
  | (_, node) :: _ => node

/-- The trail that goes on to an entry. -/
def step (root : Node) (trail : Trail) (name : Text) : Trail :=
  (name, (trail.node? root).bind (Node.child? name)) :: trail

end Trail

namespace Disk

/-- The trail to a location. -/
def trail (disk : Disk) : Location → Trail
  | [] => []
  | name :: parent => (disk.trail parent).step disk.root name

theorem location_trail (disk : Disk) (location : Location) :
    (disk.trail location).location = location := by
  induction location with
  | nil => rfl
  | cons name parent ih =>
    simp only [Trail.location] at ih
    simp [trail, Trail.step, Trail.location, ih]

theorem node?_trail (disk : Disk) (location : Location) :
    (disk.trail location).node? disk.root = disk.node? location := by
  induction location with
  | nil => rfl
  | cons name parent ih => simp [trail, Trail.step, Trail.node?, node?, ← ih]

end Disk

end Storage

end OnePage
