import OnePage.Decimal.Exact
import OnePage.Json.Value
import OnePage.Storage.Name
import OnePage.Storage.Path

/-!
# Files, links and directories

A directory holds entries, each with a name and what it stands for: a file, a link or a directory in
its turn. Everything that lies below a directory is therefore part of it.

* `Node` is what an entry stands for, and `Entries` are the entries of one directory in the order in
  which they were made.
* `Entries.put`, `Entries.erase` and `Entries.pin` are the changes to one directory, and
  `Entries.within` carries a change out in a directory further down.
* `Entries.Sound` says that names are what names may be and that no directory has two entries of one
  name. Every change keeps it so (`Entries.Sound.put` and the lemmas after it).
* `Entries.listed` is the order in which a directory lists its entries. Those made by hand come
  first, in the order in which they were made; those that programs made follow in the order of their
  names.
-/

namespace OnePage

namespace Storage

/-! ## What an entry stands for -/

/-- When a file was written. -/
inductive Stamp where
  /-- At a time set by hand. -/
  | given (time : Json.Number)
  /-- At a time of its own: the `n`-th write of a program. -/
  | fresh (n : Nat)
deriving DecidableEq

/-- The stamp for a time set by hand; a double that is a whole number counts as that number, so that
equal times have equal stamps. -/
def Stamp.ofNumber : Json.Number → Stamp
  | .whole n => .given (.whole n)
  | .real x =>
    match (Decimal.Exact.ofFloat x).truncate with
    | .ok n => if Float.ofInt n == x then .given (.whole n) else .given (.real x)
    | .error _ => .given (.real x)

/-- An entry of a directory. -/
structure Entry (α : Type) where
  /-- What it is called. -/
  name : Text
  /-- Which of the edits by hand made it, if one did. -/
  made : Option Nat
  /-- What it stands for. -/
  node : α

/-- What an entry stands for. -/
inductive Node where
  /-- A file with its contents. -/
  | file (content : Bytes) (stamp : Stamp)
  /-- A directory with its entries. -/
  | directory (entries : List (Entry Node))
  /-- A symbolic link with the path it leads to. -/
  | link (target : Text)

/-- The entries of a directory. -/
abbrev Entries := List (Entry Node)

/-- Whether an entry stands for a directory. -/
def Node.isDirectory : Node → Bool
  | directory _ => true
  | _ => false

/-! ## Changes -/

namespace Entries

/-- What the entry of a name stands for. -/
def find? (entries : Entries) (name : Text) : Option Node :=
  (List.find? (fun e => e.name = name) entries).map Entry.node

/-- The entries with every one of a name changed; there is at most one. -/
def update (name : Text) (change : Entry Node → Entry Node) (entries : Entries) : Entries :=
  entries.map fun e => if e.name = name then change e else e

/-- The entries after `name` has come to stand for `node`: in its old place if it was there, and
otherwise at the end. -/
def put (name : Text) (node : Node) (entries : Entries) : Entries :=
  if (entries.find? name).isSome then entries.update name fun e => { e with node }
  else entries ++ [⟨name, none, node⟩]

/-- The entries without the one of a name. -/
def erase (name : Text) (entries : Entries) : Entries := entries.filter fun e => e.name ≠ name

/-- The entries with the one of a name counted as made by an edit, unless it already was. -/
def pin (name : Text) (edit : Nat) (entries : Entries) : Entries :=
  entries.update name fun e => { e with made := e.made.or (some edit) }

/-- The entries after a change in the directory that a path of names leads to, outermost name first.
Nothing happens if it leads to none. -/
def within (change : Entries → Entries) : List Text → Entries → Entries
  | [], entries => change entries
  | name :: path, entries =>
    entries.update name fun e =>
      match e.node with
      | .directory below => { e with node := .directory (within change path below) }
      | _ => e

end Entries

/-! ## Sound directories -/

/-- A name has at most this many bytes. -/
def nameLimit : Nat := 255

/-- Whether an entry can have this name, and is shown with it. -/
def validName (name : Text) : Bool :=
  name ≠ [] && name ≠ dot && name ≠ dotDot && slash ∉ name && CodePoint.ofNat 0 ∉ name &&
    entryName name = name && byteLength name ≤ nameLimit

/-- **Sound nodes.** In every directory names are valid and each is there at most once. -/
inductive Node.Sound : Node → Prop
  /-- A file is sound. -/
  | file (content : Bytes) (stamp : Stamp) : Node.Sound (.file content stamp)
  /-- A link is sound. -/
  | link (target : Text) : Node.Sound (.link target)
  /-- A directory is sound if its entries are. -/
  | directory (entries : Entries)
      (distinct : (entries.map Entry.name).Nodup)
      (valid : ∀ e ∈ entries, validName e.name)
      (below : ∀ e ∈ entries, Node.Sound e.node) : Node.Sound (.directory entries)

/-- Sound entries: those of a sound directory. -/
structure Entries.Sound (entries : Entries) : Prop where
  /-- No two entries share a name. -/
  distinct : (entries.map Entry.name).Nodup
  /-- Every name is valid. -/
  valid : ∀ e ∈ entries, validName e.name
  /-- What the entries stand for is sound. -/
  below : ∀ e ∈ entries, e.node.Sound

theorem Node.sound_directory {entries : Entries} :
    (Node.directory entries).Sound ↔ Entries.Sound entries := by
  constructor
  · intro sound
    cases sound with
    | directory _ distinct valid below => exact ⟨distinct, valid, below⟩
  · intro sound
    exact .directory _ sound.distinct sound.valid sound.below

namespace Entries.Sound

/-- No entries are sound. -/
theorem nil : Entries.Sound [] := ⟨List.nodup_nil, by simp, by simp⟩

/-- A change of single entries keeps them sound if it keeps names and what they stand for sound. -/
theorem update {entries : Entries} (sound : entries.Sound) (name : Text)
    {change : Entry Node → Entry Node} (same : ∀ e, (change e).name = e.name)
    (keeps : ∀ e, e.node.Sound → (change e).node.Sound) : (entries.update name change).Sound := by
  have names : (entries.update name change).map Entry.name = entries.map Entry.name := by
    rw [Entries.update, List.map_map]
    refine List.map_congr_left fun e _ => ?_
    by_cases here : e.name = name <;> simp [here, same]
  refine ⟨names ▸ sound.distinct, fun e mem => ?_, fun e mem => ?_⟩
  · have mem := List.mem_map_of_mem (f := Entry.name) mem
    rw [names] at mem
    obtain ⟨old, mem_old, same_name⟩ := List.mem_map.1 mem
    exact same_name ▸ sound.valid old mem_old
  · obtain ⟨old, mem_old, rfl⟩ := List.mem_map.1 mem
    split
    · exact keeps old (sound.below old mem_old)
    · exact sound.below old mem_old

theorem put {entries : Entries} (sound : entries.Sound) {name : Text} (valid : validName name)
    {node : Node} (sound_node : node.Sound) : (entries.put name node).Sound := by
  rw [Entries.put]
  split
  · exact sound.update name (fun _ => rfl) fun _ _ => sound_node
  · next free =>
    have absent : ∀ e ∈ entries, e.name ≠ name := by
      simpa [Entries.find?, List.find?_eq_none] using free
    refine ⟨?_, fun e mem => ?_, fun e mem => ?_⟩
    · rw [List.map_append, List.nodup_append]
      refine ⟨sound.distinct, by simp, fun other mem => ?_⟩
      obtain ⟨e, mem_e, rfl⟩ := List.mem_map.1 mem
      simpa using absent e mem_e
    · rcases List.mem_append.1 mem with mem | mem
      · exact sound.valid e mem
      · rw [List.mem_singleton.1 mem]
        exact valid
    · rcases List.mem_append.1 mem with mem | mem
      · exact sound.below e mem
      · rw [List.mem_singleton.1 mem]
        exact sound_node

theorem erase {entries : Entries} (sound : entries.Sound) (name : Text) :
    (entries.erase name).Sound :=
  ⟨sound.distinct.sublist (List.filter_sublist.map _),
    fun e mem => sound.valid e (List.mem_filter.1 mem).1,
    fun e mem => sound.below e (List.mem_filter.1 mem).1⟩

theorem pin {entries : Entries} (sound : entries.Sound) (name : Text) (edit : Nat) :
    (entries.pin name edit).Sound :=
  sound.update name (fun _ => rfl) fun _ sound => sound

theorem within {change : Entries → Entries}
    (keeps : ∀ {entries : Entries}, entries.Sound → (change entries).Sound) (path : List Text)
    {entries : Entries} (sound : entries.Sound) : (entries.within change path).Sound := by
  induction path generalizing entries with
  | nil => exact keeps sound
  | cons name path ih =>
    refine sound.update name (fun e => ?_) fun e sound => ?_
    · split <;> rfl
    · split
      · next below shape =>
        rw [shape, Node.sound_directory] at sound
        exact Node.sound_directory.2 (ih sound)
      · exact sound

end Entries.Sound

/-! ## Listing -/

namespace Entries

/-- Whether one entry is listed before another: those made by hand in the order of the edits that
made them, then the others by name. -/
def listedBefore (a b : Entry Node) : Bool :=
  match a.made, b.made with
  | some m, some n => m ≤ n
  | some _, none => true
  | none, some _ => false
  | none, none => Text.le a.name b.name

/-- The names of the entries, in the order in which their directory lists them. -/
def listed (entries : Entries) : List Text := (entries.mergeSort listedBefore).map Entry.name

end Entries

end Storage

end OnePage
