import OnePage.Proofs.Storage.Tree
import Mathlib.Data.Set.Card

/-!
# What a disk holds

Whoever compares two trees of files looks at the bytes in the files, at the targets of links and at
which locations are directories.  The order in which names are listed and the times of writing are
left out of that.

* `Content` is what a location holds in this sense, and `Disk.content?` is what it holds on a disk.
* **`Disk.content?_put`** — putting a file or an empty directory somewhere changes what that
  location holds, and nothing else.
* `Disk.mem_children_iff` and `Disk.list_of_hasDirectory` — the names in a directory are those where
  something is held.
* `Disk.isDirectory_eq`, `Disk.isFile_eq` and `Disk.read_eq` — what is found at a path depends on
  where it leads and on what is held there.
* `SameContents` — two disks hold the same everywhere.  If they have no links, paths lead to the
  same places on them.
* `Disk.fileCount` — the number of files at a location and below it; `Disk.fileCount_of_names` adds
  it up over the names in a directory.
-/

namespace OnePage

namespace Storage

/-- What a location holds. -/
inductive Content where
  /-- A file with its bytes. -/
  | file (bytes : Bytes)
  /-- A directory. -/
  | directory
  /-- A symbolic link with the path it leads to. -/
  | link (target : Text)
deriving DecidableEq

/-- What is held where something shows. -/
def Face.content : Face → Content
  | file bytes _ => .file bytes
  | directory _ => .directory
  | link target => .link target

namespace Disk

variable {disk old new : Disk} {l place : Location} {p : Path}

/-- What a location holds, if anything. -/
def content? (disk : Disk) (l : Location) : Option Content := (disk.face? l).map Face.content

lemma content?_of_face? (h : new.face? l = old.face? l) : new.content? l = old.content? l := by
  rw [content?, content?, h]

lemma content?_eq_none_iff : disk.content? l = none ↔ disk.node? l = none := by
  rw [content?, Option.map_eq_none_iff, face?_eq_none]

lemma content?_eq_directory_iff : disk.content? l = some .directory ↔ disk.HasDirectory l := by
  rw [content?, HasDirectory]
  cases disk.face? l with
  | none => simp
  | some face => cases face <;> simp [Face.content]

lemma content?_eq_file_iff {bytes : Bytes} :
    disk.content? l = some (.file bytes) ↔ ∃ stamp, disk.face? l = some (.file bytes stamp) := by
  rw [content?]
  cases disk.face? l with
  | none => simp
  | some face => cases face <;> simp [Face.content, eq_comm]

lemma content?_eq_link_iff {target : Text} :
    disk.content? l = some (.link target) ↔ disk.face? l = some (.link target) := by
  rw [content?]
  cases disk.face? l with
  | none => simp
  | some face => cases face <;> simp [Face.content]

/-- On a disk without links a location holds nothing, a file or a directory. -/
lemma Linkless.content?_cases (h : disk.Linkless) (l : Location) :
    disk.content? l = none ∨ disk.content? l = some .directory ∨
      ∃ bytes, disk.content? l = some (.file bytes) := by
  cases hcontent : disk.content? l with
  | none => exact .inl rfl
  | some content =>
    cases content with
    | file bytes => exact .inr (.inr ⟨bytes, rfl⟩)
    | directory => exact .inr (.inl rfl)
    | link target => exact absurd ⟨target, content?_eq_link_iff.1 hcontent⟩ (h l)

/-- Nothing is held below what is no directory. -/
lemma content?_append_eq_none {inner : Location} (hinner : inner ≠ [])
    (h : ¬ disk.HasDirectory l) : disk.content? (inner ++ l) = none :=
  content?_eq_none_iff.2 (node?_append_eq_none hinner h)

/-- What lies in between is a directory. -/
lemma hasDirectory_of_content?_append {inner : Location} (hinner : inner ≠ [])
    (h : disk.content? (inner ++ l) ≠ none) : disk.HasDirectory l :=
  not_not.1 fun hnot => h (content?_append_eq_none hinner hnot)

/-- What a directory lies in is a directory. -/
lemma hasDirectory_of_append {inner : Location} (h : disk.HasDirectory (inner ++ l)) :
    disk.HasDirectory l := by
  by_cases hinner : inner = []
  · simpa [hinner] using h
  · exact hasDirectory_of_content?_append hinner (by simp [content?_eq_directory_iff.2 h])

section Put

variable {name : Text} {parent : Location} {node : Node} {hnode : node.Sound}
  (hvalid : validName name) (hparent : disk.HasDirectory parent)
  (hfree : ¬ disk.HasDirectory (name :: parent)) (hempty : ∀ name, node.child? name = none)

include hvalid hparent hfree hempty

/-- Putting a file or an empty directory where no directory was changes what shows there and in the
directory it lies in, and nothing else. -/
lemma face?_put_of_ne (hl : l ≠ name :: parent) (hne : l ≠ parent) :
    (disk.put (name :: parent) node hnode).face? l = disk.face? l := by
  by_cases hsuffix : name :: parent <:+ l
  · -- nothing lies below, neither before nor afterwards
    obtain ⟨inner, rfl⟩ := hsuffix
    have hinner : inner ≠ [] := by
      rintro rfl
      exact hl rfl
    rw [face?_eq_none.2 (node?_append_eq_none hinner hfree), face?_put_below hvalid hparent,
      Node.descend_eq_none hempty (by simpa using hinner), Option.map_none]
  · exact face?_put_of_not_suffix hsuffix hne

/-- **Putting something somewhere** changes what that location holds, and nothing else. -/
lemma content?_put (l : Location) : (disk.put (name :: parent) node hnode).content? l =
    if l = name :: parent then some node.face.content else disk.content? l := by
  by_cases hl : l = name :: parent
  · rw [if_pos hl, hl, content?, face?_put hvalid hparent, Option.map_some]
  · rw [if_neg hl]
    by_cases hsame : l = parent
    · rw [hsame, content?_eq_directory_iff.2 hparent]
      exact content?_eq_directory_iff.2 (hasDirectory_put_parent_iff.2 hparent)
    · exact content?_of_face? (face?_put_of_ne hvalid hparent hfree hempty hl hsame)

end Put

/-! ## The names in a directory -/

/-- A name is among those of a directory if something is there. -/
lemma mem_children_iff {name : Text} :
    name ∈ disk.children l ↔ disk.content? (name :: l) ≠ none := by
  rw [ne_eq, content?_eq_none_iff, children, node?]
  cases disk.node? l with
  | none => simp
  | some node =>
    cases node with
    | directory entries =>
      simp [Entries.listed, Node.child?, Entries.find?, List.find?_eq_none]
    | _ => simp [Node.child?]

lemma nodup_children (disk : Disk) (l : Location) : (disk.children l).Nodup := by
  rw [children]
  split
  · next entries hentries =>
    have hsound : Entries.Sound entries := Node.sound_directory.1 (disk.sound_node? hentries)
    have hperm := (List.mergeSort_perm entries Entries.listedBefore).map Entry.name
    exact hperm.nodup_iff.2 hsound.distinct
  · exact List.nodup_nil

lemma validName_of_mem_children {name : Text} (h : name ∈ disk.children l) : validName name := by
  rw [children] at h
  split at h
  · next entries hentries =>
    obtain ⟨e, he, rfl⟩ := List.mem_map.1 h
    exact (Node.sound_directory.1 (disk.sound_node? hentries)).valid e (List.mem_mergeSort.1 he)
  · simp at h

/-- A directory can be listed unless it is fleeting. -/
lemma list_of_hasDirectory (hp : disk.locate p = .ok l) (hl : disk.HasDirectory l) :
    disk.list p = if l ∈ disk.fleeting then .error (.system .noEntry p none)
      else .ok (disk.children l) := by
  obtain ⟨entries, hentries⟩ := hasDirectory_iff.1 hl
  simp only [list_eq, hp, hentries, children]

/-! ## What is found at a path -/

lemma isDirectory_eq (disk : Disk) (p : Path) : disk.isDirectory p = match disk.locate p with
    | .ok l => .ok (decide (disk.content? l = some .directory))
    | .error fault => if fault.meansAbsent then .ok false else .error fault := by
  rw [isDirectory, leadsTo, find_eq]
  cases disk.locate p with
  | error fault => rfl
  | ok l =>
    dsimp only
    rw [content?, face?]
    cases disk.node? l with
    | none => rfl
    | some node => cases node <;> rfl

lemma isFile_eq (disk : Disk) (p : Path) : disk.isFile p = match disk.locate p with
    | .ok l => .ok (match disk.content? l with
      | some (.file _) => true
      | _ => false)
    | .error fault => if fault.meansAbsent then .ok false else .error fault := by
  rw [isFile, leadsTo, find_eq]
  cases disk.locate p with
  | error fault => rfl
  | ok l =>
    dsimp only
    rw [content?, face?]
    cases disk.node? l with
    | none => rfl
    | some node => cases node <;> rfl

lemma read_eq (disk : Disk) (p : Path) : disk.read p = match disk.locate p with
    | .ok l => match disk.content? l with
      | some (.file bytes) => .ok bytes
      | some _ => .error (.system .isDirectory p none)
      | none => .error (.system .noEntry p none)
    | .error fault => .error fault := by
  rw [read, find_eq]
  cases disk.locate p with
  | error fault => rfl
  | ok l =>
    dsimp only
    rw [content?, face?]
    cases disk.node? l with
    | none => rfl
    | some node => cases node <;> rfl

end Disk

/-! ## Disks that hold the same -/

variable {old new newer : Disk} {l : Location} {p : Path}

/-- **Two disks hold the same everywhere.** -/
def SameContents (old new : Disk) : Prop := ∀ l, new.content? l = old.content? l

namespace SameContents

lemma refl (disk : Disk) : SameContents disk disk := fun _ => rfl

lemma symm (h : SameContents old new) : SameContents new old := fun l => (h l).symm

lemma trans (h : SameContents old new) (h' : SameContents new newer) : SameContents old newer :=
  fun l => (h' l).trans (h l)

lemma of_face? (h : ∀ l, new.face? l = old.face? l) : SameContents old new :=
  fun l => Disk.content?_of_face? (h l)

lemma hasDirectory_iff (h : SameContents old new) (l : Location) :
    new.HasDirectory l ↔ old.HasDirectory l := by
  rw [← Disk.content?_eq_directory_iff, ← Disk.content?_eq_directory_iff, h l]

lemma node?_eq_none_iff (h : SameContents old new) (l : Location) :
    new.node? l = none ↔ old.node? l = none := by
  rw [← Disk.content?_eq_none_iff, ← Disk.content?_eq_none_iff, h l]

lemma linkless (h : SameContents old new) (hold : old.Linkless) : new.Linkless := by
  rintro l ⟨target, htarget⟩
  rw [← Disk.content?_eq_link_iff, h l, Disk.content?_eq_link_iff] at htarget
  exact hold l ⟨target, htarget⟩

variable (h : SameContents old new) (hold : old.Linkless) (hhere : new.here = old.here)

include h hold hhere

lemma locate_eq (p : Path) : new.locate p = old.locate p :=
  Disk.locate_congr hold (h.linkless hold) hhere fun _ _ =>
    ⟨h.node?_eq_none_iff _, h.hasDirectory_iff _⟩

lemma isDirectory_eq (p : Path) : new.isDirectory p = old.isDirectory p := by
  rw [Disk.isDirectory_eq, Disk.isDirectory_eq, h.locate_eq hold hhere]
  cases old.locate p with
  | error fault => rfl
  | ok l => simp only [h l]

end SameContents

/-! ## Counting files -/

namespace Disk

variable {disk : Disk} {names : List Text} {bytes : Bytes}

/-- The number of files at a location and below it. -/
noncomputable def fileCount (disk : Disk) (l : Location) : ℕ∞ :=
  Set.encard {inner : Location | ∃ bytes, disk.content? (inner ++ l) = some (.file bytes)}

lemma fileCount_congr {l' : Location}
    (h : ∀ inner, new.content? (inner ++ l') = old.content? (inner ++ l)) :
    new.fileCount l' = old.fileCount l := by
  simp only [fileCount, h]

lemma fileCount_of_file (h : disk.content? l = some (.file bytes)) : disk.fileCount l = 1 := by
  have hnot : ¬ disk.HasDirectory l := by
    rw [← content?_eq_directory_iff, h]
    simp
  have hset : {inner : Location | ∃ bytes, disk.content? (inner ++ l) = some (.file bytes)} =
      {[]} := by
    ext inner
    by_cases hinner : inner = []
    · simp [hinner, h]
    · simp [hinner, content?_append_eq_none hinner hnot]
  rw [fileCount, hset, Set.encard_singleton]

/-- The files at some names in a directory and below them. -/
def filesAt (disk : Disk) (l : Location) (names : List Text) : Set Location :=
  {inner | ∃ more, ∃ name ∈ names, inner = more ++ [name] ∧
    ∃ bytes, disk.content? (more ++ name :: l) = some (.file bytes)}

/-- All files below a directory are at its names and below them. -/
lemma filesAt_eq (hl : disk.HasDirectory l)
    (hnames : ∀ name, disk.content? (name :: l) ≠ none → name ∈ names) :
    {inner : Location | ∃ bytes, disk.content? (inner ++ l) = some (.file bytes)} =
      disk.filesAt l names := by
  ext inner
  constructor
  · rintro ⟨bytes, hfile⟩
    rcases List.eq_nil_or_concat inner with rfl | ⟨more, name, rfl⟩
    · simp [content?_eq_directory_iff.2 hl] at hfile
    · rw [List.concat_eq_append, List.append_assoc, List.singleton_append] at hfile
      refine ⟨more, name, hnames name fun hnone => ?_, List.concat_eq_append, bytes, hfile⟩
      by_cases hmore : more = []
      · simp [hmore, hnone] at hfile
      · refine absurd hnone (content?_eq_directory_iff.2 ?_ ▸ by simp)
        exact hasDirectory_of_content?_append hmore (by simp [hfile])
  · rintro ⟨more, name, -, rfl, bytes, hfile⟩
    exact ⟨bytes, by simpa using hfile⟩

lemma filesAt_cons (disk : Disk) (l : Location) (name : Text) (names : List Text) :
    disk.filesAt l (name :: names) = (fun more => more ++ [name]) ''
      {more : Location | ∃ bytes, disk.content? (more ++ name :: l) = some (.file bytes)} ∪
        disk.filesAt l names := by
  ext inner
  constructor
  · rintro ⟨more, other, hother, rfl, hfile⟩
    rcases List.mem_cons.1 hother with rfl | hother
    · exact .inl ⟨more, hfile, rfl⟩
    · exact .inr ⟨more, other, hother, rfl, hfile⟩
  · rintro (⟨more, hfile, rfl⟩ | ⟨more, other, hother, rfl, hfile⟩)
    · exact ⟨more, name, by simp, rfl, hfile⟩
    · exact ⟨more, other, by simp [hother], rfl, hfile⟩

lemma encard_filesAt (hdistinct : names.Nodup) : (disk.filesAt l names).encard =
    (names.map fun name => disk.fileCount (name :: l)).sum := by
  induction names with
  | nil => simp [filesAt]
  | cons name names ih =>
    obtain ⟨hname, hrest⟩ := List.nodup_cons.1 hdistinct
    have hdisjoint : Disjoint ((fun more => more ++ [name]) ''
        {more : Location | ∃ bytes, disk.content? (more ++ name :: l) = some (.file bytes)})
          (disk.filesAt l names) := by
      rw [Set.disjoint_left]
      rintro _ ⟨more, -, rfl⟩ ⟨more', other, hother, heq, -⟩
      have hlast : [name] = [other] := List.append_inj_right' heq rfl
      exact hname ((List.cons.inj hlast).1 ▸ hother)
    have hinjective : Function.Injective fun more : Location => more ++ [name] :=
      List.append_left_injective [name]
    rw [filesAt_cons, Set.encard_union_eq hdisjoint, hinjective.encard_image, ih hrest,
      List.map_cons, List.sum_cons, fileCount]

/-- **The files in a directory** are as many as at its names together. -/
lemma fileCount_of_names (hl : disk.HasDirectory l) (hdistinct : names.Nodup)
    (hnames : ∀ name, disk.content? (name :: l) ≠ none → name ∈ names) :
    disk.fileCount l = (names.map fun name => disk.fileCount (name :: l)).sum := by
  rw [fileCount, filesAt_eq hl hnames, encard_filesAt hdistinct]

end Disk

end Storage

end OnePage
