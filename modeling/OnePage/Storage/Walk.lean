import OnePage.Storage.Access

/-!
# Walking a tree

The files below a directory are found with a list of directories still to be visited. A visit looks
at the names in ascending order: what is no directory is a file of the walk, and directories are put
in front of the list, the last one first. A directory that is gone when its turn comes is passed
over.

* `Disk.look` is one visit. It ends early if it cannot be told whether a name leads to a directory.
* `Disk.filesFrom` is the walk. Links may lead round in circles, but no path is longer than
  `pathLimit`, so the paths that lead to directories form a finite tree. `Disk.pathsFrom` is that
  tree from one path on; a visit replaces a path by those just below it, from which fewer paths
  lead on.
* `Disk.snapshot` notes for each file when it was written.
-/

namespace OnePage

namespace Storage

/-! ## One visit -/

/-- What a visit to a directory finds. -/
structure Look where
  /-- The paths that lead to no directory, in ascending order of their names. -/
  files : List Path
  /-- The paths that lead to a directory, in the same order. -/
  directories : List Path
  /-- Why the visit ended early, if it did. -/
  failure : Option Fault

namespace Disk

/-- Tells the files and directories among some names apart. -/
def sortOut (disk : Disk) (directory : Path) : List Text → Look
  | [] => ⟨[], [], none⟩
  | name :: names =>
    let p := directory.child name
    match disk.isDirectory p with
    | .error fault => ⟨[], [], some fault⟩
    | .ok true =>
      let rest := disk.sortOut directory names
      ⟨rest.files, p :: rest.directories, rest.failure⟩
    | .ok false =>
      let rest := disk.sortOut directory names
      ⟨p :: rest.files, rest.directories, rest.failure⟩

/-- A visit to a directory that has these names. -/
def look (disk : Disk) (directory : Path) (names : List Text) : Look :=
  disk.sortOut directory (Text.sort names)

/-- The directories that a visit to a path finds. -/
def subdirectories (disk : Disk) (p : Path) : List Path :=
  match disk.list p with
  | .ok names => (disk.look p names).directories
  | .error _ => []

/-! ## The tree of paths to directories -/

/-- The paths to directories from a path on, going down at most `room` times. -/
def reach (disk : Disk) : (room : Nat) → Path → List Path
  | 0, p => [p]
  | room + 1, p => p :: (disk.subdirectories p).flatMap (disk.reach room)

/-- The paths to directories from a path on. -/
def pathsFrom (disk : Disk) (p : Path) : List Path :=
  disk.reach (pathLimit + 1 - p.parts.length) p

theorem mem_directories_sortOut {disk : Disk} {directory q : Path} {names : List Text}
    (mem : q ∈ (disk.sortOut directory names).directories) :
    (∃ name, q = directory.child name) ∧ disk.isDirectory q = .ok true := by
  induction names with
  | nil => simp [sortOut] at mem
  | cons name names ih =>
    simp only [sortOut] at mem
    split at mem
    · simp at mem
    · next found =>
      rcases List.mem_cons.1 mem with rfl | mem
      · exact ⟨⟨name, rfl⟩, found⟩
      · exact ih mem
    · exact ih mem

end Disk

theorem byteLength_slash : byteLength [slash] = 1 := by decide

theorem length_le_byteLength_join (parts : List Text) :
    parts.length ≤ byteLength (Text.join [slash] parts) + 1 := by
  induction parts with
  | nil => simp
  | cons part parts ih =>
    cases parts with
    | nil => simp
    | cons next parts =>
      simp only [Text.join, byteLength_append, byteLength_slash, List.length_cons] at ih ⊢
      omega

theorem Path.length_parts_le (p : Path) : p.parts.length ≤ byteLength p.text + 1 := by
  rw [Path.text]
  split
  · next noParts => simp [noParts]
  · rw [byteLength_append]
    have := length_le_byteLength_join p.parts
    omega

theorem Path.length_parts_le_of_isDirectory {disk : Disk} {p : Path}
    (directory : disk.isDirectory p = .ok true) : p.parts.length ≤ pathLimit + 1 := by
  have fine : p.fault? = none := by
    cases fault : p.fault? with
    | none => rfl
    | some fault =>
      simp only [Disk.isDirectory, Disk.leadsTo, Disk.find, Disk.follow, *] at directory
      split at directory <;> simp at directory
  have short : byteLength p.text ≤ pathLimit := by
    simp only [Path.fault?] at fine
    split at fine
    · simp at fine
    · split at fine
      · simp at fine
      · split at fine
        · simp at fine
        · next h => exact Nat.le_of_not_lt h
  have := p.length_parts_le
  omega

theorem Disk.length_pathsFrom_subdirectories_lt (disk : Disk) (p : Path) :
    ((disk.subdirectories p).flatMap disk.pathsFrom).length < (disk.pathsFrom p).length := by
  have deeper {q : Path} (mem : q ∈ disk.subdirectories p) :
      q.parts.length = p.parts.length + 1 ∧ p.parts.length ≤ pathLimit := by
    simp only [subdirectories] at mem
    split at mem
    · obtain ⟨⟨name, rfl⟩, directory⟩ := mem_directories_sortOut mem
      have bound := Path.length_parts_le_of_isDirectory directory
      have length_child : (p.child name).parts.length = p.parts.length + 1 := by
        simp [Path.child]
      rw [length_child] at bound
      exact ⟨length_child, Nat.le_of_succ_le_succ bound⟩
    · simp at mem
  cases found : disk.subdirectories p with
  | nil =>
    simp only [pathsFrom, List.flatMap_nil, List.length_nil]
    cases pathLimit + 1 - p.parts.length <;> simp [reach]
  | cons q qs =>
    rw [← found]
    have room := (deeper (q := q) (by simp [found])).2
    obtain ⟨more, is_more⟩ : ∃ more, pathLimit + 1 - p.parts.length = more + 1 :=
      ⟨pathLimit - p.parts.length, by omega⟩
    have same : (disk.subdirectories p).map disk.pathsFrom =
        (disk.subdirectories p).map (disk.reach more) := by
      refine List.map_congr_left fun r mem => ?_
      have room_left : pathLimit + 1 - (p.parts.length + 1) = more := by omega
      rw [pathsFrom, (deeper mem).1, room_left]
    rw [List.flatMap_def, same, ← List.flatMap_def, pathsFrom, is_more, reach]
    exact Nat.lt_succ_self _

/-! ## The walk -/

/-- The files that a walk meets, in the order in which it meets them, and why it ended early. -/
structure Walk where
  /-- The files met so far. -/
  files : List Path
  /-- Why the walk ended early, if it did. -/
  failure : Option Fault

namespace Disk

/-- Walks through the directories still to be visited, the first of them next. -/
def filesFrom (disk : Disk) (pending : List Path) : Walk :=
  match pending with
  | [] => ⟨[], none⟩
  | p :: pending =>
    match _listed : disk.list p with
    | .error (.system .noEntry _ _) => disk.filesFrom pending
    | .error fault => ⟨[], some fault⟩
    | .ok names =>
      let look := disk.look p names
      match look.failure with
      | some fault => ⟨look.files, some fault⟩
      | none =>
        let rest := disk.filesFrom (look.directories.reverse ++ pending)
        ⟨look.files ++ rest.files, rest.failure⟩
termination_by (pending.flatMap disk.pathsFrom).length
decreasing_by
  · have := disk.length_pathsFrom_subdirectories_lt p
    simp only [List.flatMap_cons, List.length_append]
    omega
  · have := disk.length_pathsFrom_subdirectories_lt p
    simp only [subdirectories, _listed] at this
    have turned := ((disk.look p names).directories.reverse_perm.flatMap_right
      disk.pathsFrom).length_eq
    simp only [List.flatMap_append, List.flatMap_cons, List.length_append]
    omega

/-- The files below a path; a path that leads to no directory has none. -/
def filesBelow (disk : Disk) (root : Path) : Walk :=
  match disk.isDirectory root with
  | .error fault => ⟨[], some fault⟩
  | .ok false => ⟨[], none⟩
  | .ok true => disk.filesFrom [root]

end Disk

/-! ## Snapshots -/

/-- When each file of a tree was written, by its path from the root of the tree. -/
abbrev Snapshot := Keyed Stamp

namespace Disk

/-- Notes when files were written; a file that is gone by now is passed over. -/
def stamps (disk : Disk) (root : Path) : List Path → Except Fault Snapshot
  | [] => .ok []
  | p :: files =>
    match disk.find p with
    | .ok (.file _ stamp) =>
      (disk.stamps root files).map fun rest => (root.relativeTo p, stamp) :: rest
    | .ok _ | .error (.system .noEntry _ _) => disk.stamps root files
    | .error fault => .error fault

/-- When each file below a path was written. -/
def snapshot (disk : Disk) (root : Path) : Except Fault Snapshot :=
  let walk := disk.filesBelow root
  match disk.stamps root walk.files, walk.failure with
  | .ok snapshot, none => .ok snapshot
  | .ok _, some fault => .error fault
  | .error fault, _ => .error fault

end Disk

end Storage

end OnePage
