import OnePage.Proofs.Storage.Listing
import OnePage.Proofs.Storage.Paved
import OnePage.Proofs.Storage.Proceed
import OnePage.Proofs.Storage.Snapshot
import OnePage.Proofs.Text.Order

/-!
# The walk as a recursion

A walk keeps a list of directories still to be visited.  It comes to the same as a recursion that
needs no such list: the files of a directory, and then whatever there is in each of its directories.

* `Disk.descent` is the recursion, and **`Disk.filesFrom_eq`** says what a walk has to do with it:
  the directories on the list are gone through one after the other.
* `Disk.Stays` — no directory on the way is gone when it is listed.  On a disk without links a walk
  meets what stays below its root (`Disk.exists_of_meets` and `Disk.meets_of_stays`).
* `Disk.IsNear` — none of that has too long a path.
* `SameButOrder` — two disks differ in the order in which they list names, and in nothing else.
* **`Disk.filesBelow_eq_descent`** — the walk below a directory and the snapshot that it gives.
-/

namespace OnePage

namespace Storage

namespace Disk

variable {disk : Disk} {p q root : Path} {l : Location} {name : Text} {names : List Text}

/-! ## The recursion -/

lemma room_lt (hq : q ∈ ((Text.sort names).map p.child).filter
    fun q => disk.isDirectory q = .ok true) :
    pathLimit + 1 - q.parts.length < pathLimit + 1 - p.parts.length := by
  obtain ⟨hmem, hdirectory⟩ := List.mem_filter.1 hq
  obtain ⟨name, -, rfl⟩ := List.mem_map.1 hmem
  have hbound := Path.length_parts_le_of_isDirectory (of_decide_eq_true hdirectory)
  have hlength : (p.child name).parts.length = p.parts.length + 1 := by simp [Path.child]
  omega

/-- **The files below a directory**: its own files in the ascending order of their names, and then
those below each of its directories, in the descending order of their names.  There are none below a
directory that is gone when it is listed. -/
def descent (disk : Disk) (p : Path) : List Path :=
  match disk.list p with
  | .error _ => []
  | .ok names =>
    let entries := (Text.sort names).map p.child
    let directories := entries.filter fun q => disk.isDirectory q = .ok true
    entries.filter (fun q => disk.isDirectory q ≠ .ok true) ++
      directories.reverse.attach.flatMap fun q => disk.descent q.1
termination_by pathLimit + 1 - p.parts.length
decreasing_by exact room_lt (List.mem_reverse.1 q.2)

lemma descent_of_error {fault : Fault} (hlist : disk.list p = .error fault) :
    disk.descent p = [] := by
  rw [descent, hlist]

lemma descent_of_list (hlist : disk.list p = .ok names) : disk.descent p =
    ((Text.sort names).map p.child).filter (fun q => disk.isDirectory q ≠ .ok true) ++
      (((Text.sort names).map p.child).filter
        fun q => disk.isDirectory q = .ok true).reverse.flatMap disk.descent := by
  rw [descent, hlist]
  dsimp only
  rw [List.flatMap_subtype fun _ _ => rfl, List.unattach_attach]

/-- **A walk that comes to its end** goes through the directories on its list one by one. -/
theorem filesFrom_eq {pending : List Path} (hpassable : ∀ p ∈ pending, disk.Passable p) :
    disk.filesFrom pending = ⟨pending.flatMap disk.descent, none⟩ := by
  refine walk_induction (motive := fun pending =>
    disk.filesFrom pending = ⟨pending.flatMap disk.descent, none⟩) ?_ ?_ ?_ hpassable
  · simp [filesFrom]
  · intro p pending fault hlist hgone ih
    rw [filesFrom_gone pending hlist hgone, ih, List.flatMap_cons, descent_of_error hlist,
      List.nil_append]
  · intro p pending names hlist hlook _ ih
    have hfiles : ((Text.sort names).map p.child).filter (fun q => disk.isDirectory q ≠ .ok true) =
        (disk.look p names).files := by
      rw [look, sortOut_eq hlook]
      refine List.filter_congr fun q hq => ?_
      obtain ⟨name, hname, rfl⟩ := List.mem_map.1 hq
      obtain ⟨answer, hanswer⟩ := failure_look_eq_none_iff.1 hlook name (mem_sort.1 hname)
      cases answer <;> simp [hanswer]
    have hdirectories : ((Text.sort names).map p.child).filter
        (fun q => disk.isDirectory q = .ok true) = (disk.look p names).directories := by
      rw [look, sortOut_eq hlook]
    rw [filesFrom_visit pending hlist hlook, ih, List.flatMap_cons, descent_of_list hlist, hfiles,
      hdirectories, List.flatMap_append, List.append_assoc]

/-! ## What lies below a directory -/

/-- No directory on the way from a location along some names is gone when it is listed. -/
def Stays (disk : Disk) (l : Location) (names : List Text) : Prop :=
  ∀ front, front <+: names → front ≠ names → front.reverse ++ l ∉ disk.fleeting

lemma stays_nil : disk.Stays l [] := fun _ hfront hne => absurd (List.prefix_nil.1 hfront) hne

lemma stays_cons_iff :
    disk.Stays l (name :: names) ↔ l ∉ disk.fleeting ∧ disk.Stays (name :: l) names := by
  constructor
  · intro h
    refine ⟨h [] List.nil_prefix (by simp), fun front hfront hne => ?_⟩
    simpa using h (name :: front) (List.cons_prefix_cons.2 ⟨rfl, hfront⟩) (by simpa using hne)
  · rintro ⟨hl, hrest⟩ front hfront hne
    rcases List.prefix_cons_iff.1 hfront with rfl | ⟨rest, rfl, hbehind⟩
    · exact hl
    · simpa using hrest rest hbehind (by simpa using hne)

/-- **None of what lies below a directory has too long a path**, as far as it stays. -/
def IsNear (disk : Disk) (root : Path) (l : Location) : Prop :=
  ∀ names, disk.content? (names.reverse ++ l) ≠ none → disk.Stays l names →
    byteLength (⟨root.anchor, root.parts ++ names⟩ : Path).text ≤ pathLimit

/-- This can be told from an inventory. -/
lemma isNear_of_inventory {node : Node} (hnode : disk.node? l = some node)
    (hroot : byteLength root.text ≤ pathLimit)
    (h : ∀ found ∈ node.inventory root, byteLength found.1.text ≤ pathLimit) :
    disk.IsNear root l := by
  intro names hthere _
  by_cases hne : names = []
  · simpa [hne] using hroot
  · rw [Ne, content?_eq_none_iff, node?_append, hnode, Option.bind_some,
      List.reverse_reverse] at hthere
    obtain ⟨found, hfound⟩ := Option.ne_none_iff_exists'.1 hthere
    exact h _ (mem_inventory_of_descend hne hfound)

lemma content?_reverse_cons (disk : Disk) (name : Text) (names : List Text) (l : Location) :
    disk.content? ((name :: names).reverse ++ l) = disk.content? (names.reverse ++ name :: l) := by
  simp

/-- The path of what lies below a directory is plain. -/
lemma isPlain_names (hp : disk.locate p = .ok l)
    (hthere : disk.content? (names.reverse ++ l) ≠ none) :
    (⟨p.anchor, p.parts ++ names⟩ : Path).IsPlain := by
  refine (Path.isPlain_iff.2 (.inl (locate_eq_ok_iff.1 hp).1)).append fun name hname => ?_
  exact disk.validName_of_mem_location (mt content?_eq_none_iff.2 hthere) (by simp [hname])

section Linkless

variable (hlinkless : disk.Linkless)

include hlinkless

/-- A path that can be followed leads along its names. -/
lemma locate_names (hp : disk.locate p = .ok l) (hthere : disk.content? (names.reverse ++ l) ≠ none)
    (hfault : (⟨p.anchor, p.parts ++ names⟩ : Path).fault? = none) :
    disk.locate ⟨p.anchor, p.parts ++ names⟩ = .ok (names.reverse ++ l) := by
  induction names generalizing p l with
  | nil => simpa using hp
  | cons name names ih =>
    have hdirectory : disk.HasDirectory l := hasDirectory_of_content?_append (by simp) hthere
    rw [content?_reverse_cons] at hthere
    have hparts : p.parts ++ name :: names = (p.child name).parts ++ names := by simp [Path.child]
    rw [hparts] at hfault ⊢
    have hvalid : validName name := disk.validName_of_mem_location
      (l := names.reverse ++ name :: l) (mt content?_eq_none_iff.2 hthere) (by simp)
    have hchild : disk.locate (p.child name) = .ok (name :: l) :=
      locate_child hp hdirectory (hlinkless _)
        (Path.fault?_of_prefix (List.prefix_append _ names) hfault) hvalid
    rw [List.reverse_cons, List.append_assoc, List.singleton_append]
    exact ih hchild hthere hfault

/-- What a walk meets lies where its names say. -/
lemma exists_of_meets (hp : disk.locate p = .ok l) (hmeets : disk.Meets p q) :
    ∃ names, names ≠ [] ∧ q = ⟨p.anchor, p.parts ++ names⟩ ∧
      disk.content? (names.reverse ++ l) ≠ none ∧ disk.Stays l names := by
  obtain ⟨directory, found, hvisits, hlist, last, hlast, rfl⟩ := hmeets
  induction hvisits generalizing l with
  | here p =>
    obtain ⟨place, hplace, -, hstill, rfl⟩ := list_eq_ok_iff.1 hlist
    obtain rfl := Except.ok.inj (hp.symm.trans hplace)
    exact ⟨[last], by simp, rfl, mem_children_iff.1 hlast, stays_cons_iff.2 ⟨hstill, stays_nil⟩⟩
  | @child p q others first hothers hfirst hdirectory hvisits ih =>
    obtain ⟨place, hplace, hl, hstill, rfl⟩ := list_eq_ok_iff.1 hothers
    obtain rfl := Except.ok.inj (hp.symm.trans hplace)
    have hchild : disk.locate (p.child first) = .ok (first :: l) := by
      obtain ⟨inner, hinner, -⟩ := isDirectory_eq_true_iff.1 hdirectory
      exact locate_child hp hl (hlinkless _) (locate_eq_ok_iff.1 hinner).1
        (validName_of_mem_children hfirst)
    obtain ⟨names, hne, hq, hthere, hstays⟩ := ih hchild hlist
    refine ⟨first :: names, by simp, by rw [hq]; simp [Path.child], ?_,
      stays_cons_iff.2 ⟨hstill, hstays⟩⟩
    rwa [content?_reverse_cons]

/-- A walk that can tell what it meets meets whatever stays. -/
lemma meets_of_stays (hp : disk.locate p = .ok l)
    (hmet : ∀ q, disk.Meets p q → ∃ answer, disk.isDirectory q = .ok answer) (hne : names ≠ [])
    (hthere : disk.content? (names.reverse ++ l) ≠ none) (hstays : disk.Stays l names) :
    disk.Meets p ⟨p.anchor, p.parts ++ names⟩ := by
  induction names generalizing p l with
  | nil => exact absurd rfl hne
  | cons name names ih =>
    obtain ⟨hstill, hstays⟩ := stays_cons_iff.1 hstays
    have hdirectory : disk.HasDirectory l := hasDirectory_of_content?_append (by simp) hthere
    have hlist := list_eq_ok_iff.2 ⟨l, hp, hdirectory, hstill, rfl⟩
    rw [content?_reverse_cons] at hthere
    have hname : name ∈ disk.children l := by
      rw [mem_children_iff, Ne, content?_eq_none_iff]
      intro hnone
      rw [Ne, content?_eq_none_iff, node?_append, hnone] at hthere
      exact hthere rfl
    have hfirst : disk.Meets p (p.child name) := (meets_iff hlist).2 ⟨name, hname, .inl rfl⟩
    by_cases hnames : names = []
    · rw [hnames]
      exact hfirst
    · -- there is more below, so the name stands for a directory
      have hbelow : disk.HasDirectory (name :: l) :=
        hasDirectory_of_content?_append (by simpa using hnames) hthere
      obtain ⟨answer, hanswer⟩ := hmet _ hfirst
      have hchild : disk.locate (p.child name) = .ok (name :: l) := by
        refine locate_child hp hdirectory (hlinkless _) ?_ (validName_of_mem_children hname)
        have hfault := (below_of_meets hfirst).fault?_eq (locate_eq_ok_iff.1 hp).1
        refine hfault.resolve_right fun h => ?_
        have hfind :
            disk.find (p.child name) = .error (.system .nameTooLong (p.child name) none) := by
          rw [find, follow, h]
        exact exists_isDirectory_iff.1 ⟨answer, hanswer⟩ hfind
      have htrue := isDirectory_eq_true_iff.2 ⟨_, hchild, hbelow⟩
      have hrest := ih hchild (fun q hq => hmet q ((meets_iff hlist).2
        ⟨name, hname, .inr ⟨htrue, hq⟩⟩)) hnames hthere hstays
      have hparts : p.parts ++ name :: names = (p.child name).parts ++ names := by
        simp [Path.child]
      rw [hparts]
      exact (meets_iff hlist).2 ⟨name, hname, .inr ⟨htrue, hrest⟩⟩

/-- What stays below a directory is found if its path is not too long. -/
lemma find_names (hp : disk.locate p = .ok l) (hthere : disk.content? (names.reverse ++ l) ≠ none)
    (hlength : byteLength (⟨p.anchor, p.parts ++ names⟩ : Path).text ≤ pathLimit) :
    ∃ node, disk.node? (names.reverse ++ l) = some node ∧
      disk.find ⟨p.anchor, p.parts ++ names⟩ = .ok node := by
  obtain ⟨node, hnode⟩ := Option.ne_none_iff_exists'.1 (mt content?_eq_none_iff.2 hthere)
  have hplain := isPlain_names hp hthere
  have hplace := locate_names hlinkless hp hthere (Path.fault?_eq_none_iff.2 ⟨hplain, hlength⟩)
  exact ⟨node, hnode, find_eq_ok_iff.2 ⟨_, hplace, hnode⟩⟩

/-- Whether it is a directory is clear exactly then. -/
lemma exists_isDirectory_iff_length (hp : disk.locate p = .ok l)
    (hthere : disk.content? (names.reverse ++ l) ≠ none) :
    (∃ answer, disk.isDirectory ⟨p.anchor, p.parts ++ names⟩ = .ok answer) ↔
      byteLength (⟨p.anchor, p.parts ++ names⟩ : Path).text ≤ pathLimit := by
  constructor
  · intro hanswer
    refine (Path.fault?_eq_none_iff.1 ?_).2
    refine (Path.isPlain_iff.1 (isPlain_names hp hthere)).resolve_right fun hlong => ?_
    refine exists_isDirectory_iff.1 hanswer ?_
    rw [find, follow, hlong]
  · intro hlength
    obtain ⟨node, -, hfind⟩ := find_names hlinkless hp hthere hlength
    exact ⟨node.isDirectory, by rw [isDirectory, leadsTo, hfind]⟩

section Root

variable (hroot : disk.locate root = .ok l) (hdirectory : disk.HasDirectory l)

include hroot hdirectory

/-- **A walk comes to its end** exactly if nothing below its root has too long a path. -/
lemma passable_iff_isNear : disk.Passable root ↔ disk.IsNear root l := by
  have htrue := isDirectory_eq_true_iff.2 ⟨l, hroot, hdirectory⟩
  rw [passable_iff_of_isDirectory htrue]
  constructor
  · intro hmet names hthere hstays
    rw [← exists_isDirectory_iff_length hlinkless hroot hthere]
    by_cases hne : names = []
    · exact ⟨true, by simpa [hne] using htrue⟩
    · exact hmet _ (meets_of_stays hlinkless hroot hmet hne hthere hstays)
  · intro hnear q hmeets
    obtain ⟨names, -, rfl, hthere, hstays⟩ := exists_of_meets hlinkless hroot hmeets
    exact (exists_isDirectory_iff_length hlinkless hroot hthere).2 (hnear names hthere hstays)

lemma failure_filesBelow_eq_none_iff :
    (disk.filesBelow root).failure = none ↔ disk.IsNear root l := by
  rw [filesBelow, isDirectory_eq_true_iff.2 ⟨l, hroot, hdirectory⟩]
  dsimp only
  rw [failure_filesFrom_eq_none_iff, ← passable_iff_isNear hlinkless hroot hdirectory]
  simp

/-- So can a snapshot be taken. -/
lemma exists_snapshot_iff_isNear :
    (∃ s, disk.snapshot root = .ok s) ↔ disk.IsNear root l := by
  have htrue := isDirectory_eq_true_iff.2 ⟨l, hroot, hdirectory⟩
  rw [exists_snapshot_iff, ← passable_iff_isNear hlinkless hroot hdirectory,
    passable_iff_of_isDirectory htrue]
  constructor
  · rintro ⟨-, hmet⟩ q hmeets
    cases hfind : disk.find q with
    | ok node => exact ⟨node.isDirectory, by rw [isDirectory, leadsTo, hfind]⟩
    | error fault => exact ⟨false, isDirectory_of_find_error hfind (hmet q hmeets fault hfind)⟩
  · intro hmet
    refine ⟨⟨true, htrue⟩, fun q hmeets fault hfault => ?_⟩
    have hanswer := hmet q hmeets
    obtain ⟨names, -, rfl, hthere, -⟩ := exists_of_meets hlinkless hroot hmeets
    obtain ⟨node, -, hfind⟩ := find_names hlinkless hroot hthere
      ((exists_isDirectory_iff_length hlinkless hroot hthere).1 hanswer)
    simp [hfind] at hfault

/-- **A walk that ends early** has met too long a path, and says so; and so does the snapshot. -/
lemma exists_nameTooLong (hnot : ¬ disk.IsNear root l) :
    ∃ q, disk.Meets root q ∧ pathLimit < byteLength q.text ∧
      (disk.filesBelow root).failure = some (.system .nameTooLong q none) ∧
      disk.snapshot root = .error (.system .nameTooLong q none) := by
  have htrue := isDirectory_eq_true_iff.2 ⟨l, hroot, hdirectory⟩
  have hwalk : disk.filesBelow root = disk.filesFrom [root] := by rw [filesBelow, htrue]
  have hvisits : ∀ p ∈ [root], disk.Visits root p := by simp [Visits.here]
  obtain ⟨hfiles, hfails⟩ := filesFrom_meets htrue hvisits
  rw [← failure_filesBelow_eq_none_iff hlinkless hroot hdirectory] at hnot
  obtain ⟨fault, hfault⟩ := Option.ne_none_iff_exists'.1 hnot
  obtain ⟨q, hmeets, hunclear⟩ := hfails fault (hwalk ▸ hfault)
  obtain rfl := isDirectory_error hunclear
  refine ⟨q, hmeets, ?_, hfault, ?_⟩
  · obtain ⟨names, -, rfl, hthere, -⟩ := exists_of_meets hlinkless hroot hmeets
    by_contra hshort
    obtain ⟨answer, hanswer⟩ :=
      (exists_isDirectory_iff_length hlinkless hroot hthere).2 (Nat.le_of_not_lt hshort)
    simp [hunclear] at hanswer
  · -- the files met before are all found, so the fault is the one of the walk
    have hstamps : disk.stamps root (disk.filesFrom [root]).files =
        .ok ((disk.filesFrom [root]).files.filterMap (disk.stampOf root)) := by
      refine stamps_of_forall fun p hp fault hfind => ?_
      obtain ⟨hmet, hfile⟩ := hfiles p hp
      obtain ⟨names, -, rfl, hthere, -⟩ := exists_of_meets hlinkless hroot hmet
      obtain ⟨node, -, hnode⟩ := find_names hlinkless hroot hthere
        ((exists_isDirectory_iff_length hlinkless hroot hthere).1 ⟨false, hfile⟩)
      simp [hnode] at hfind
    rw [hwalk] at hfault
    rw [snapshot, hwalk, hstamps, hfault]

section Near

variable (hnear : disk.IsNear root l)

include hnear

lemma filesBelow_eq : disk.filesBelow root = ⟨disk.descent root, none⟩ := by
  have hpassable := (passable_iff_isNear hlinkless hroot hdirectory).2 hnear
  rw [filesBelow, isDirectory_eq_true_iff.2 ⟨l, hroot, hdirectory⟩]
  dsimp only
  rw [filesFrom_eq (by simpa using hpassable), List.flatMap_singleton]

/-- **The files of the recursion** are those that stay below the directory. -/
lemma mem_descent_iff : q ∈ disk.descent root ↔ ∃ names bytes stamp,
    q = ⟨root.anchor, root.parts ++ names⟩ ∧
      disk.face? (names.reverse ++ l) = some (.file bytes stamp) ∧ disk.Stays l names := by
  have hpassable := (passable_iff_isNear hlinkless hroot hdirectory).2 hnear
  have hfiles : disk.descent root = (disk.filesFrom [root]).files := by
    rw [filesFrom_eq (by simpa using hpassable), List.flatMap_singleton]
  rw [hfiles, mem_filesFrom_iff (by simpa using hpassable)]
  simp only [List.mem_singleton, exists_eq_left]
  constructor
  · rintro ⟨hmeets, hfile⟩
    obtain ⟨names, -, rfl, hthere, hstays⟩ := exists_of_meets hlinkless hroot hmeets
    obtain ⟨node, hnode, hfind⟩ := find_names hlinkless hroot hthere (hnear names hthere hstays)
    rw [isDirectory, leadsTo, hfind] at hfile
    cases node with
    | file bytes stamp => exact ⟨names, bytes, stamp, rfl, face?_eq_file.2 hnode, hstays⟩
    | directory entries => simp [Node.isDirectory] at hfile
    | link target => exact absurd (hasLink_iff.2 ⟨target, hnode⟩) (hlinkless _)
  · rintro ⟨names, bytes, stamp, rfl, hface, hstays⟩
    have hne : names ≠ [] := by
      rintro rfl
      obtain ⟨found, hfound⟩ := hdirectory
      simp [hfound] at hface
    have hthere : disk.content? (names.reverse ++ l) ≠ none := by simp [content?, hface]
    obtain ⟨node, hnode, hfind⟩ := find_names hlinkless hroot hthere (hnear names hthere hstays)
    obtain rfl := Option.some.inj (hnode.symm.trans (face?_eq_file.1 hface))
    have htrue := isDirectory_eq_true_iff.2 ⟨l, hroot, hdirectory⟩
    exact ⟨meets_of_stays hlinkless hroot ((passable_iff_of_isDirectory htrue).1 hpassable) hne
      hthere hstays, by rw [isDirectory, leadsTo, hfind]; rfl⟩

omit hdirectory in
/-- A snapshot notes of each of these files when it was written. -/
lemma stampOf_names {bytes : Bytes} {stamp : Stamp}
    (hface : disk.face? (names.reverse ++ l) = some (.file bytes stamp))
    (hstays : disk.Stays l names) : disk.stampOf root ⟨root.anchor, root.parts ++ names⟩ =
      some (Text.join [slash] names, stamp) := by
  have hthere : disk.content? (names.reverse ++ l) ≠ none := by simp [content?, hface]
  obtain ⟨node, hnode, hfind⟩ := find_names hlinkless hroot hthere (hnear names hthere hstays)
  obtain rfl := Option.some.inj (hnode.symm.trans (face?_eq_file.1 hface))
  simp [stampOf, hfind, Path.relativeTo]

/-- **The snapshot of a directory.** -/
lemma snapshot_eq : disk.snapshot root =
    .ok ((disk.descent root).filterMap (disk.stampOf root)) := by
  have hstamps : disk.stamps root (disk.descent root) =
      .ok ((disk.descent root).filterMap (disk.stampOf root)) := by
    refine stamps_of_forall fun q hq fault hfault => ?_
    obtain ⟨names, bytes, stamp, rfl, hface, hstays⟩ :=
      (mem_descent_iff hlinkless hroot hdirectory hnear).1 hq
    have hstamp := stampOf_names hlinkless hroot hnear hface hstays
    simp [stampOf, hfault] at hstamp
  rw [snapshot, filesBelow_eq hlinkless hroot hdirectory hnear]
  simp only [hstamps]

lemma keys_eq : Keyed.keys ((disk.descent root).filterMap (disk.stampOf root)) =
    (disk.descent root).map root.relativeTo := by
  rw [Keyed.keys, List.map_filterMap, ← List.filterMap_eq_map]
  refine List.filterMap_congr fun q hq => ?_
  obtain ⟨names, bytes, stamp, rfl, hface, hstays⟩ :=
    (mem_descent_iff hlinkless hroot hdirectory hnear).1 hq
  simp [stampOf_names hlinkless hroot hnear hface hstays, Path.relativeTo]

lemma mem_snapshot_iff {key : Text} {stamp : Stamp} :
    (key, stamp) ∈ (disk.descent root).filterMap (disk.stampOf root) ↔ ∃ names bytes,
      key = Text.join [slash] names ∧
        disk.face? (names.reverse ++ l) = some (.file bytes stamp) ∧ disk.Stays l names := by
  rw [List.mem_filterMap]
  constructor
  · rintro ⟨q, hq, hstamp⟩
    obtain ⟨names, bytes, written, rfl, hface, hstays⟩ :=
      (mem_descent_iff hlinkless hroot hdirectory hnear).1 hq
    rw [stampOf_names hlinkless hroot hnear hface hstays] at hstamp
    obtain ⟨rfl, rfl⟩ := Prod.mk.inj (Option.some.inj hstamp)
    exact ⟨names, bytes, rfl, hface, hstays⟩
  · rintro ⟨names, bytes, rfl, hface, hstays⟩
    exact ⟨_, (mem_descent_iff hlinkless hroot hdirectory hnear).2
      ⟨names, bytes, stamp, rfl, hface, hstays⟩,
      stampOf_names hlinkless hroot hnear hface hstays⟩

end Near

end Root

end Linkless

end Disk

/-! ## The order in which names are listed -/

/-- When a node was written, if it is a file. -/
def Node.stamp? : Node → Option Stamp
  | file _ stamp => some stamp
  | _ => none

/-- **Two disks that differ in the order in which directories list their names**, and in nothing
else. -/
structure SameButOrder (old new : Disk) : Prop where
  /-- The working directory is the same. -/
  here : new.here = old.here
  /-- The same directories disappear when they are listed. -/
  fleeting : ∀ l, l ∈ new.fleeting ↔ l ∈ old.fleeting
  /-- The same is held everywhere. -/
  contents : SameContents old new
  /-- Files have been written at the same time. -/
  stamps : ∀ l bytes stamp, old.face? l = some (.file bytes stamp) →
    new.face? l = some (.file bytes stamp)

lemma Entries.find?_pin (name other : Text) (edit : Nat) (entries : Entries) :
    (entries.pin name edit).find? other = entries.find? other := by
  have hsame : ((fun e : Entry Node => decide (e.name = other)) ∘ fun e =>
      if e.name = name then { e with made := e.made.or (some edit) } else e) =
      fun e => decide (e.name = other) := by
    funext e
    by_cases h : e.name = name <;> simp [h]
  rw [find?, pin, update, List.find?_map, hsame, Option.map_map, find?]
  refine Option.map_congr fun e _ => ?_
  by_cases h : e.name = name <;> simp [h]

/-- What is made by hand is listed elsewhere, and that is all. -/
lemma sameButOrder_pin (disk : Disk) (l : Location) : SameButOrder disk (disk.pin l) := by
  cases l with
  | nil => exact ⟨rfl, fun _ => .rfl, .refl disk, fun _ _ _ h => h⟩
  | cons name parent =>
    -- the entries of one directory say something else of when they were made by hand
    have helsewhere : ∀ l, l ≠ parent → (disk.pin (name :: parent)).face? l = disk.face? l := by
      intro l hl
      by_cases hsuffix : parent <:+ l
      · obtain ⟨inner, rfl⟩ := hsuffix
        obtain ⟨first, rest, hinner⟩ : ∃ first rest, inner.reverse = first :: rest :=
          List.exists_cons_of_ne_nil (by simpa using hl)
        rw [Disk.face?, Disk.face?, Disk.pin,
          Disk.node?_change fun sound => sound.pin name disk.ticks, Disk.node?_append, hinner]
        congr 2
        funext node
        cases node with
        | directory entries =>
          simp only [Node.descend, Node.within, Node.child?, Entries.within, Entries.find?_pin]
        | _ => rfl
      · exact Disk.face?_change (fun sound => sound.pin name disk.ticks) hsuffix
    have hparent : (disk.pin (name :: parent)).node? parent =
        (disk.node? parent).map (Node.within (Entries.pin name disk.ticks) []) :=
      (Disk.node?_change (fun sound => sound.pin name disk.ticks) disk parent []).trans
        Option.map_eq_bind.symm
    refine ⟨rfl, fun _ => .rfl, fun l => ?_, fun l bytes stamp hfile => ?_⟩
    · by_cases hl : l = parent
      · rw [hl, Disk.content?, Disk.content?, Disk.face?, Disk.face?, hparent]
        cases disk.node? parent with
        | none => rfl
        | some node => cases node <;> rfl
      · exact Disk.content?_of_face? (helsewhere l hl)
    · by_cases hl : l = parent
      · rw [hl, Disk.face?_eq_file] at hfile ⊢
        rw [hparent, hfile]
        rfl
      · rw [helsewhere l hl, hfile]

namespace Disk

variable {disk old new : Disk} {p root : Path} {names : List Text} {files : List Path}

lemma list_eq_of_content? (disk : Disk) (p : Path) : disk.list p = match disk.locate p with
    | .error fault => .error fault
    | .ok l => match disk.content? l with
      | some .directory =>
        if l ∈ disk.fleeting then .error (.system .noEntry p none) else .ok (disk.children l)
      | some _ => .error (.system .notDirectory p none)
      | none => .error (.system .noEntry p none) := by
  rw [list_eq]
  cases disk.locate p with
  | error fault => rfl
  | ok l =>
    dsimp only
    rw [content?, face?, children]
    cases disk.node? l with
    | none => rfl
    | some node => cases node <;> rfl

lemma sortOut_congr (h : ∀ q, new.isDirectory q = old.isDirectory q) :
    new.sortOut p names = old.sortOut p names := by
  induction names with
  | nil => rfl
  | cons name names ih => rw [sortOut, sortOut, h, ih]

lemma stamps_cons (disk : Disk) (root p : Path) (files : List Path) :
    disk.stamps root (p :: files) = match (disk.find p).map Node.stamp? with
      | .ok (some stamp) =>
        (disk.stamps root files).map fun rest => (root.relativeTo p, stamp) :: rest
      | .ok none | .error (.system .noEntry _ _) => disk.stamps root files
      | .error fault => .error fault := by
  rw [stamps]
  cases disk.find p with
  | ok node => cases node <;> rfl
  | error fault =>
    cases fault with
    | system errno path target => cases errno <;> rfl
    | _ => rfl

lemma stamps_congr (h : ∀ p, (new.find p).map Node.stamp? = (old.find p).map Node.stamp?) :
    new.stamps root files = old.stamps root files := by
  induction files with
  | nil => rfl
  | cons p files ih => rw [stamps_cons, stamps_cons, h, ih]

end Disk

namespace SameButOrder

open Disk

variable {old new : Disk} {p root : Path} {names : List Text} (h : SameButOrder old new)
  (hold : old.Linkless)

include h hold

lemma list_eq_error {fault : Fault} (hlist : old.list p = .error fault) :
    new.list p = .error fault := by
  rw [list_eq_of_content?] at hlist ⊢
  rw [h.contents.locate_eq hold h.here]
  cases hp : old.locate p with
  | error other => simpa [hp] using hlist
  | ok l =>
    rw [hp] at hlist
    dsimp only at hlist ⊢
    rw [h.contents l]
    cases hcontent : old.content? l with
    | none => simpa [hcontent] using hlist
    | some content =>
      cases content with
      | file bytes => simpa [hcontent] using hlist
      | link target => simpa [hcontent] using hlist
      | directory =>
        by_cases hl : l ∈ old.fleeting
        · simpa [hcontent, hl, (h.fleeting l).2 hl] using hlist
        · simp [hcontent, hl] at hlist

/-- The same names are listed, and so they are the same once they have been sorted. -/
lemma list_eq_ok (hlist : old.list p = .ok names) :
    ∃ other, new.list p = .ok other ∧ Text.sort other = Text.sort names := by
  obtain ⟨l, hp, hl, hstill, rfl⟩ := list_eq_ok_iff.1 hlist
  refine ⟨new.children l, list_eq_ok_iff.2 ⟨l, ?_, (h.contents.hasDirectory_iff l).2 hl,
    mt (h.fleeting l).1 hstill, rfl⟩, Text.sort_congr ?_⟩
  · rw [h.contents.locate_eq hold h.here, hp]
  · refine (List.perm_ext_iff_of_nodup (new.nodup_children l)
      (old.nodup_children l)).2 fun name => ?_
    rw [mem_children_iff, mem_children_iff, h.contents]

/-- **A walk is the same on both disks.** -/
lemma filesFrom_eq (pending : List Path) : new.filesFrom pending = old.filesFrom pending := by
  have hlook {p : Path} {names other : List Text} (hsort : Text.sort other = Text.sort names) :
      new.look p other = old.look p names := by
    rw [look, look, hsort, sortOut_congr (h.contents.isDirectory_eq hold h.here)]
  induction pending using filesFrom.induct old with
  | case1 => simp [filesFrom]
  | case2 p pending path target hlist ih =>
    have hgone : (Fault.system .noEntry path target).IsNoEntry := ⟨path, target, rfl⟩
    rw [filesFrom_gone pending hlist hgone,
      filesFrom_gone pending (h.list_eq_error hold hlist) hgone, ih]
  | case3 p pending fault hother hlist =>
    have hnot : ¬ fault.IsNoEntry := by
      rintro ⟨path, target, heq⟩
      exact hother path target heq
    rw [filesFrom_stuck pending hlist hnot,
      filesFrom_stuck pending (h.list_eq_error hold hlist) hnot]
  | case4 p pending names hlist found fault hfailure =>
    obtain ⟨other, hother, hsort⟩ := h.list_eq_ok hold hlist
    have hhalted : (old.look p names).failure = some fault := hfailure
    rw [filesFrom_halted pending hlist hhalted,
      filesFrom_halted pending hother (hlook hsort ▸ hhalted), hlook hsort]
  | case5 p pending names hlist found hfailure ih =>
    obtain ⟨other, hother, hsort⟩ := h.list_eq_ok hold hlist
    have hnone : (old.look p names).failure = none := hfailure
    rw [filesFrom_visit pending hlist hnone,
      filesFrom_visit pending hother (hlook hsort ▸ hnone), hlook hsort]
    dsimp only
    rw [ih]

lemma filesBelow_eq (root : Path) : new.filesBelow root = old.filesBelow root := by
  rw [filesBelow, filesBelow, h.contents.isDirectory_eq hold h.here, h.filesFrom_eq hold]

lemma stamp?_eq (p : Path) : (new.find p).map Node.stamp? = (old.find p).map Node.stamp? := by
  rw [find_eq, find_eq, h.contents.locate_eq hold h.here]
  cases old.locate p with
  | error fault => rfl
  | ok l =>
    have hsame := h.contents l
    rw [content?, content?, face?, face?] at hsame
    dsimp only
    cases hnode : old.node? l with
    | none =>
      have hnone : new.node? l = none := by simpa [hnode] using hsame
      rw [hnone]
    | some node =>
      obtain ⟨other, hother, hcontent⟩ : ∃ other, new.node? l = some other ∧
          other.face.content = node.face.content := by simpa [hnode] using hsame
      rw [hother]
      cases node with
      | file bytes stamp =>
        have hface := h.stamps l bytes stamp (face?_eq_file.2 hnode)
        obtain rfl := Option.some.inj (hother.symm.trans (face?_eq_file.1 hface))
        rfl
      | directory entries =>
        cases other <;> simp [Node.face, Face.content] at hcontent
        rfl
      | link target =>
        cases other <;> simp [Node.face, Face.content] at hcontent
        rfl

/-- **So is a snapshot**, down to the order of its entries. -/
lemma snapshot_eq (root : Path) : new.snapshot root = old.snapshot root := by
  rw [snapshot, snapshot, h.filesBelow_eq hold, stamps_congr (h.stamp?_eq hold)]

end SameButOrder

namespace Disk

/-- **The walk below a directory** on a disk without links.  It comes to its end, and a snapshot can
be taken, exactly if nothing below has too long a path; else both fail with the fault that says of
such a path that it is too long.  If the walk comes to its end, it comes to the same as the
recursion.  The snapshot has a key of its own for each of the files, in the same order: the path
from the root; and it says when the file was written.  There is nothing else in it.  The order in
which directories list their names makes no difference to either. -/
theorem filesBelow_eq_descent {disk : Disk} {root : Path} {l : Location}
    (hlinkless : disk.Linkless) (hroot : disk.locate root = .ok l)
    (hdirectory : disk.HasDirectory l) :
    ((disk.filesBelow root).failure = none ↔ disk.IsNear root l) ∧
    ((∃ s, disk.snapshot root = .ok s) ↔ disk.IsNear root l) ∧
    (¬ disk.IsNear root l → ∃ q, disk.Meets root q ∧ pathLimit < byteLength q.text ∧
      (disk.filesBelow root).failure = some (.system .nameTooLong q none) ∧
      disk.snapshot root = .error (.system .nameTooLong q none)) ∧
    (disk.IsNear root l → disk.filesBelow root = ⟨disk.descent root, none⟩) ∧
    (∀ s, disk.snapshot root = .ok s →
      s.keys = (disk.descent root).map root.relativeTo ∧ s.keys.Nodup ∧
      ∀ key stamp, (key, stamp) ∈ s ↔ ∃ names bytes, key = Text.join [slash] names ∧
        disk.face? (names.reverse ++ l) = some (.file bytes stamp) ∧ disk.Stays l names) ∧
    ∀ other, SameButOrder disk other → other.filesBelow root = disk.filesBelow root ∧
      other.snapshot root = disk.snapshot root := by
  refine ⟨failure_filesBelow_eq_none_iff hlinkless hroot hdirectory,
    exists_snapshot_iff_isNear hlinkless hroot hdirectory,
    exists_nameTooLong hlinkless hroot hdirectory,
    filesBelow_eq hlinkless hroot hdirectory, fun s hs => ?_,
    fun other hother => ⟨hother.filesBelow_eq hlinkless root, hother.snapshot_eq hlinkless root⟩⟩
  have hnear := (exists_snapshot_iff_isNear hlinkless hroot hdirectory).1 ⟨s, hs⟩
  have hkeys := (keys_snapshot hs).1
  rw [snapshot_eq hlinkless hroot hdirectory hnear] at hs
  obtain rfl := Except.ok.inj hs
  exact ⟨keys_eq hlinkless hroot hdirectory hnear, hkeys,
    fun _ _ => mem_snapshot_iff hlinkless hroot hdirectory hnear⟩

/-- A disk with a directory `s`, in which there are a file and two directories. -/
def nestedDisk : Disk :=
  (((((Disk.empty.putDirectory ["s"]).putFile ["z", "s"] [] (.fresh 0)).putDirectory
    ["b", "s"]).putFile ["y", "b", "s"] [] (.fresh 1)).putDirectory ["m", "s"]).putFile
    ["q", "m", "s"] [] (.fresh 2)

lemma descent_nestedDisk : nestedDisk.descent (Path.parse "s") =
    [⟨.here, ["s", "z"]⟩, ⟨.here, ["s", "m", "q"]⟩, ⟨.here, ["s", "b", "y"]⟩] := by
  have hlist (p : Path) (l : Location) (names : List Text) (hp : nestedDisk.locate p = .ok l)
      (hl : nestedDisk.content? l = some .directory) (hchildren : nestedDisk.children l = names) :
      nestedDisk.list p = .ok names :=
    list_eq_ok_iff.2 ⟨l, hp, content?_eq_directory_iff.1 hl, List.not_mem_nil, hchildren.symm⟩
  have hs := hlist ⟨.here, ["s"]⟩ ["s"] ["b", "m", "z"] (by decide +kernel) (by decide +kernel)
    (by decide_cbv)
  have hb := hlist ⟨.here, ["s", "b"]⟩ ["b", "s"] ["y"] (by decide +kernel) (by decide +kernel)
    (by decide_cbv)
  have hm := hlist ⟨.here, ["s", "m"]⟩ ["m", "s"] ["q"] (by decide +kernel) (by decide +kernel)
    (by decide_cbv)
  have hsort : Text.sort ["b", "m", "z"] = ["b", "m", "z"] := by decide_cbv
  have hsort' (name : Text) : Text.sort [name] = [name] := List.mergeSort_singleton name
  have hparse : Path.parse "s" = ⟨.here, ["s"]⟩ := by decide +kernel
  rw [hparse, descent_of_list hs]
  have hdirectory : nestedDisk.isDirectory ⟨.here, ["s", "b"]⟩ = .ok true := by decide +kernel
  have hdirectory' : nestedDisk.isDirectory ⟨.here, ["s", "m"]⟩ = .ok true := by decide +kernel
  have hfile : nestedDisk.isDirectory ⟨.here, ["s", "z"]⟩ = .ok false := by decide +kernel
  have hfile' : nestedDisk.isDirectory ⟨.here, ["s", "m", "q"]⟩ = .ok false := by decide +kernel
  have hfile'' : nestedDisk.isDirectory ⟨.here, ["s", "b", "y"]⟩ = .ok false := by decide +kernel
  simp [hsort, hsort', Path.child, hdirectory, hdirectory', hfile, hfile', hfile'',
    descent_of_list hb, descent_of_list hm]

/-- Once one of the directories has been made by hand it is listed before the others. -/
theorem filesBelow_eq_descent_nested :
    nestedDisk.Linkless ∧ nestedDisk.locate (Path.parse "s") = .ok ["s"] ∧
    nestedDisk.HasDirectory ["s"] ∧
    nestedDisk.children ["s"] = ["b", "m", "z"] ∧
    (nestedDisk.pin ["m", "s"]).children ["s"] = ["m", "b", "z"] ∧
    (nestedDisk.pin ["m", "s"]).filesBelow (Path.parse "s") =
      ⟨[⟨.here, ["s", "z"]⟩, ⟨.here, ["s", "m", "q"]⟩, ⟨.here, ["s", "b", "y"]⟩], none⟩ ∧
    ∃ s, (nestedDisk.pin ["m", "s"]).snapshot (Path.parse "s") = .ok s ∧
      s.keys = ["z", "m/q", "b/y"] := by
  have hlinkless : nestedDisk.Linkless :=
    linkless_of_inventory (p := Path.parse "") (by decide +kernel)
  have hroot : nestedDisk.locate (Path.parse "s") = .ok [("s" : Text)] := by decide +kernel
  have hdirectory : nestedDisk.HasDirectory ["s"] :=
    ⟨[("z", none), ("b", none), ("m", none)], by decide +kernel⟩
  have hnear : nestedDisk.IsNear (Path.parse "s") ["s"] :=
    isNear_of_inventory rfl (by decide +kernel) (by decide +kernel)
  obtain ⟨-, hsnapshot, -, hwalk, hkeys, horder⟩ := filesBelow_eq_descent hlinkless hroot hdirectory
  obtain ⟨s, hs⟩ := hsnapshot.2 hnear
  obtain ⟨hfiles', hsnapshot'⟩ := horder _ (sameButOrder_pin nestedDisk ["m", "s"])
  refine ⟨hlinkless, hroot, hdirectory, by decide_cbv, by decide_cbv, ?_, s, ?_, ?_⟩
  · rw [hfiles', hwalk hnear, descent_nestedDisk]
  · rw [hsnapshot', hs]
  · rw [(hkeys s hs).1, descent_nestedDisk]
    decide +kernel

/-- A name of 250 bytes. -/
def farName : Text := List.replicate 250 (CodePoint.ofChar 'x')

/-- A name of 50 bytes. -/
def farFile : Text := List.replicate 50 (CodePoint.ofChar 'n')

/-- A path of 4060 bytes that goes in and out of one directory. -/
def farRoot : Path :=
  ⟨.here, (List.replicate 15 [farName, dotDot]).flatten ++ [farName]⟩

/-- A disk with a file whose path from there has 4111 bytes. -/
def farDisk : Disk :=
  (Disk.empty.putDirectory [farName]).putFile [farFile, farName] [97] (.fresh 0)

/-- Below that path the walk and the snapshot fail, though nothing disappears. -/
theorem filesBelow_far : farDisk.Linkless ∧ farDisk.locate farRoot = .ok [farName] ∧
    farDisk.HasDirectory [farName] ∧ farDisk.fleeting = [] ∧
    farDisk.face? [farFile, farName] = some (.file [97] (.fresh 0)) ∧
    farDisk.descent farRoot = [farRoot.child farFile] ∧
    farDisk.filesBelow farRoot =
      ⟨[], some (.system .nameTooLong (farRoot.child farFile) none)⟩ ∧
    farDisk.snapshot farRoot = .error (.system .nameTooLong (farRoot.child farFile) none) := by
  have hlinkless : farDisk.Linkless :=
    linkless_of_inventory (p := Path.parse "") (by decide +kernel)
  have hroot : farDisk.locate farRoot = .ok [farName] := by decide +kernel
  have hdirectory : farDisk.HasDirectory [farName] := ⟨[(farFile, none)], by decide +kernel⟩
  have hsteady : farDisk.fleeting = [] := by decide +kernel
  have hlist : farDisk.list farRoot = .ok [farFile] := list_eq_ok_iff.2
    ⟨[farName], hroot, hdirectory, hsteady ▸ List.not_mem_nil, by decide +kernel⟩
  have hsort : Text.sort [farFile] = [farFile] := List.mergeSort_singleton farFile
  have hunclear : farDisk.isDirectory (farRoot.child farFile) =
      .error (.system .nameTooLong (farRoot.child farFile) none) := by decide +kernel
  have hfiles : farDisk.descent farRoot = [farRoot.child farFile] := by
    simp [descent_of_list hlist, hsort, hunclear]
  have hlook : farDisk.look farRoot [farFile] =
      ⟨[], [], some (.system .nameTooLong (farRoot.child farFile) none)⟩ := by
    simp [look, hsort, sortOut, hunclear]
  have hwalk : farDisk.filesBelow farRoot =
      ⟨[], some (.system .nameTooLong (farRoot.child farFile) none)⟩ := by
    rw [filesBelow, isDirectory_eq_true_iff.2 ⟨_, hroot, hdirectory⟩]
    dsimp only
    rw [filesFrom_halted [] hlist (by rw [hlook]), hlook]
  exact ⟨hlinkless, hroot, hdirectory, hsteady, by decide +kernel, hfiles, hwalk,
    by rw [snapshot, hwalk]; rfl⟩

end Disk

end Storage

end OnePage
