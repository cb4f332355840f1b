import OnePage.Proofs.Storage.Keep
import OnePage.Proofs.Storage.Names
import OnePage.Storage.Walk

/-!
# What a walk meets

A walk keeps a list of directories still to be visited.  Which directories it comes to and which
entries it meets there does not depend on that list.

* `Disk.Visits` and `Disk.Meets` — the directories a walk comes to and the entries of these, as
  relations.
* **`Disk.mem_filesFrom_iff`** and **`Disk.failure_filesFrom_eq_none_iff`** — the files of a walk,
  and when it comes to its end.
* **`Disk.nodup_filesFrom`** — a walk meets no path twice, whatever links there are.
* `Disk.Unfolds` — what walks have in common, and `Disk.Unfolds.nodup` — no directory has its turn
  twice.
-/

namespace OnePage

namespace Storage

/-- The fault that says that there is nothing. -/
def Fault.IsNoEntry (fault : Fault) : Prop := ∃ p target, fault = .system .noEntry p target

namespace Disk

variable {disk : Disk} {p q root : Path} {names : List Text}

/-! ## One visit -/

section SortOut

variable {directory : Path}

lemma failure_sortOut_eq_none_iff : (disk.sortOut directory names).failure = none ↔
    ∀ name ∈ names, ∃ answer, disk.isDirectory (directory.child name) = .ok answer := by
  induction names with
  | nil => simp [sortOut]
  | cons name names ih =>
    rw [sortOut]
    cases hname : disk.isDirectory (directory.child name) with
    | error fault => simp [hname]
    | ok answer => cases answer <;> simp [hname, ih]

/-- A visit that comes to its end has told the files and the directories apart. -/
lemma sortOut_eq (h : (disk.sortOut directory names).failure = none) :
    disk.sortOut directory names =
      ⟨(names.map directory.child).filter fun p => disk.isDirectory p = .ok false,
        (names.map directory.child).filter fun p => disk.isDirectory p = .ok true, none⟩ := by
  induction names with
  | nil => rfl
  | cons name names ih =>
    rw [sortOut] at h ⊢
    cases hname : disk.isDirectory (directory.child name) with
    | error fault => simp [hname] at h
    | ok answer => cases answer <;> simp only [hname] at h ⊢ <;> simp [hname, ih h]

/-- Otherwise there is an entry of which it cannot be told what it is. -/
lemma exists_of_failure_sortOut {fault : Fault}
    (h : (disk.sortOut directory names).failure = some fault) :
    ∃ name ∈ names, disk.isDirectory (directory.child name) = .error fault := by
  induction names with
  | nil => simp [sortOut] at h
  | cons name names ih =>
    rw [sortOut] at h
    cases hname : disk.isDirectory (directory.child name) with
    | error fault' =>
      obtain rfl : fault' = fault := by simpa [hname] using h
      exact ⟨name, List.mem_cons_self, hname⟩
    | ok answer =>
      obtain ⟨other, hother, hfault⟩ := ih (by cases answer <;> simpa [hname] using h)
      exact ⟨other, List.mem_cons_of_mem _ hother, hfault⟩

/-- The files found up to then are entries that are no directories. -/
lemma exists_of_mem_files_sortOut (h : q ∈ (disk.sortOut directory names).files) :
    ∃ name ∈ names, directory.child name = q ∧ disk.isDirectory q = .ok false := by
  induction names with
  | nil => simp [sortOut] at h
  | cons name names ih =>
    rw [sortOut] at h
    cases hname : disk.isDirectory (directory.child name) with
    | error fault => simp [hname] at h
    | ok answer =>
      have hmem : (answer = false ∧ q = directory.child name) ∨
          q ∈ (disk.sortOut directory names).files := by
        cases answer <;> simpa [hname] using h
      rcases hmem with ⟨rfl, rfl⟩ | hmem
      · exact ⟨name, List.mem_cons_self, rfl, hname⟩
      · obtain ⟨other, hother, hq⟩ := ih hmem
        exact ⟨other, List.mem_cons_of_mem _ hother, hq⟩

end SortOut

lemma mem_sort {name : Text} : name ∈ Text.sort names ↔ name ∈ names :=
  (List.mergeSort_perm names Text.le).mem_iff

lemma mem_files_look (h : (disk.look p names).failure = none) :
    q ∈ (disk.look p names).files ↔
      ∃ name ∈ names, p.child name = q ∧ disk.isDirectory q = .ok false := by
  rw [look, sortOut_eq h]
  simp only [List.mem_filter, List.mem_map, mem_sort, decide_eq_true_eq]
  constructor
  · rintro ⟨⟨name, hname, hq⟩, hfile⟩
    exact ⟨name, hname, hq, hfile⟩
  · rintro ⟨name, hname, hq, hfile⟩
    exact ⟨⟨name, hname, hq⟩, hfile⟩

lemma mem_directories_look (h : (disk.look p names).failure = none) :
    q ∈ (disk.look p names).directories ↔
      ∃ name ∈ names, p.child name = q ∧ disk.isDirectory q = .ok true := by
  rw [look, sortOut_eq h]
  simp only [List.mem_filter, List.mem_map, mem_sort, decide_eq_true_eq]
  constructor
  · rintro ⟨⟨name, hname, hq⟩, hdirectory⟩
    exact ⟨name, hname, hq, hdirectory⟩
  · rintro ⟨name, hname, hq, hdirectory⟩
    exact ⟨⟨name, hname, hq⟩, hdirectory⟩

lemma failure_look_eq_none_iff : (disk.look p names).failure = none ↔
    ∀ name ∈ names, ∃ answer, disk.isDirectory (p.child name) = .ok answer := by
  rw [look, failure_sortOut_eq_none_iff]
  simp only [mem_sort]

/-! ## Whole walks -/

/-- The directories that a walk from a directory comes to. -/
inductive Visits (disk : Disk) : Path → Path → Prop
  | here (p : Path) : disk.Visits p p
  | child {p q : Path} {names : List Text} {name : Text} (hlist : disk.list p = .ok names)
      (hname : name ∈ names) (hdirectory : disk.isDirectory (p.child name) = .ok true)
      (hvisits : disk.Visits (p.child name) q) : disk.Visits p q

/-- A walk goes on from whatever directory it has come to. -/
lemma Visits.next {name : Text} (h : disk.Visits p q) (hlist : disk.list q = .ok names)
    (hname : name ∈ names) (hdirectory : disk.isDirectory (q.child name) = .ok true) :
    disk.Visits p (q.child name) := by
  induction h with
  | here p => exact .child hlist hname hdirectory (.here _)
  | child hfirst hmem htrue _ ih => exact .child hfirst hmem htrue (ih hlist hdirectory)

/-- What a walk from a directory meets: the entries of the directories it comes to. -/
def Meets (disk : Disk) (p q : Path) : Prop :=
  ∃ directory names, disk.Visits p directory ∧ disk.list directory = .ok names ∧
    ∃ name ∈ names, directory.child name = q

/-- What a walk meets is met in the first directory or from one of its directories on. -/
lemma meets_iff (hlist : disk.list p = .ok names) : disk.Meets p q ↔
    ∃ name ∈ names, p.child name = q ∨
      (disk.isDirectory (p.child name) = .ok true ∧ disk.Meets (p.child name) q) := by
  constructor
  · rintro ⟨directory, found, hvisits, hfound, name, hname, rfl⟩
    cases hvisits with
    | here =>
      obtain rfl : names = found := Except.ok.inj (hlist.symm.trans hfound)
      exact ⟨name, hname, .inl rfl⟩
    | child hlist' hname' hdirectory hvisits =>
      obtain rfl := Except.ok.inj (hlist.symm.trans hlist')
      exact ⟨_, hname', .inr ⟨hdirectory, directory, found, hvisits, hfound, name, hname, rfl⟩⟩
  · rintro ⟨name, hname, rfl | ⟨hdirectory, directory, found, hvisits, hfound, hmem⟩⟩
    · exact ⟨p, names, .here p, hlist, name, hname, rfl⟩
    · exact ⟨directory, found, .child hlist hname hdirectory hvisits, hfound, hmem⟩

lemma not_meets_of_list_error {fault : Fault} (hlist : disk.list p = .error fault) :
    ¬ disk.Meets p q := by
  rintro ⟨directory, names, hvisits, hnames, -⟩
  cases hvisits with
  | here => simp [hlist] at hnames
  | child hlist' => simp [hlist] at hlist'

/-- Nothing on a walk from a directory keeps it from coming to its end. -/
def Passable (disk : Disk) (p : Path) : Prop :=
  (∀ q, disk.Visits p q → ∀ fault, disk.list q = .error fault → fault.IsNoEntry) ∧
    ∀ q, disk.Meets p q → ∃ answer, disk.isDirectory q = .ok answer

lemma passable_of_gone {fault : Fault} (hlist : disk.list p = .error fault)
    (hgone : fault.IsNoEntry) : disk.Passable p := by
  constructor
  · intro q hvisits fault' hfault'
    cases hvisits with
    | here =>
      obtain rfl := Except.error.inj (hlist.symm.trans hfault')
      exact hgone
    | child hlist' => simp [hlist] at hlist'
  · intro q hmeets
    exact absurd hmeets (not_meets_of_list_error hlist)

lemma passable_iff (hlist : disk.list p = .ok names) : disk.Passable p ↔
    (disk.look p names).failure = none ∧
      ∀ q ∈ (disk.look p names).directories, disk.Passable q := by
  rw [failure_look_eq_none_iff]
  constructor
  · rintro ⟨hvisited, hmet⟩
    have hlook : ∀ name ∈ names, ∃ answer, disk.isDirectory (p.child name) = .ok answer :=
      fun name hname => hmet _ ((meets_iff hlist).2 ⟨name, hname, .inl rfl⟩)
    refine ⟨hlook, fun q hq => ?_⟩
    obtain ⟨name, hname, rfl, hdirectory⟩ :=
      (mem_directories_look (failure_look_eq_none_iff.2 hlook)).1 hq
    constructor
    · intro q hvisits
      exact hvisited q (.child hlist hname hdirectory hvisits)
    · intro q hmeets
      exact hmet q ((meets_iff hlist).2 ⟨name, hname, .inr ⟨hdirectory, hmeets⟩⟩)
  · rintro ⟨hlook, hbelow⟩
    have hchild (name : Text) (hname : name ∈ names)
        (hdirectory : disk.isDirectory (p.child name) = .ok true) :
        disk.Passable (p.child name) :=
      hbelow _ ((mem_directories_look (failure_look_eq_none_iff.2 hlook)).2
        ⟨name, hname, rfl, hdirectory⟩)
    constructor
    · intro q hvisits fault hfault
      cases hvisits with
      | here => simp [hlist] at hfault
      | child hlist' hname hdirectory hvisits =>
        obtain rfl := Except.ok.inj (hlist.symm.trans hlist')
        exact (hchild _ hname hdirectory).1 q hvisits fault hfault
    · intro q hmeets
      obtain ⟨name, hname, rfl | ⟨hdirectory, hmeets⟩⟩ := (meets_iff hlist).1 hmeets
      · exact hlook name hname
      · exact (hchild name hname hdirectory).2 q hmeets

/-- A directory that is gone is passed over. -/
lemma filesFrom_gone {fault : Fault} (pending : List Path) (hlist : disk.list p = .error fault)
    (hgone : fault.IsNoEntry) : disk.filesFrom (p :: pending) = disk.filesFrom pending := by
  obtain ⟨path, target, rfl⟩ := hgone
  rw [filesFrom]
  split
  · rfl
  · next hother hfault =>
    obtain rfl := Except.error.inj (hlist.symm.trans hfault)
    exact absurd rfl (hother path target)
  · next hnames => simp [hlist] at hnames

/-- The files of a directory come first, and its directories are visited before the others. -/
lemma filesFrom_visit (pending : List Path) (hlist : disk.list p = .ok names)
    (hlook : (disk.look p names).failure = none) :
    disk.filesFrom (p :: pending) =
      let rest := disk.filesFrom ((disk.look p names).directories.reverse ++ pending)
      ⟨(disk.look p names).files ++ rest.files, rest.failure⟩ := by
  rw [filesFrom]
  split
  · next hfault => simp [hlist] at hfault
  · next hfault => simp [hlist] at hfault
  · next names' hnames =>
    obtain rfl := Except.ok.inj (hnames.symm.trans hlist)
    simp [hlook]

/-- A directory that cannot be listed ends the walk, unless it is gone. -/
lemma filesFrom_stuck {fault : Fault} (pending : List Path) (hlist : disk.list p = .error fault)
    (hnot : ¬ fault.IsNoEntry) : disk.filesFrom (p :: pending) = ⟨[], some fault⟩ := by
  rw [filesFrom]
  split
  · next path target hfault =>
    exact absurd ⟨path, target, Except.error.inj (hlist.symm.trans hfault)⟩ hnot
  · next hfault => rw [Except.error.inj (hlist.symm.trans hfault)]
  · next hnames => simp [hlist] at hnames

/-- So does a visit that ends early. -/
lemma filesFrom_halted {fault : Fault} (pending : List Path) (hlist : disk.list p = .ok names)
    (hlook : (disk.look p names).failure = some fault) :
    disk.filesFrom (p :: pending) = ⟨(disk.look p names).files, some fault⟩ := by
  rw [filesFrom]
  split
  · next hfault => simp [hlist] at hfault
  · next hfault => simp [hlist] at hfault
  · next hnames =>
    obtain rfl := Except.ok.inj (hlist.symm.trans hnames)
    simp [hlook]

/-- **When a walk comes to its end.** -/
lemma failure_filesFrom_eq_none_iff {pending : List Path} :
    (disk.filesFrom pending).failure = none ↔ ∀ p ∈ pending, disk.Passable p := by
  induction pending using filesFrom.induct disk with
  | case1 => simp [filesFrom]
  | case2 p pending path target hlist ih =>
    have hgone : (Fault.system .noEntry path target).IsNoEntry := ⟨path, target, rfl⟩
    rw [filesFrom_gone pending hlist hgone, ih, List.forall_mem_cons,
      and_iff_right (passable_of_gone hlist hgone)]
  | case3 p pending fault hother hlist =>
    have hnot : ¬ fault.IsNoEntry := fun ⟨path, target, heq⟩ => hother path target heq
    rw [filesFrom_stuck pending hlist hnot]
    exact iff_of_false (by simp) fun hall => hnot ((hall p (by simp)).1 p (.here p) fault hlist)
  | case4 p pending names hlist look fault hfailure =>
    have hlook : (disk.look p names).failure = some fault := hfailure
    rw [filesFrom_halted pending hlist hlook]
    refine iff_of_false (by simp) fun hall => ?_
    have hnone := ((passable_iff hlist).1 (hall p (by simp))).1
    simp [hlook] at hnone
  | case5 p pending names hlist look hfailure ih =>
    rw [filesFrom_visit pending hlist hfailure]
    dsimp only
    rw [ih, List.forall_mem_append, List.forall_mem_cons, passable_iff hlist,
      and_iff_right (show (disk.look p names).failure = none from hfailure)]
    simp only [List.mem_reverse]
    exact Iff.rfl

/-- Induction along a walk that comes to its end: a directory is gone when its turn comes, or it is
visited. -/
lemma walk_induction {motive : List Path → Prop} (hnil : motive [])
    (hgone : ∀ p pending fault, disk.list p = .error fault → fault.IsNoEntry → motive pending →
      motive (p :: pending))
    (hvisit : ∀ p pending names, disk.list p = .ok names → (disk.look p names).failure = none →
      (∀ q ∈ (disk.look p names).directories.reverse ++ pending, disk.Passable q) →
      motive ((disk.look p names).directories.reverse ++ pending) → motive (p :: pending))
    {pending : List Path} (hpassable : ∀ p ∈ pending, disk.Passable p) : motive pending := by
  induction pending using filesFrom.induct disk with
  | case1 => exact hnil
  | case2 p pending path target hlist ih =>
    exact hgone p pending _ hlist ⟨path, target, rfl⟩ (ih fun q hq => hpassable q (by simp [hq]))
  | case3 p pending fault hother hlist =>
    obtain ⟨path, target, rfl⟩ := (hpassable p (by simp)).1 p (.here p) fault hlist
    exact absurd rfl (hother path target)
  | case4 p pending names hlist look fault hfailure =>
    have hnone := ((passable_iff hlist).1 (hpassable p (by simp))).1
    have hlook : (disk.look p names).failure = some fault := hfailure
    simp [hlook] at hnone
  | case5 p pending names hlist look hfailure ih =>
    obtain ⟨-, hbelow⟩ := (passable_iff hlist).1 (hpassable p (by simp))
    have hnext : ∀ q ∈ (disk.look p names).directories.reverse ++ pending, disk.Passable q := by
      intro q hq
      rcases List.mem_append.1 hq with hq | hq
      · exact hbelow q (List.mem_reverse.1 hq)
      · exact hpassable q (by simp [hq])
    exact hvisit p pending names hlist hfailure hnext (ih hnext)

/-- **The files of a walk** are those that it meets and that are no directories. -/
lemma mem_filesFrom_iff {pending : List Path} (hpassable : ∀ p ∈ pending, disk.Passable p) :
    q ∈ (disk.filesFrom pending).files ↔
      ∃ p ∈ pending, disk.Meets p q ∧ disk.isDirectory q = .ok false := by
  refine walk_induction (motive := fun pending => q ∈ (disk.filesFrom pending).files ↔
    ∃ p ∈ pending, disk.Meets p q ∧ disk.isDirectory q = .ok false) ?_ ?_ ?_ hpassable
  · simp [filesFrom]
  · intro p pending fault hlist hgone ih
    rw [filesFrom_gone pending hlist hgone, ih]
    have hnone : ¬ disk.Meets p q := not_meets_of_list_error hlist
    simp [hnone]
  · intro p pending names hlist hlook _ ih
    rw [filesFrom_visit pending hlist hlook]
    dsimp only
    rw [List.mem_append, mem_files_look hlook, ih]
    simp only [List.mem_append, List.mem_reverse, mem_directories_look hlook, List.mem_cons]
    constructor
    · rintro (⟨name, hname, hq, hfile⟩ | ⟨r, ⟨name, hname, rfl, hdirectory⟩ | hr, hmeets, hfile⟩)
      · exact ⟨p, .inl rfl, (meets_iff hlist).2 ⟨name, hname, .inl hq⟩, hfile⟩
      · exact ⟨p, .inl rfl, (meets_iff hlist).2 ⟨name, hname, .inr ⟨hdirectory, hmeets⟩⟩, hfile⟩
      · exact ⟨r, .inr hr, hmeets, hfile⟩
    · rintro ⟨r, rfl | hr, hmeets, hfile⟩
      · obtain ⟨name, hname, hq | ⟨hdirectory, hmeets⟩⟩ := (meets_iff hlist).1 hmeets
        · exact .inl ⟨name, hname, hq, hfile⟩
        · exact .inr ⟨_, .inl ⟨name, hname, rfl, hdirectory⟩, hmeets, hfile⟩
      · exact .inr ⟨r, .inr hr, hmeets, hfile⟩

/-! ## Paths are met once -/

/-- A path lies below another one: it goes on from there with valid names. -/
def Below (p q : Path) : Prop :=
  ∃ names, names ≠ [] ∧ (∀ name ∈ names, validName name) ∧ q = ⟨p.anchor, p.parts ++ names⟩

lemma below_of_meets (h : disk.Meets p q) : Below p q := by
  obtain ⟨directory, names, hvisits, hlist, name, hname, rfl⟩ := h
  have hvalid := disk.validName_of_list hlist hname
  clear hlist
  induction hvisits with
  | here p => exact ⟨[name], by simp, by simpa using hvalid, rfl⟩
  | @child p q found first hlist hfirst hdirectory hvisits ih =>
    obtain ⟨inner, -, hinner, hq⟩ := ih
    refine ⟨first :: inner, by simp, ?_, by rw [hq]; simp [Path.child]⟩
    exact List.forall_mem_cons.2 ⟨disk.validName_of_list hlist hfirst, hinner⟩

lemma Below.prefix_parts (h : Below p q) : p.parts <+: q.parts := by
  obtain ⟨names, -, -, rfl⟩ := h
  exact List.prefix_append _ _

/-- No entry of a directory lies below another entry. -/
lemma Below.ne_child {a b : Text} (h : Below (p.child a) q) : q ≠ p.child b := by
  obtain ⟨names, hne, -, rfl⟩ := h
  intro heq
  have hparts : p.parts ++ [a] ++ names = p.parts ++ [b] := congrArg Path.parts heq
  rw [List.append_assoc, List.append_cancel_left_eq, List.singleton_append] at hparts
  exact hne (List.cons.inj hparts).2

/-- Neither of two paths goes on from the other one. -/
def Parted (p q : Path) : Prop := ¬ p.parts <+: q.parts ∧ ¬ q.parts <+: p.parts

/-- What goes on from parted paths is not the same. -/
lemma Parted.ne {r s : Path} (h : Parted p q) (hr : p.parts <+: r.parts)
    (hs : q.parts <+: s.parts) :
    r ≠ s := by
  rintro rfl
  rcases List.prefix_or_prefix_of_prefix hr hs with hpq | hqp
  · exact h.1 hpq
  · exact h.2 hqp

lemma prefix_parts_child (p : Path) (name : Text) : p.parts <+: (p.child name).parts :=
  List.prefix_append _ _

lemma Parted.child (h : Parted p q) (name : Text) : Parted (p.child name) q := by
  constructor
  · intro hprefix
    exact h.1 ((prefix_parts_child p name).trans hprefix)
  · intro hprefix
    rcases List.prefix_or_prefix_of_prefix hprefix (prefix_parts_child p name) with hqp | hpq
    · exact h.2 hqp
    · exact h.1 hpq

lemma parted_child_child {a b : Text} (h : a ≠ b) : Parted (p.child a) (p.child b) := by
  simp [Parted, Path.child, h, Ne.symm h]

/-- The names in a directory are distinct. -/
lemma nodup_of_list (hlist : disk.list p = .ok names) : names.Nodup := by
  rw [list] at hlist
  cases hfollow : disk.follow false p p.parts with
  | error fault => simp [hfollow] at hlist
  | ok trail =>
    obtain ⟨-, m, place, -, rfl⟩ := follow_eq_ok_iff.1 hfollow
    simp only [hfollow, node?_trail] at hlist
    split at hlist
    · next entries hentries =>
      split_ifs at hlist
      obtain rfl := Except.ok.inj hlist
      have hsound : Entries.Sound entries := Node.sound_directory.1 (disk.sound_node? hentries)
      have hperm := (List.mergeSort_perm entries Entries.listedBefore).map Entry.name
      exact hperm.nodup_iff.2 hsound.distinct
    · simp at hlist
    · simp at hlist

/-- What a visit finds are entries of the directory, each of them once. -/
lemma look_sublist (hlook : (disk.look p names).failure = none) :
    (disk.look p names).files.Sublist ((Text.sort names).map p.child) ∧
      (disk.look p names).directories.Sublist ((Text.sort names).map p.child) := by
  rw [look, sortOut_eq hlook]
  exact ⟨List.filter_sublist, List.filter_sublist⟩

lemma pairwise_sort (hlist : disk.list p = .ok names) :
    ((Text.sort names).map p.child).Pairwise Parted := by
  have hnodup : (Text.sort names).Nodup :=
    (List.mergeSort_perm names Text.le).nodup_iff.2 (nodup_of_list hlist)
  rw [List.pairwise_map]
  exact hnodup.imp fun hne => parted_child_child hne

/-- What is put in front goes on from none of the others, if it was found in the first directory. -/
lemma pairwise_parted_append {pending more : List Path}
    (hparted : (p :: pending).Pairwise Parted) (hmore : ∀ q ∈ more, ∃ name, p.child name = q)
    (hapart : more.Pairwise Parted) : (more ++ pending).Pairwise Parted := by
  obtain ⟨hfirst, hothers⟩ := List.pairwise_cons.1 hparted
  refine List.pairwise_append.2 ⟨hapart, hothers, fun q hq r hr => ?_⟩
  obtain ⟨name, rfl⟩ := hmore q hq
  exact (hfirst r hr).child name

lemma child_of_mem_directories_look (hlook : (disk.look p names).failure = none)
    (hq : q ∈ (disk.look p names).directories.reverse) : ∃ name, p.child name = q := by
  obtain ⟨name, -, hname, -⟩ := (mem_directories_look hlook).1 (List.mem_reverse.1 hq)
  exact ⟨name, hname⟩

lemma pairwise_directories_look (hlist : disk.list p = .ok names)
    (hlook : (disk.look p names).failure = none) :
    (disk.look p names).directories.reverse.Pairwise Parted :=
  List.pairwise_reverse.2
    (((pairwise_sort hlist).sublist (look_sublist hlook).2).imp And.symm)

/-- The directories that a visit puts in front go on from none of the others. -/
lemma pairwise_parted_next {pending : List Path} (hparted : (p :: pending).Pairwise Parted)
    (hlist : disk.list p = .ok names) (hlook : (disk.look p names).failure = none) :
    ((disk.look p names).directories.reverse ++ pending).Pairwise Parted :=
  pairwise_parted_append hparted (fun _ => child_of_mem_directories_look hlook)
    (pairwise_directories_look hlist hlook)

/-- **Unfolding.**  A list of directories still to be visited is worked off.  What a visit finds
comes next: entries of the directory, each of them once.  A visit may also end everything. -/
inductive Unfolds : List Path → List Path → Prop
  /-- Nothing is left to visit. -/
  | done : Unfolds [] []
  /-- It ends with this directory. -/
  | stop (p : Path) (pending : List Path) : Unfolds (p :: pending) [p]
  /-- A directory is visited, and more are found there. -/
  | turn {p : Path} {pending more turns : List Path}
      (hmore : ∀ q ∈ more, ∃ name, p.child name = q) (hapart : more.Pairwise Parted)
      (hrest : Unfolds (more ++ pending) turns) : Unfolds (p :: pending) (p :: turns)

/-- Whatever comes up goes on from one of the directories still to be visited. -/
lemma Unfolds.prefix_parts {pending turns : List Path} (h : Unfolds pending turns)
    (hq : q ∈ turns) : ∃ p ∈ pending, p.parts <+: q.parts := by
  induction h with
  | done => simp at hq
  | stop p pending => exact ⟨p, by simp, by simp [List.mem_singleton.1 hq]⟩
  | @turn p pending more turns hmore hapart hrest ih =>
    rcases List.mem_cons.1 hq with rfl | hq
    · exact ⟨q, by simp, List.prefix_refl _⟩
    · obtain ⟨r, hr, hprefix⟩ := ih hq
      rcases List.mem_append.1 hr with hr | hr
      · obtain ⟨name, rfl⟩ := hmore r hr
        exact ⟨p, by simp, (prefix_parts_child p name).trans hprefix⟩
      · exact ⟨r, by simp [hr], hprefix⟩

/-- **No directory has its turn twice.** -/
lemma Unfolds.nodup {pending turns : List Path} (h : Unfolds pending turns)
    (hparted : pending.Pairwise Parted) : turns.Nodup := by
  induction h with
  | done => exact List.nodup_nil
  | stop p pending => exact List.nodup_singleton p
  | @turn p pending more turns hmore hapart hrest ih =>
    refine List.nodup_cons.2
      ⟨fun hagain => ?_, ih (pairwise_parted_append hparted hmore hapart)⟩
    obtain ⟨r, hr, hprefix⟩ := hrest.prefix_parts hagain
    rcases List.mem_append.1 hr with hr | hr
    · -- what a visit finds is longer than the directory visited
      obtain ⟨name, rfl⟩ := hmore r hr
      have hlength := hprefix.length_le
      simp [Path.child] at hlength
    · exact ((List.pairwise_cons.1 hparted).1 r hr).ne (List.prefix_refl _) hprefix rfl

/-- **A walk meets no path twice.** -/
lemma nodup_filesFrom {pending : List Path} (hpassable : ∀ p ∈ pending, disk.Passable p)
    (hparted : pending.Pairwise Parted) : (disk.filesFrom pending).files.Nodup := by
  refine walk_induction (motive := fun pending => pending.Pairwise Parted →
    (disk.filesFrom pending).files.Nodup) ?_ ?_ ?_ hpassable hparted
  · intro _
    simp [filesFrom]
  · intro p pending fault hlist hgone ih hparted
    rw [filesFrom_gone pending hlist hgone]
    exact ih (List.pairwise_cons.1 hparted).2
  · intro p pending names hlist hlook hpassable ih hparted
    obtain ⟨hfirst, -⟩ := List.pairwise_cons.1 hparted
    have hnext := pairwise_parted_next hparted hlist hlook
    rw [filesFrom_visit pending hlist hlook]
    refine List.nodup_append.2 ⟨?_, ih hnext, fun q hq r hr => ?_⟩
    · exact ((pairwise_sort hlist).sublist (look_sublist hlook).1).imp fun hne =>
        hne.ne (List.prefix_refl _) (List.prefix_refl _)
    · -- a file of this directory is not met again in another one
      obtain ⟨name, -, rfl, -⟩ := (mem_files_look hlook).1 hq
      obtain ⟨s, hs, hmeets, -⟩ := (mem_filesFrom_iff hpassable).1 hr
      have hbelow := below_of_meets hmeets
      rcases List.mem_append.1 hs with hs | hs
      · obtain ⟨other, -, rfl, -⟩ := (mem_directories_look hlook).1 (List.mem_reverse.1 hs)
        exact hbelow.ne_child.symm
      · exact (hfirst s hs).ne (prefix_parts_child p name) hbelow.prefix_parts

end Disk

end Storage

end OnePage
