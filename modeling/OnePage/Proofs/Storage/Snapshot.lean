import OnePage.Proofs.Storage.Walk

/-!
# Snapshots

* `Disk.exists_snapshot_iff` — when a snapshot can be taken: what is met on the walk has to be found
  or to be gone.
* **`Disk.keys_snapshot`** — every file of a snapshot has a key of its own, and its path is found
  again from it.
* `Strands` lists the reasons for which a path may lead nowhere, and `Disk.Meets.find_error` says
  that there are no others on a walk.
* **`Disk.exists_snapshot_iff_unobstructed`** — what is in the way of a snapshot.
-/

namespace OnePage

namespace Storage

namespace Disk

variable {disk : Disk} {p q root : Path} {names : List Text}

/-! ## Snapshots -/

lemma find_of_isDirectory (h : disk.isDirectory p = .ok true) :
    ∃ entries, disk.find p = .ok (.directory entries) := by
  rw [isDirectory, leadsTo] at h
  cases hfind : disk.find p with
  | error fault =>
    simp only [hfind] at h
    split at h <;> simp at h
  | ok node => cases node <;> simp [hfind, Node.isDirectory] at h ⊢

/-- What leads to a directory can be listed, or the directory is gone. -/
lemma list_of_isDirectory (h : disk.isDirectory p = .ok true) {fault : Fault}
    (hlist : disk.list p = .error fault) : fault.IsNoEntry := by
  obtain ⟨entries, hfind⟩ := find_of_isDirectory h
  rw [find] at hfind
  rw [list] at hlist
  cases hfollow : disk.follow false p p.parts with
  | error fault' => simp [hfollow] at hfind
  | ok trail =>
    simp only [hfollow] at hfind hlist
    cases hnode : trail.node? disk.root with
    | none => simp [hnode] at hfind
    | some node =>
      simp only [hnode, Except.ok.injEq] at hfind
      subst hfind
      simp only [hnode] at hlist
      split at hlist
      · exact ⟨p, none, (Except.error.inj hlist).symm⟩
      · cases hlist

lemma isDirectory_of_list (hlist : disk.list p = .ok names) : disk.isDirectory p = .ok true := by
  rw [list] at hlist
  rw [isDirectory, leadsTo, find]
  cases hfollow : disk.follow false p p.parts with
  | error fault => simp [hfollow] at hlist
  | ok trail =>
    simp only [hfollow] at hlist
    split at hlist
    · next entries hnode => simp [hnode, Node.isDirectory]
    · cases hlist
    · cases hlist

lemma isDirectory_of_find_error {fault : Fault} (hfind : disk.find p = .error fault)
    (hgone : fault.IsNoEntry) : disk.isDirectory p = .ok false := by
  obtain ⟨path, target, rfl⟩ := hgone
  simp [isDirectory, leadsTo, hfind, Fault.meansAbsent]

lemma Visits.isDirectory (h : disk.Visits p q) (hp : disk.isDirectory p = .ok true) :
    disk.isDirectory q = .ok true := by
  induction h with
  | here => exact hp
  | child _ _ hdirectory _ ih => exact ih hdirectory

/-- **Where a walk ends early.**  Its files are met on the way, whether it comes to its end or not;
and if it does not, then it has met something of which it cannot be told what it is. -/
lemma filesFrom_meets {pending : List Path} (hroot : disk.isDirectory root = .ok true)
    (hpending : ∀ p ∈ pending, disk.Visits root p) :
    (∀ q ∈ (disk.filesFrom pending).files, disk.Meets root q ∧ disk.isDirectory q = .ok false) ∧
      ∀ fault, (disk.filesFrom pending).failure = some fault →
        ∃ q, disk.Meets root q ∧ disk.isDirectory q = .error fault := by
  induction pending using filesFrom.induct disk with
  | case1 => simp [filesFrom]
  | case2 p pending path target hlist ih =>
    rw [filesFrom_gone pending hlist ⟨path, target, rfl⟩]
    exact ih fun q hq => hpending q (by simp [hq])
  | case3 p pending fault hother hlist =>
    -- what leads to a directory can be listed, unless it is gone
    obtain ⟨path, target, rfl⟩ :=
      list_of_isDirectory ((hpending p (by simp)).isDirectory hroot) hlist
    exact absurd rfl (hother path target)
  | case4 p pending names hlist look fault hfailure =>
    have hlook : (disk.look p names).failure = some fault := hfailure
    have hp : disk.Visits root p := hpending p (by simp)
    rw [filesFrom_halted pending hlist hlook]
    constructor
    · intro q hq
      obtain ⟨name, hname, rfl, hfile⟩ := exists_of_mem_files_sortOut hq
      exact ⟨⟨p, names, hp, hlist, name, mem_sort.1 hname, rfl⟩, hfile⟩
    · intro fault' hfault'
      obtain rfl := Option.some.inj hfault'
      obtain ⟨name, hname, hfault⟩ := exists_of_failure_sortOut hlook
      exact ⟨_, ⟨p, names, hp, hlist, name, mem_sort.1 hname, rfl⟩, hfault⟩
  | case5 p pending names hlist look hfailure ih =>
    have hlook : (disk.look p names).failure = none := hfailure
    have hp : disk.Visits root p := hpending p (by simp)
    obtain ⟨hfiles, hfails⟩ := ih fun q hq => by
      rcases List.mem_append.1 hq with hq | hq
      · obtain ⟨name, hname, rfl, htrue⟩ := (mem_directories_look hlook).1 (List.mem_reverse.1 hq)
        exact hp.next hlist hname htrue
      · exact hpending q (by simp [hq])
    rw [filesFrom_visit pending hlist hlook]
    refine ⟨fun q hq => ?_, hfails⟩
    rcases List.mem_append.1 hq with hq | hq
    · obtain ⟨name, hname, rfl, hfile⟩ := (mem_files_look hlook).1 hq
      exact ⟨⟨p, names, hp, hlist, name, hname, rfl⟩, hfile⟩
    · exact hfiles q hq

/-- What a snapshot says of a path. -/
def stampOf (disk : Disk) (root p : Path) : Option (Text × Stamp) :=
  match disk.find p with
  | .ok (.file _ stamp) => some (root.relativeTo p, stamp)
  | _ => none

lemma stamps_eq_ok {files : List Path} {s : Snapshot} (h : disk.stamps root files = .ok s) :
    (∀ p ∈ files, ∀ fault, disk.find p = .error fault → fault.IsNoEntry) ∧
      s = files.filterMap (disk.stampOf root) := by
  induction files generalizing s with
  | nil =>
    obtain rfl := Except.ok.inj h
    exact ⟨by simp, rfl⟩
  | cons p files ih =>
    rw [stamps] at h
    rw [List.forall_mem_cons, List.filterMap_cons, stampOf]
    split at h
    · next content stamp hfind =>
      obtain ⟨rest, hrest, rfl⟩ : ∃ rest, disk.stamps root files = .ok rest ∧
          (root.relativeTo p, stamp) :: rest = s := by
        cases hrest : disk.stamps root files <;> simp_all [Except.map]
      obtain ⟨hall, rfl⟩ := ih hrest
      exact ⟨⟨by simp [hfind], hall⟩, by simp [hfind]⟩
    · next node hother hfind =>
      obtain ⟨hall, rfl⟩ := ih h
      refine ⟨⟨by simp [hfind], hall⟩, ?_⟩
      cases node with
      | file content stamp => exact absurd rfl (hother content stamp)
      | directory | link => simp [hfind]
    · next path target hfind =>
      obtain ⟨hall, rfl⟩ := ih h
      refine ⟨⟨fun fault hfault => ?_, hall⟩, by simp [hfind]⟩
      obtain rfl := Except.error.inj (hfind.symm.trans hfault)
      exact ⟨path, target, rfl⟩
    · cases h

lemma stamps_of_forall {files : List Path}
    (h : ∀ p ∈ files, ∀ fault, disk.find p = .error fault → fault.IsNoEntry) :
    disk.stamps root files = .ok (files.filterMap (disk.stampOf root)) := by
  induction files with
  | nil => rfl
  | cons p files ih =>
    obtain ⟨hp, hfiles⟩ := List.forall_mem_cons.1 h
    rw [stamps, List.filterMap_cons, stampOf]
    cases hfind : disk.find p with
    | ok node => cases node <;> simp [ih hfiles, Except.map]
    | error fault =>
      obtain ⟨path, target, rfl⟩ := hp fault hfind
      simp [ih hfiles]

lemma passable_iff_of_isDirectory (h : disk.isDirectory root = .ok true) : disk.Passable root ↔
    ∀ q, disk.Meets root q → ∃ answer, disk.isDirectory q = .ok answer :=
  and_iff_right fun _ hvisits _ hlist => list_of_isDirectory (hvisits.isDirectory h) hlist

lemma Meets.isDirectory_root (h : disk.Meets p q) : disk.isDirectory p = .ok true := by
  cases hlist : disk.list p with
  | error fault => exact absurd h (not_meets_of_list_error hlist)
  | ok names => exact isDirectory_of_list hlist

/-- **When a snapshot can be taken.**  It has to be clear whether there is a directory to begin
with, and whatever is met on the walk has to be found or to be gone. -/
theorem exists_snapshot_iff : (∃ s, disk.snapshot root = .ok s) ↔
    (∃ answer, disk.isDirectory root = .ok answer) ∧
      ∀ q, disk.Meets root q → ∀ fault, disk.find q = .error fault → fault.IsNoEntry := by
  cases hroot : disk.isDirectory root with
  | error fault =>
    refine iff_of_false ?_ (by simp)
    simp [snapshot, filesBelow, hroot, stamps]
  | ok answer =>
    cases answer with
    | false =>
      refine iff_of_true ⟨[], by simp [snapshot, filesBelow, hroot, stamps]⟩ ⟨⟨false, rfl⟩, ?_⟩
      intro q hmeets
      simp [hmeets.isDirectory_root] at hroot
    | true =>
      have hwalk : disk.filesBelow root = disk.filesFrom [root] := by rw [filesBelow, hroot]
      constructor
      · rintro ⟨s, hs⟩
        refine ⟨⟨true, rfl⟩, fun q hmeets fault hfind => ?_⟩
        rw [snapshot, hwalk] at hs
        split at hs
        · next found hstamps hend =>
          have hpassable := failure_filesFrom_eq_none_iff.1 hend
          obtain ⟨answer, hanswer⟩ := (hpassable root (by simp)).2 q hmeets
          -- what cannot be found is no directory, so it is a file of the walk
          have hfile : disk.isDirectory q = .ok false := by
            cases answer with
            | false => exact hanswer
            | true =>
              obtain ⟨entries, hentries⟩ := find_of_isDirectory hanswer
              simp [hfind] at hentries
          exact (stamps_eq_ok hstamps).1 q
            ((mem_filesFrom_iff hpassable).2 ⟨root, by simp, hmeets, hfile⟩) fault hfind
        · cases hs
        · cases hs
      · rintro ⟨-, hmet⟩
        have hpassable : ∀ p ∈ [root], disk.Passable p := by
          simp only [List.mem_singleton, forall_eq]
          refine (passable_iff_of_isDirectory hroot).2 fun q hmeets => ?_
          cases hfind : disk.find q with
          | ok node => exact ⟨node.isDirectory, by simp [isDirectory, leadsTo, hfind]⟩
          | error fault =>
            exact ⟨false, isDirectory_of_find_error hfind (hmet q hmeets fault hfind)⟩
        have hfiles : ∀ q ∈ (disk.filesFrom [root]).files, ∀ fault,
            disk.find q = .error fault → fault.IsNoEntry := by
          intro q hq
          obtain ⟨p, hp, hmeets, -⟩ := (mem_filesFrom_iff hpassable).1 hq
          obtain rfl := List.mem_singleton.1 hp
          exact hmet q hmeets
        refine ⟨(disk.filesFrom [root]).files.filterMap (disk.stampOf root), ?_⟩
        rw [snapshot, hwalk]
        simp only [stamps_of_forall hfiles, failure_filesFrom_eq_none_iff.2 hpassable]

/-! ## Keys -/

/-- A path below a root is found again from its key. -/
lemma Below.join_relativeTo (h : Below root p) : root.join (root.relativeTo p) = p := by
  obtain ⟨names, hne, hvalid, rfl⟩ := h
  simp only [Path.relativeTo, List.drop_left]
  exact Path.join_join hne hvalid root

lemma key_of_stampOf {entry : Text × Stamp} (h : disk.stampOf root p = some entry) :
    entry.1 = root.relativeTo p := by
  rw [stampOf] at h
  split at h
  · obtain rfl := Option.some.inj h
    rfl
  · cases h

/-- A snapshot is made of files below its root, and each of them is met once. -/
lemma files_of_snapshot {s : Snapshot} (h : disk.snapshot root = .ok s) :
    ∃ files : List Path, files.Nodup ∧ (∀ p ∈ files, Below root p) ∧
      s = files.filterMap (disk.stampOf root) := by
  rw [snapshot] at h
  split at h
  · next found hstamps hend =>
    obtain rfl := Except.ok.inj h
    refine ⟨_, ?_, ?_, (stamps_eq_ok hstamps).2⟩
    all_goals
      rw [filesBelow] at hend ⊢
      split at hend
    · cases hend
    · simp
    · exact nodup_filesFrom (failure_filesFrom_eq_none_iff.1 hend) (by simp)
    · cases hend
    · simp
    · intro p hp
      obtain ⟨r, hr, hmeets, -⟩ :=
        (mem_filesFrom_iff (failure_filesFrom_eq_none_iff.1 hend)).1 hp
      obtain rfl := List.mem_singleton.1 hr
      exact below_of_meets hmeets
  · cases h
  · cases h

/-- **Every file of a snapshot has a key of its own**, and its path is found again from it. -/
theorem keys_snapshot {s : Snapshot} (h : disk.snapshot root = .ok s) :
    s.keys.Nodup ∧ ∀ key ∈ s.keys, root.relativeTo (root.join key) = key := by
  obtain ⟨files, hnodup, hbelow, rfl⟩ := files_of_snapshot h
  constructor
  · rw [Keyed.keys, List.Nodup, List.pairwise_map, List.pairwise_filterMap]
    refine hnodup.imp_of_mem fun {p q} hp hq hne entry hentry entry' hentry' hsame => ?_
    rw [key_of_stampOf hentry, key_of_stampOf hentry'] at hsame
    rw [← (hbelow p hp).join_relativeTo, ← (hbelow q hq).join_relativeTo, hsame] at hne
    exact hne rfl
  · intro key hmem
    obtain ⟨entry, hentry, rfl⟩ := List.mem_map.1 hmem
    obtain ⟨p, hp, hstamp⟩ := List.mem_filterMap.1 hentry
    rw [key_of_stampOf hstamp, (hbelow p hp).join_relativeTo]

/-! ## What cannot be found -/

lemma walkWith_error {tree : Node} {follow : Trail → List Text → Except Errno Trail}
    {holds : Errno → Prop} (hnoEntry : holds .noEntry) (hnotDirectory : holds .notDirectory)
    (hnameTooLong : holds .nameTooLong)
    (hfollow : ∀ trail parts errno, follow trail parts = .error errno → holds errno)
    {trail : Trail} {parts : List Text} {errno : Errno}
    (h : walkWith tree false follow trail parts = .error errno) : holds errno := by
  induction parts generalizing trail with
  | nil => simp [walkWith] at h
  | cons part parts ih =>
    rw [walkWith] at h
    split at h
    · rwa [← Except.error.inj h]
    · dsimp only at h
      split_ifs at h
      · exact ih h
      · exact ih h
      · simp_all
      · rwa [← Except.error.inj h]
      · split at h
        · exact hfollow _ _ _ h
        · exact ih h
    · rwa [← Except.error.inj h]

/-- Why a path that reaches the disk may lead nowhere. -/
def Strands (errno : Errno) : Prop :=
  errno = .noEntry ∨ errno = .notDirectory ∨ errno = .tooManyLinks ∨ errno = .nameTooLong

lemma walk_error {tree : Node} {linksLeft : Nat} {trail : Trail} {parts : List Text} {errno : Errno}
    (h : walk tree false linksLeft trail parts = .error errno) : Strands errno := by
  induction linksLeft generalizing trail parts errno with
  | zero =>
    refine walkWith_error (by simp [Strands]) (by simp [Strands]) (by simp [Strands]) ?_ h
    intro _ _ errno h
    rw [← Except.error.inj h]
    simp [Strands]
  | succ linksLeft ih =>
    exact walkWith_error (by simp [Strands]) (by simp [Strands]) (by simp [Strands])
      (fun _ _ _ h => ih h) h

end Disk

namespace Disk

variable {disk : Disk} {p q root : Path}

/-- A path below one that reaches the disk reaches it too, unless it has become too long. -/
lemma Below.fault?_eq (h : Below p q) (hp : p.fault? = none) :
    q.fault? = none ∨ q.fault? = some (.system .nameTooLong q none) := by
  obtain ⟨names, -, hvalid, rfl⟩ := h
  exact Path.isPlain_iff.1 ((Path.isPlain_iff.2 (.inl hp)).append hvalid)

lemma find_error (hp : p.fault? = none ∨ p.fault? = some (.system .nameTooLong p none))
    {fault : Fault} (h : disk.find p = .error fault) :
    ∃ errno, Strands errno ∧ fault = .system errno p none := by
  rw [find, follow] at h
  rcases hp with hp | hp
  · simp only [hp] at h
    cases hwalk : walk disk.root false linkLimit (disk.start p) p.parts with
    | error errno =>
      simp only [hwalk, Except.mapError] at h
      exact ⟨errno, walk_error hwalk, (Except.error.inj h).symm⟩
    | ok trail =>
      simp only [hwalk, Except.mapError] at h
      split at h
      · cases h
      · exact ⟨.noEntry, .inl rfl, (Except.error.inj h).symm⟩
  · simp only [hp] at h
    exact ⟨.nameTooLong, by simp [Strands], (Except.error.inj h).symm⟩

/-- **What a walk meets and cannot find** is gone, lies behind what is no directory, behind links
without an end, or under too long a name. -/
lemma Meets.find_error (h : disk.Meets p q) {fault : Fault} (hfind : disk.find q = .error fault) :
    ∃ errno, Strands errno ∧ fault = .system errno q none := by
  obtain ⟨place, hplace, -⟩ := isDirectory_eq_true_iff.1 h.isDirectory_root
  exact Disk.find_error ((below_of_meets h).fault?_eq (locate_eq_ok_iff.1 hplace).1) hfind

/-- Nothing in the way of a snapshot. -/
structure Unobstructed (disk : Disk) (root : Path) : Prop where
  /-- The path to the tree is not too long. -/
  within : disk.find root ≠ .error (.system .nameTooLong root none)
  /-- Nothing lies behind what is no directory. -/
  direct : ∀ q, disk.Meets root q → disk.find q ≠ .error (.system .notDirectory q none)
  /-- No links go on without an end. -/
  acyclic : ∀ q, disk.Meets root q → disk.find q ≠ .error (.system .tooManyLinks q none)
  /-- No name is too long, and no path. -/
  short : ∀ q, disk.Meets root q → disk.find q ≠ .error (.system .nameTooLong q none)

/-- What a path leads to is in doubt only if the path is too long. -/
lemma exists_leadsTo_iff {condition : Node → Bool} :
    (∃ answer, disk.leadsTo condition p = .ok answer) ↔
      disk.find p ≠ .error (.system .nameTooLong p none) := by
  rw [leadsTo]
  cases hfind : disk.find p with
  | ok node => simp
  | error fault =>
    have hfault : fault.meansAbsent = true ∨ fault = .system .nameTooLong p none := by
      cases hp : p.fault? with
      | none =>
        obtain ⟨errno, rfl | rfl | rfl | rfl, rfl⟩ := find_error (.inl hp) hfind <;>
          simp [Fault.meansAbsent]
      | some fault' =>
        obtain rfl : fault' = fault := by simpa [find, follow, hp] using hfind
        rcases Path.fault?_cases hp with rfl | ⟨surrogates, rfl⟩ | rfl
        · exact .inl rfl
        · exact .inl rfl
        · exact .inr rfl
    rcases hfault with habsent | rfl
    · have hne : fault ≠ .system .nameTooLong p none := by
        rintro rfl
        cases habsent
      simp [habsent, hne]
    · simp [Fault.meansAbsent]

/-- Whether there is a directory is in doubt only then. -/
lemma exists_isDirectory_iff : (∃ answer, disk.isDirectory p = .ok answer) ↔
    disk.find p ≠ .error (.system .nameTooLong p none) := exists_leadsTo_iff

lemma isDirectory_error {fault : Fault} (h : disk.isDirectory p = .error fault) :
    fault = .system .nameTooLong p none := by
  have hfind : disk.find p = .error (.system .nameTooLong p none) := by
    by_contra hne
    obtain ⟨answer, hanswer⟩ := exists_isDirectory_iff.2 hne
    simp [h] at hanswer
  simpa [isDirectory, leadsTo, hfind, Fault.meansAbsent] using h.symm

/-- **A snapshot can be taken** unless something is in its way.  Links that lead nowhere and
directories that are gone when their turn comes are not. -/
theorem exists_snapshot_iff_unobstructed :
    (∃ s, disk.snapshot root = .ok s) ↔ disk.Unobstructed root := by
  rw [exists_snapshot_iff, exists_isDirectory_iff]
  constructor
  · rintro ⟨hwithin, hmet⟩
    have hnot (q : Path) (hmeets : disk.Meets root q) (errno : Errno) (herrno : errno ≠ .noEntry) :
        disk.find q ≠ .error (.system errno q none) := by
      intro hfind
      obtain ⟨path, target, heq⟩ := hmet q hmeets _ hfind
      exact herrno (Fault.system.inj heq).1
    exact ⟨hwithin, fun q hq => hnot q hq _ (by decide), fun q hq => hnot q hq _ (by decide),
      fun q hq => hnot q hq _ (by decide)⟩
  · rintro ⟨hwithin, hdirect, hacyclic, hshort⟩
    refine ⟨hwithin, fun q hmeets fault hfind => ?_⟩
    obtain ⟨errno, rfl | rfl | rfl | rfl, rfl⟩ := hmeets.find_error hfind
    · exact ⟨q, none, rfl⟩
    · exact absurd hfind (hdirect q hmeets)
    · exact absurd hfind (hacyclic q hmeets)
    · exact absurd hfind (hshort q hmeets)

end Disk

end Storage

end OnePage
