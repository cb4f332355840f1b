import OnePage.Proofs.Storage.Listing
import OnePage.Proofs.Storage.Walk

/-!
# Walks among links that lead in circles

Links make a finite disk endless: through a link to a directory that it lies in there are paths to
the same place of any length.  What ends a walk is that every path spends its links.

**Depth.**  Following a path, one can go down only as far as directories lie inside each other, then
a link has to be followed, and there are `linkLimit` of them for one path.  `Disk.Leads.length_le`
makes this a bound on the number of names that lead from a root to a directory.

**Breadth.**  A visit finds no more directories than there are entries on the disk
(`Disk.length_directories_look_le`).

* `Disk.Roams` — the turns of a walk, from the directories still to be visited to what it gives.
* `Disk.allowance` — how many turns a directory accounts for, together with all that is found from
  there on.  Each turn costs one, by `Disk.allowance_visit`.
* **`Disk.exists_roams`** — hence every walk ends.
* `Disk.Roams.nodup_turns` and `Disk.Roams.nodup_files` — no path comes up twice, also if the walk
  ends early.
* **`Disk.filesBelow_ends`** puts this together for the walk below a root.
-/

namespace OnePage

namespace Storage

namespace Disk

variable {disk : Disk} {p q root : Path} {pending turns : List Path} {result : Walk}
  {names : List Text} {l place : Location}

/-! ## The turns of a walk -/

/-- **The turns of a walk**: the directories whose turn comes, from a list of directories still to
be visited on, and what the walk gives in the end. -/
inductive Roams (disk : Disk) : List Path → List Path → Walk → Prop where
  /-- Nothing is left to visit. -/
  | done : disk.Roams [] [] ⟨[], none⟩
  /-- A directory is gone when its turn comes. -/
  | gone {p : Path} {pending turns : List Path} {result : Walk} {fault : Fault}
      (hlist : disk.list p = .error fault) (hgone : fault.IsNoEntry)
      (hrest : disk.Roams pending turns result) : disk.Roams (p :: pending) (p :: turns) result
  /-- A directory cannot be listed. -/
  | stuck {p : Path} {pending : List Path} {fault : Fault}
      (hlist : disk.list p = .error fault) (hnot : ¬ fault.IsNoEntry) :
      disk.Roams (p :: pending) [p] ⟨[], some fault⟩
  /-- A visit ends early. -/
  | halted {p : Path} {pending : List Path} {names : List Text} {fault : Fault}
      (hlist : disk.list p = .ok names) (hlook : (disk.look p names).failure = some fault) :
      disk.Roams (p :: pending) [p] ⟨(disk.look p names).files, some fault⟩
  /-- A directory is visited, and the directories found there come next, the last one first. -/
  | visit {p : Path} {pending turns : List Path} {result : Walk} {names : List Text}
      (hlist : disk.list p = .ok names) (hlook : (disk.look p names).failure = none)
      (hrest : disk.Roams ((disk.look p names).directories.reverse ++ pending) turns result) :
      disk.Roams (p :: pending) (p :: turns)
        ⟨(disk.look p names).files ++ result.files, result.failure⟩

/-- The turns lead to what the walk gives. -/
lemma Roams.eq_filesFrom (h : disk.Roams pending turns result) :
    result = disk.filesFrom pending := by
  induction h with
  | done => simp [filesFrom]
  | gone hlist hgone _ ih => rw [filesFrom_gone _ hlist hgone, ih]
  | stuck hlist hnot => rw [filesFrom_stuck _ hlist hnot]
  | halted hlist hlook => rw [filesFrom_halted _ hlist hlook]
  | visit hlist hlook _ ih => rw [filesFrom_visit _ hlist hlook, ih]

/-- A walk takes the same turns every time. -/
lemma Roams.unique {turns' : List Path} {result' : Walk} (h : disk.Roams pending turns result)
    (h' : disk.Roams pending turns' result') : turns = turns' := by
  induction h generalizing turns' result' with
  | done => cases h'; rfl
  | gone hlist hgone _ ih =>
    cases h' with
    | gone _ _ hrest => rw [ih hrest]
    | stuck hlist' hnot => exact absurd (Except.error.inj (hlist.symm.trans hlist') ▸ hgone) hnot
    | halted hlist' _ => simp [hlist] at hlist'
    | visit hlist' _ _ => simp [hlist] at hlist'
  | stuck hlist hnot =>
    cases h' with
    | gone hlist' hgone _ => exact absurd (Except.error.inj (hlist.symm.trans hlist') ▸ hgone) hnot
    | stuck _ _ => rfl
    | halted hlist' _ => rfl
    | visit hlist' _ _ => simp [hlist] at hlist'
  | halted hlist hlook =>
    cases h' with
    | gone hlist' _ _ => simp [hlist] at hlist'
    | stuck _ _ => rfl
    | halted _ _ => rfl
    | visit hlist' hlook' _ =>
      obtain rfl := Except.ok.inj (hlist.symm.trans hlist')
      simp [hlook] at hlook'
  | visit hlist hlook _ ih =>
    cases h' with
    | gone hlist' _ _ => simp [hlist] at hlist'
    | stuck hlist' _ => simp [hlist] at hlist'
    | halted hlist' hlook' =>
      obtain rfl := Except.ok.inj (hlist.symm.trans hlist')
      simp [hlook] at hlook'
    | visit hlist' _ hrest =>
      obtain rfl := Except.ok.inj (hlist.symm.trans hlist')
      rw [ih hrest]

/-! ## How deep a path can go -/

/-- How many entries there are on a disk, in all directories together. -/
def size (disk : Disk) : Nat := (disk.root.inventory ⟨.root, []⟩).length

/-- Different locations hold different entries. -/
lemma length_locations_le_size {locations : List Location} (hnodup : locations.Nodup)
    (hthere : ∀ l ∈ locations, l ≠ [] ∧ disk.node? l ≠ none) : locations.length ≤ disk.size := by
  have hpaths : (locations.map fun l => (⟨.root, l.reverse⟩ : Path)).Nodup :=
    hnodup.map fun l l' heq => List.reverse_injective (congrArg Path.parts heq)
  have hsubset : (locations.map fun l => (⟨.root, l.reverse⟩ : Path)) ⊆
      (disk.root.inventory ⟨.root, []⟩).map (·.1) := by
    intro path hpath
    obtain ⟨l, hl, rfl⟩ := List.mem_map.1 hpath
    obtain ⟨hne, hnode⟩ := hthere l hl
    obtain ⟨node, hnode⟩ := Option.ne_none_iff_exists'.1 hnode
    rw [node?_eq_descend] at hnode
    exact List.mem_map.2 ⟨_, mem_inventory_of_descend (by simpa using hne) hnode, rfl⟩
  simpa [size] using (List.subperm_of_subset hpaths hsubset).length_le

/-- Directories do not lie inside each other deeper than there are entries. -/
lemma HasDirectory.length_le_size (h : disk.HasDirectory l) : l.length ≤ disk.size := by
  -- the location and those above it, without the root
  have hnodup : ((List.range l.length).map l.drop).Nodup := by
    refine List.Nodup.map_on (fun i hi j hj heq => ?_) List.nodup_range
    have hlength := congrArg List.length heq
    simp only [List.mem_range, List.length_drop] at hi hj hlength
    omega
  have hthere : ∀ l' ∈ (List.range l.length).map l.drop, l' ≠ [] ∧ disk.node? l' ≠ none := by
    intro l' hl'
    obtain ⟨i, hi, rfl⟩ := List.mem_map.1 hl'
    refine ⟨by simpa using hi, fun hnone => h.node?_ne_none ?_⟩
    rw [← List.take_append_drop i l, node?_append, hnone, Option.bind_none]
  simpa using length_locations_le_size hnodup hthere

/-- A directory has no more names than there are entries. -/
lemma length_list_le_size (hlist : disk.list p = .ok names) : names.length ≤ disk.size := by
  obtain ⟨l, -, hdirectory, -, rfl⟩ := list_eq_ok_iff.1 hlist
  have hnodup : ((disk.children l).map (· :: l)).Nodup :=
    (nodup_of_list hlist).map fun name name' heq => (List.cons.inj heq).1
  have hthere : ∀ l' ∈ (disk.children l).map (· :: l), l' ≠ [] ∧ disk.node? l' ≠ none := by
    intro l' hl'
    obtain ⟨name, hname, rfl⟩ := List.mem_map.1 hl'
    exact ⟨by simp, mt content?_eq_none_iff.2 (mem_children_iff.1 hname)⟩
  simpa using length_locations_le_size hnodup hthere

/-- **How deep a path can go.**  Of the names at the end of a path to a directory, no more can be
followed in one go than directories lie inside each other; and for each link that may be followed,
as many again. -/
lemma Leads.length_le {making : Bool} {n m : Nat} {parts before : List Text}
    (h : disk.Leads making n l parts m place) (hplace : disk.HasDirectory place)
    (hparts : parts = before ++ names) (hnames : ∀ name ∈ names, IsProper name) :
    names.length + (if before = [] then l.length else 0) ≤ n * (disk.size + 1) + disk.size := by
  -- where the names begin, the location they start from counts as well
  induction h generalizing before names with
  | done n l =>
    obtain ⟨rfl, rfl⟩ := List.append_eq_nil_iff.1 hparts.symm
    have hdepth := hplace.length_le_size
    simp only [List.length_nil, if_pos]
    omega
  | up _ _ ih =>
    rcases List.cons_eq_append_iff.1 hparts with ⟨rfl, rfl⟩ | ⟨rest, rfl, rfl⟩
    · exact absurd rfl (hnames dotDot (by simp)).1
    · have hrest := ih hplace rfl hnames
      simp only [reduceCtorEq, if_false]
      omega
  | stay _ hpart _ ih =>
    rcases List.cons_eq_append_iff.1 hparts with ⟨rfl, rfl⟩ | ⟨rest, rfl, rfl⟩
    · exact absurd hpart (hnames _ (by simp)).2
    · have hrest := ih hplace rfl hnames
      simp only [reduceCtorEq, if_false]
      omega
  | enter _ _ _ _ ih =>
    rcases List.cons_eq_append_iff.1 hparts with ⟨rfl, rfl⟩ | ⟨rest, rfl, rfl⟩
    · have hrest := ih hplace (List.nil_append _).symm fun name hname =>
        hnames name (by simp [hname])
      simp only [List.length_cons, if_pos] at hrest ⊢
      omega
    · have hrest := ih hplace rfl hnames
      simp only [reduceCtorEq, if_false]
      omega
  | @link n m l place part target parts hl _ _ _ ih =>
    have hdepth := hl.length_le_size
    rw [Nat.succ_mul]
    rcases List.cons_eq_append_iff.1 hparts with ⟨rfl, rfl⟩ | ⟨rest, rfl, rfl⟩
    · have hrest := ih hplace rfl fun name hname => hnames name (by simp [hname])
      simp only [List.length_cons, if_pos]
      omega
    · have hrest := ih hplace (List.append_assoc _ _ _).symm hnames
      simp only [reduceCtorEq, if_false]
      omega

/-- How many names at most lead from a root to a directory. -/
def depthLimit (disk : Disk) : Nat := linkLimit * (disk.size + 1) + disk.size

/-- **Found.**  A path to a directory goes on from the root with valid names. -/
structure Found (disk : Disk) (root p : Path) : Prop where
  /-- It leads to a directory. -/
  directory : disk.isDirectory p = .ok true
  /-- Names lead there from the root. -/
  names : ∃ names, (∀ name ∈ names, validName name) ∧ p = ⟨root.anchor, root.parts ++ names⟩

namespace Found

lemma at_root (hroot : disk.isDirectory root = .ok true) : disk.Found root root :=
  ⟨hroot, [], by simp, by simp⟩

lemma child {name : Text} (h : disk.Found root p) (hvalid : validName name)
    (hdirectory : disk.isDirectory (p.child name) = .ok true) : disk.Found root (p.child name) := by
  obtain ⟨names, hnames, rfl⟩ := h.names
  refine ⟨hdirectory, names ++ [name], fun other hother => ?_, by simp [Path.child]⟩
  rcases List.mem_append.1 hother with hother | hother
  · exact hnames other hother
  · exact List.mem_singleton.1 hother ▸ hvalid

/-- There are not too many names, whatever links they stand for. -/
lemma exists_names (h : disk.Found root p) :
    ∃ names, p = ⟨root.anchor, root.parts ++ names⟩ ∧ names.length ≤ disk.depthLimit := by
  obtain ⟨names, hnames, rfl⟩ := h.names
  obtain ⟨place, hplace, hthere⟩ := isDirectory_eq_true_iff.1 h.directory
  obtain ⟨-, m, hleads⟩ := locate_eq_ok_iff.1 hplace
  have hbound := hleads.length_le hthere rfl fun name hname =>
    isProper_of_validName (hnames name hname)
  refine ⟨names, rfl, ?_⟩
  rw [depthLimit]
  omega

lemma length_le (h : disk.Found root p) :
    p.parts.length ≤ root.parts.length + disk.depthLimit := by
  obtain ⟨names, rfl, hnames⟩ := h.exists_names
  simpa using hnames

/-- What a visit finds has been found. -/
lemma of_look (h : disk.Found root p) (hlist : disk.list p = .ok names)
    (hlook : (disk.look p names).failure = none) (hq : q ∈ (disk.look p names).directories) :
    disk.Found root q := by
  obtain ⟨name, hname, rfl, hdirectory⟩ := (mem_directories_look hlook).1 hq
  exact h.child (disk.validName_of_list hlist hname) hdirectory

end Found

/-! ## Every turn counts -/

/-- How many turns a directory accounts for, together with all that is found from there on. -/
def allowance (disk : Disk) (root p : Path) : Nat :=
  (disk.size + 1) ^ (root.parts.length + disk.depthLimit - p.parts.length)

lemma allowance_pos (disk : Disk) (root p : Path) : 0 < disk.allowance root p :=
  Nat.pow_pos (Nat.succ_pos _)

/-- A visit finds no more directories than there are entries on the disk. -/
lemma length_directories_look_le (hlist : disk.list p = .ok names)
    (hlook : (disk.look p names).failure = none) :
    (disk.look p names).directories.length ≤ disk.size := by
  calc (disk.look p names).directories.length
      ≤ ((Text.sort names).map p.child).length := (look_sublist hlook).2.length_le
    _ = names.length := by rw [List.length_map, Text.sort, List.length_mergeSort]
    _ ≤ disk.size := length_list_le_size hlist

/-- **Each turn costs one**: the directories that a visit finds account for fewer turns than the one
visited. -/
lemma allowance_visit (hfound : disk.Found root p) (hlist : disk.list p = .ok names)
    (hlook : (disk.look p names).failure = none) :
    ((disk.look p names).directories.map (disk.allowance root)).sum + 1 ≤
      disk.allowance root p := by
  by_cases hnone : (disk.look p names).directories = []
  · simp only [hnone, List.map_nil, List.sum_nil, Nat.zero_add]
    exact disk.allowance_pos root p
  · have hdeeper : ∀ q ∈ (disk.look p names).directories, q.parts.length = p.parts.length + 1 := by
      intro q hq
      obtain ⟨name, -, rfl, -⟩ := (mem_directories_look hlook).1 hq
      simp [Path.child]
    -- there is room below, since something has been found there
    obtain ⟨room, hroom⟩ : ∃ room,
        root.parts.length + disk.depthLimit - p.parts.length = room + 1 := by
      obtain ⟨q, hq⟩ := List.exists_mem_of_ne_nil _ hnone
      have hlength := (hfound.of_look hlist hlook hq).length_le
      rw [hdeeper q hq] at hlength
      exact ⟨root.parts.length + disk.depthLimit - p.parts.length - 1, by omega⟩
    have hsame : (disk.look p names).directories.map (disk.allowance root) =
        (disk.look p names).directories.map fun _ => (disk.size + 1) ^ room := by
      refine List.map_congr_left fun q hq => ?_
      rw [allowance, hdeeper q hq]
      congr 1
      omega
    have hpos : 0 < (disk.size + 1) ^ room := Nat.pow_pos (Nat.succ_pos _)
    calc ((disk.look p names).directories.map (disk.allowance root)).sum + 1
        = (disk.look p names).directories.length * (disk.size + 1) ^ room + 1 := by
          rw [hsame, List.map_const', List.sum_replicate, smul_eq_mul]
      _ ≤ disk.size * (disk.size + 1) ^ room + (disk.size + 1) ^ room :=
          Nat.add_le_add (Nat.mul_le_mul_right _ (length_directories_look_le hlist hlook)) hpos
      _ = disk.allowance root p := by rw [allowance, hroom, Nat.pow_succ]; ring

/-- **Every walk ends**, after no more turns than the directories still to be visited account
for. -/
lemma exists_roams (hfound : ∀ p ∈ pending, disk.Found root p) :
    ∃ turns result, disk.Roams pending turns result ∧
      turns.length ≤ (pending.map (disk.allowance root)).sum := by
  generalize hsum : (pending.map (disk.allowance root)).sum = turnsLeft
  induction turnsLeft using Nat.strong_induction_on generalizing pending with
  | _ turnsLeft ih =>
    cases pending with
    | nil => exact ⟨[], _, .done, Nat.zero_le _⟩
    | cons p pending =>
      obtain ⟨hp, hpending⟩ := List.forall_mem_cons.1 hfound
      have hpos := disk.allowance_pos root p
      rw [List.map_cons, List.sum_cons] at hsum
      cases hlist : disk.list p with
      | error fault =>
        by_cases hgone : fault.IsNoEntry
        · obtain ⟨turns, result, hrest, hlength⟩ := ih _ (by omega) hpending rfl
          refine ⟨p :: turns, result, .gone hlist hgone hrest, ?_⟩
          rw [List.length_cons]
          omega
        · exact ⟨[p], _, .stuck hlist hgone, by rw [List.length_singleton]; omega⟩
      | ok names =>
        cases hlook : (disk.look p names).failure with
        | some fault => exact ⟨[p], _, .halted hlist hlook, by rw [List.length_singleton]; omega⟩
        | none =>
          have hcost := allowance_visit hp hlist hlook
          have hnext : ∀ q ∈ (disk.look p names).directories.reverse ++ pending,
              disk.Found root q := by
            intro q hq
            rcases List.mem_append.1 hq with hq | hq
            · exact hp.of_look hlist hlook (List.mem_reverse.1 hq)
            · exact hpending q hq
          have hturned : (((disk.look p names).directories.reverse ++ pending).map
              (disk.allowance root)).sum =
                ((disk.look p names).directories.map (disk.allowance root)).sum +
                  (pending.map (disk.allowance root)).sum := by
            rw [List.map_append, List.sum_append, List.map_reverse, List.sum_reverse]
          obtain ⟨turns, result, hrest, hlength⟩ := ih _ (by omega) hnext rfl
          refine ⟨p :: turns, _, .visit hlist hlook hrest, ?_⟩
          rw [List.length_cons]
          omega

/-- The directories whose turn comes have been found. -/
lemma Roams.found (h : disk.Roams pending turns result)
    (hfound : ∀ p ∈ pending, disk.Found root p) : ∀ p ∈ turns, disk.Found root p := by
  induction h with
  | done => simp
  | gone _ _ _ ih =>
    obtain ⟨hp, hpending⟩ := List.forall_mem_cons.1 hfound
    exact List.forall_mem_cons.2 ⟨hp, ih hpending⟩
  | stuck _ _ => simpa using (List.forall_mem_cons.1 hfound).1
  | halted _ _ => simpa using (List.forall_mem_cons.1 hfound).1
  | visit hlist hlook _ ih =>
    obtain ⟨hp, hpending⟩ := List.forall_mem_cons.1 hfound
    refine List.forall_mem_cons.2 ⟨hp, ih fun q hq => ?_⟩
    rcases List.mem_append.1 hq with hq | hq
    · exact hp.of_look hlist hlook (List.mem_reverse.1 hq)
    · exact hpending q hq

/-! ## No path comes up twice -/

/-- The files of a visit are entries of the directory, each of them once, also if it ends early. -/
lemma files_sortOut_sublist (disk : Disk) (p : Path) (names : List Text) :
    (disk.sortOut p names).files.Sublist (names.map p.child) := by
  induction names with
  | nil => simp [sortOut]
  | cons name names ih =>
    rw [sortOut]
    split
    · exact List.nil_sublist _
    · exact ih.cons _
    · exact ih.cons_cons _

lemma files_look_sublist (disk : Disk) (p : Path) (names : List Text) :
    (disk.look p names).files.Sublist ((Text.sort names).map p.child) :=
  disk.files_sortOut_sublist p _

/-- The turns of a walk unfold. -/
lemma Roams.unfolds (h : disk.Roams pending turns result) : Unfolds pending turns := by
  induction h with
  | done => exact .done
  | gone _ _ _ ih => exact @Unfolds.turn _ _ [] _ (by simp) List.Pairwise.nil ih
  | stuck _ _ => exact .stop _ _
  | halted _ _ => exact .stop _ _
  | visit hlist hlook _ ih =>
    exact .turn (fun _ => child_of_mem_directories_look hlook)
      (pairwise_directories_look hlist hlook) ih

/-- **No directory has its turn twice.** -/
lemma Roams.nodup_turns (h : disk.Roams pending turns result)
    (hparted : pending.Pairwise Parted) : turns.Nodup := h.unfolds.nodup hparted

/-- Every file is an entry of a directory that had its turn. -/
lemma Roams.exists_turn (h : disk.Roams pending turns result) (hq : q ∈ result.files) :
    ∃ p ∈ turns, ∃ name, p.child name = q := by
  -- a file of the directory whose turn it is
  have hnow {p : Path} {names : List Text} (hq : q ∈ (disk.look p names).files) :
      ∃ name, p.child name = q := by
    obtain ⟨name, -, hname⟩ := List.mem_map.1 ((disk.files_look_sublist p names).subset hq)
    exact ⟨name, hname⟩
  induction h with
  | done => simp at hq
  | gone _ _ _ ih =>
    obtain ⟨r, hr, hname⟩ := ih hq
    exact ⟨r, List.mem_cons_of_mem _ hr, hname⟩
  | stuck _ _ => simp at hq
  | @halted p _ _ _ _ _ => exact ⟨p, by simp, hnow hq⟩
  | @visit p _ _ _ _ _ _ _ ih =>
    rcases List.mem_append.1 hq with hq | hq
    · exact ⟨p, by simp, hnow hq⟩
    · obtain ⟨r, hr, hname⟩ := ih hq
      exact ⟨r, List.mem_cons_of_mem _ hr, hname⟩

/-- Hence it goes on from one of the directories still to be visited. -/
lemma Roams.prefix_parts (h : disk.Roams pending turns result) (hq : q ∈ result.files) :
    ∃ p ∈ pending, p.parts <+: q.parts := by
  obtain ⟨r, hr, name, rfl⟩ := h.exists_turn hq
  obtain ⟨p, hp, hprefix⟩ := h.unfolds.prefix_parts hr
  exact ⟨p, hp, hprefix.trans (prefix_parts_child r name)⟩

lemma nodup_files_look (hlist : disk.list p = .ok names) : (disk.look p names).files.Nodup :=
  ((pairwise_sort hlist).sublist (disk.files_look_sublist p names)).imp fun hparted =>
    hparted.ne (List.prefix_refl _) (List.prefix_refl _)

/-- **No file is met twice.** -/
lemma Roams.nodup_files (h : disk.Roams pending turns result)
    (hparted : pending.Pairwise Parted) : result.files.Nodup := by
  induction h with
  | done => exact List.nodup_nil
  | gone _ _ _ ih => exact ih (List.pairwise_cons.1 hparted).2
  | stuck _ _ => exact List.nodup_nil
  | halted hlist _ => exact nodup_files_look hlist
  | visit hlist hlook hrest ih =>
    refine List.nodup_append.2 ⟨nodup_files_look hlist,
      ih (pairwise_parted_next hparted hlist hlook), fun q hq r hr => ?_⟩
    -- a file of this directory is not met again in another one
    obtain ⟨s, hs, hprefix⟩ := hrest.prefix_parts hr
    obtain ⟨name, -, rfl, hfile⟩ := (mem_files_look hlook).1 hq
    rcases List.mem_append.1 hs with hs | hs
    · obtain ⟨other, -, rfl, hdirectory⟩ := (mem_directories_look hlook).1 (List.mem_reverse.1 hs)
      have hne : name ≠ other := by
        rintro rfl
        simp [hfile] at hdirectory
      exact (parted_child_child hne).ne (List.prefix_refl _) hprefix
    · exact (((List.pairwise_cons.1 hparted).1 s hs).child name).ne (List.prefix_refl _) hprefix

/-! ## Walks below a root -/

/-- **The walk below a root ends**, whatever links there are.  Below what is no directory nothing is
met.  Otherwise the walk takes certain turns and no others.  No directory has its turn twice, and no
file is met twice.  The names that lead from the root to a directory are not more than the links
that may be followed allow for, and the turns not more than there can be such names. -/
theorem filesBelow_ends (disk : Disk) (root : Path) :
    (disk.isDirectory root ≠ .ok true → (disk.filesBelow root).files = []) ∧
    (disk.isDirectory root = .ok true → ∃ turns,
      (∀ other result, disk.Roams [root] other result ↔
        other = turns ∧ result = disk.filesBelow root) ∧
      turns.Nodup ∧ (disk.filesBelow root).files.Nodup ∧
      (∀ p ∈ turns, ∃ names, p = ⟨root.anchor, root.parts ++ names⟩ ∧
        names.length ≤ linkLimit * (disk.size + 1) + disk.size) ∧
      turns.length ≤ (disk.size + 1) ^ (linkLimit * (disk.size + 1) + disk.size)) := by
  constructor
  · intro hnot
    rw [filesBelow]
    split
    · rfl
    · rfl
    · next hdirectory => exact absurd hdirectory hnot
  · intro hroot
    have hfound : ∀ p ∈ [root], disk.Found root p := by simpa using Found.at_root hroot
    have hparted : [root].Pairwise Parted := List.pairwise_singleton _ _
    obtain ⟨turns, result, hroams, hlength⟩ := exists_roams hfound
    have hresult : result = disk.filesBelow root := by
      rw [hroams.eq_filesFrom, filesBelow, hroot]
    subst hresult
    refine ⟨turns, fun other result => ⟨fun hother => ?_, ?_⟩, hroams.nodup_turns hparted,
      hroams.nodup_files hparted, fun p hp => (hroams.found hfound p hp).exists_names, ?_⟩
    · exact ⟨hother.unique hroams, hother.eq_filesFrom.trans hroams.eq_filesFrom.symm⟩
    · rintro ⟨rfl, rfl⟩
      exact hroams
    · simpa [allowance, depthLimit] using hlength

/-- A disk with a directory in which a link leads to the directory above, and two links to each
other. -/
def cycleDisk : Disk :=
  (((Disk.empty.putDirectory ["s"]).putLink ["up", "s"] "..").putLink ["a", "s"] "b").putLink
    ["b", "s"] "a"

/-- The path that goes round so many times. -/
def roundPath (rounds : Nat) : Path := ⟨.here, "s" :: (List.replicate rounds ["up", "s"]).flatten⟩

/-- On that disk paths go round until all links are spent. -/
theorem filesBelow_ends_cycle :
    cycleDisk.isDirectory (roundPath 0) = .ok true ∧
    cycleDisk.isDirectory (roundPath 40) = .ok true ∧
    cycleDisk.locate (roundPath 41) = .error (.system .tooManyLinks (roundPath 41) none) ∧
    cycleDisk.isDirectory (roundPath 41) = .ok false ∧
    cycleDisk.isDirectory ((roundPath 0).child "a") = .ok false ∧
    ∃ turns, cycleDisk.Roams [roundPath 0] turns (cycleDisk.filesBelow (roundPath 0)) ∧
      turns.Nodup ∧ (cycleDisk.filesBelow (roundPath 0)).files.Nodup ∧
      turns.length ≤ 5 ^ 204 := by
  have hroot : cycleDisk.isDirectory (roundPath 0) = .ok true := by decide +kernel
  have hsize : cycleDisk.size = 4 := by decide +kernel
  obtain ⟨turns, hroams, hturns, hfiles, -, hlength⟩ :=
    (filesBelow_ends cycleDisk (roundPath 0)).2 hroot
  rw [hsize] at hlength
  exact ⟨hroot, by decide +kernel, by decide +kernel, by decide +kernel, by decide +kernel,
    turns, (hroams _ _).2 ⟨rfl, rfl⟩, hturns, hfiles, hlength⟩

end Disk

end Storage

end OnePage
