import OnePage.Proofs.Keyed
import OnePage.Proofs.Storage.Snapshot
import OnePage.Proofs.Watch.Schedule

/-!
# Batches as edit scripts

Whoever knows the files that a session begins with can follow its batches and knows the files of the
tree after each of them.

* `replay` carries changes out on a set of keys.  An added file must not be there, and any other
  file must.
* `replay_differences` — the differences of two snapshots lead from the keys of the one to the keys
  of the other; `replay_foundSince` says so of many looks in a row.
* **`replay_batches`** — the batches of a session lead to the keys of the snapshot that was taken
  when the last of them was handed on.
-/

namespace OnePage

namespace Watch

open Site (Program World)
open Storage (Disk Path)

/-! ## Carrying changes out -/

section Step

variable {root : Path} {files : Finset Text} {name : Text}

/-- Carries one change out on the keys of a tree, if it can be. -/
def FileChange.replay (root : Path) (files : Finset Text) (change : FileChange) :
    Option (Finset Text) :=
  let key := root.relativeTo change.path
  match change.kind with
  | .added => if key ∈ files then none else some (insert key files)
  | .modified => if key ∈ files then some files else none
  | .deleted => if key ∈ files then some (files.erase key) else none

/-- Carries changes out, one after the other. -/
def replay (root : Path) (files : Finset Text) (changes : List FileChange) : Option (Finset Text) :=
  changes.foldlM (FileChange.replay root) files

lemma replay_append (first second : List FileChange) :
    replay root files (first ++ second) =
      (replay root files first).bind fun between => replay root between second := by
  rw [replay, List.foldlM_append]
  rfl

lemma replay_cons (change : FileChange) (changes : List FileChange) :
    replay root files (change :: changes) =
      (change.replay root files).bind fun between => replay root between changes := by
  rw [replay, List.foldlM_cons]
  rfl

/-- A file is found again from the path that a change names. -/
def IsKey (root : Path) (name : Text) : Prop := root.relativeTo (root.join name) = name

lemma replay_added (hkey : IsKey root name) (hname : name ∉ files) :
    FileChange.replay root files ⟨.added, root.join name⟩ = some (insert name files) := by
  simp only [FileChange.replay]
  rw [hkey, if_neg hname]

lemma replay_modified (hkey : IsKey root name) (hname : name ∈ files) :
    FileChange.replay root files ⟨.modified, root.join name⟩ = some files := by
  simp only [FileChange.replay]
  rw [hkey, if_pos hname]

lemma replay_deleted (hkey : IsKey root name) (hname : name ∈ files) :
    FileChange.replay root files ⟨.deleted, root.join name⟩ = some (files.erase name) := by
  simp only [FileChange.replay]
  rw [hkey, if_pos hname]

end Step

/-! ## Differences -/

section Differences

variable {σ : Type} [DecidableEq σ] {root : Path} {old new entries : Keyed σ} {files : Finset Text}

/-- Files that arrive are there afterwards, and the others are left alone. -/
lemma replay_arrivals (hkeys : ∀ key ∈ entries.keys, IsKey root key) (hnodup : entries.keys.Nodup)
    (hfiles : ∀ key ∈ entries.keys, key ∈ files ↔ key ∈ old.keys) :
    replay root files (entries.filterMap fun (name, stamp) => arrival root old name stamp) =
      some (files ∪ entries.keys.toFinset) := by
  induction entries generalizing files with
  | nil => simp [replay, Keyed.keys]
  | cons entry entries ih =>
    obtain ⟨name, stamp⟩ := entry
    obtain ⟨hkey, hkeys⟩ := List.forall_mem_cons.1 hkeys
    obtain ⟨hfresh, hnodup⟩ := List.nodup_cons.1 hnodup
    obtain ⟨hname, hfiles⟩ := List.forall_mem_cons.1 hfiles
    have hunion : files ∪ (Keyed.keys ((name, stamp) :: entries)).toFinset =
        insert name files ∪ (Keyed.keys entries).toFinset := by
      simp [Keyed.keys, Finset.insert_union, Finset.union_insert]
    -- the files of the entries that follow are what they were
    have hrest : ∀ key ∈ Keyed.keys entries, key ∈ insert name files ↔ key ∈ old.keys := by
      intro key hmem
      have hne : key ≠ name := fun heq => hfresh (heq ▸ hmem)
      rw [Finset.mem_insert, or_iff_right hne, hfiles key hmem]
    have hpast : name ∈ files ↔ (old.get? name).isSome = true :=
      hname.trans Keyed.has_iff_mem_keys.symm
    rw [hunion, ← ih hkeys hnodup hrest]
    cases hget : old.get? name with
    | none =>
      have habsent : name ∉ files := by simp [hpast, hget]
      have harrival : arrival root old name stamp = some ⟨.added, root.join name⟩ := by
        rw [arrival, hget]
      simp only [List.filterMap_cons, harrival, replay_cons, replay_added hkey habsent,
        Option.bind_some]
    | some before =>
      have hpresent : name ∈ files := by simp [hpast, hget]
      rw [Finset.insert_eq_of_mem hpresent]
      by_cases hsame : before = stamp
      · have harrival : arrival root old name stamp = none := by simp [arrival, hget, hsame]
        simp only [List.filterMap_cons, harrival]
      · have harrival : arrival root old name stamp = some ⟨.modified, root.join name⟩ := by
          simp [arrival, hget, hsame]
        simp only [List.filterMap_cons, harrival, replay_cons, replay_modified hkey hpresent,
          Option.bind_some]

omit [DecidableEq σ] in
/-- Files that depart are gone afterwards, and the others are left alone. -/
lemma replay_departures (hkeys : ∀ key ∈ entries.keys, IsKey root key) (hnodup : entries.keys.Nodup)
    (hfiles : ∀ key ∈ entries.keys, key ∈ files) :
    replay root files (entries.filterMap fun (name, _) => departure root new name) =
      some (files \ (entries.keys.toFinset \ new.keys.toFinset)) := by
  induction entries generalizing files with
  | nil => simp [replay, Keyed.keys]
  | cons entry entries ih =>
    obtain ⟨name, stamp⟩ := entry
    obtain ⟨hkey, hkeys⟩ := List.forall_mem_cons.1 hkeys
    obtain ⟨hfresh, hnodup⟩ := List.nodup_cons.1 hnodup
    obtain ⟨hname, hfiles⟩ := List.forall_mem_cons.1 hfiles
    have hinsert : (Keyed.keys ((name, stamp) :: entries)).toFinset =
        insert name (Keyed.keys entries).toFinset := by
      simp [Keyed.keys]
    rw [hinsert]
    by_cases hstays : new.has name = true
    · have hmem : name ∈ new.keys.toFinset := List.mem_toFinset.2 (Keyed.has_iff_mem_keys.1 hstays)
      have hdeparture : departure root new name = none := by rw [departure, if_pos hstays]
      simp only [List.filterMap_cons, hdeparture]
      rw [ih hkeys hnodup hfiles, Finset.insert_sdiff_of_mem _ hmem]
    · have hmem : name ∉ new.keys.toFinset := fun hmem =>
        hstays (Keyed.has_iff_mem_keys.2 (List.mem_toFinset.1 hmem))
      have hdeparture : departure root new name = some ⟨.deleted, root.join name⟩ := by
        rw [departure, if_neg hstays]
      have hrest : ∀ key ∈ Keyed.keys entries, key ∈ files.erase name := by
        intro key hkey'
        exact Finset.mem_erase.2 ⟨fun heq => hfresh (heq ▸ hkey'), hfiles key hkey'⟩
      simp only [List.filterMap_cons, hdeparture, replay_cons, replay_deleted hkey hname,
        Option.bind_some]
      rw [ih hkeys hnodup hrest, Finset.insert_sdiff_of_notMem _ hmem, Finset.erase_eq,
        sdiff_sdiff_left, Finset.sup_eq_union, ← Finset.insert_eq]

/-- **The differences of two snapshots** lead from the files of the one to the files of the
other. -/
lemma replay_differences (hold : ∀ key ∈ old.keys, IsKey root key)
    (hnew : ∀ key ∈ new.keys, IsKey root key) (hold' : old.keys.Nodup) (hnew' : new.keys.Nodup) :
    replay root old.keys.toFinset (differences root old new) = some new.keys.toFinset := by
  have harrivals : replay root old.keys.toFinset
      (new.filterMap fun (name, stamp) => arrival root old name stamp) =
        some (old.keys.toFinset ∪ new.keys.toFinset) :=
    replay_arrivals hnew hnew' fun _ _ => List.mem_toFinset
  have hpresent : ∀ key ∈ old.keys, key ∈ old.keys.toFinset ∪ new.keys.toFinset := by
    intro key hkey
    exact Finset.mem_union_left _ (List.mem_toFinset.2 hkey)
  rw [differences, replay_append, harrivals, Option.bind_some,
    replay_departures hold hold' hpresent]
  congr 1
  ext key
  simp only [Finset.mem_sdiff, Finset.mem_union]
  tauto

end Differences

/-! ## Looks in a row -/

namespace History

variable {h : History} {root : Path} {debounce : Float} {n : Nat}

/-- Many looks in a row lead from the files of the first to the files of the last.  What they find
is not sorted out: a file may come and go several times. -/
lemma replay_foundSince {p : Nat} (hpn : p ≤ n)
    (hkeys : ∀ k ≤ n, (h.snapshot k).keys.Nodup ∧ ∀ key ∈ (h.snapshot k).keys, IsKey root key) :
    replay root (h.snapshot p).keys.toFinset (h.foundSince root p n) =
      some (h.snapshot n).keys.toFinset := by
  induction n, hpn using Nat.le_induction with
  | base => simp [replay]
  | succ n hpn ih =>
    obtain ⟨hold', hold⟩ := hkeys n (Nat.le_succ n)
    obtain ⟨hnew', hnew⟩ := hkeys (n + 1) (le_refl _)
    rw [foundSince_succ hpn, replay_append, ih fun k hk => hkeys k (Nat.le_succ_of_le hk),
      Option.bind_some]
    exact replay_differences hold hnew hold' hnew'

/-- All batches up to one of them, carried out on the files of the first snapshot, lead to the files
of the snapshot that was taken when that batch was handed on. -/
def IsEditScript (h : History) (root : Path) (batches : List (Nat × List FileChange)) : Prop :=
  ∀ front k batch rest, batches = front ++ (k, batch) :: rest →
    replay root (h.snapshot 0).keys.toFinset (front.flatMap (·.2) ++ batch) =
      some (h.snapshot k).keys.toFinset

lemma isEditScript_of_snapshots
    (hdisks : ∀ k ≤ n, ∃ disk : Disk, disk.snapshot root = .ok (h.snapshot k)) :
    h.IsEditScript root (h.batches root debounce n) := by
  intro front k batch rest hbatches
  have hk : k ≤ n := by
    have hmem : (k, batch) ∈ h.batches root debounce n := by simp [hbatches]
    exact (mem_batches.1 hmem).1
  rw [complete_batches hbatches]
  refine replay_foundSince (Nat.zero_le k) fun i hi => ?_
  obtain ⟨disk, hdisk⟩ := hdisks i (hi.trans hk)
  exact Disk.keys_snapshot hdisk

end History

/-- **Batches are edit scripts.**  This is so whatever becomes of the tree between the looks,
however long changes are held back and whatever is done with the batches. -/
theorem isEditScript_batches (root : Path) (debounce : Float) :
    (∀ (h : History) (n : Nat),
      (∀ k ≤ n, ∃ disk : Disk, disk.snapshot root = .ok (h.snapshot k)) →
      h.IsEditScript root (h.batches root debounce n)) ∧
    ∀ {β : Type} (deliver : List FileChange → Program β) (stopped : Bool) (pauses : List Pause)
      (world after : World) (report : Report),
      session root debounce deliver stopped pauses world = .ok report after →
      ∃ h : History, h.IsEditScript root report.batches ∧
        ∀ (k : Nat) (seen : World),
          (world :: looks root debounce deliver stopped pauses world)[k]? = some seen →
            seen.disk.snapshot root = .ok (h.snapshot k) := by
  refine ⟨fun h n => History.isEditScript_of_snapshots, ?_⟩
  intro β deliver stopped pauses world after report hsession
  obtain ⟨hseen, -, -, hbatches⟩ := session_eq_ok_recorded hsession
  have hrecorded : ∀ (k : Nat) (seen : World),
      (world :: looks root debounce deliver stopped pauses world)[k]? = some seen →
        seen.disk.snapshot root = .ok ((recorded root
          (world :: looks root debounce deliver stopped pauses world)).snapshot k) := by
    intro k seen hk
    obtain ⟨snapshot, hsnapshot⟩ := hseen seen (List.mem_of_getElem? hk)
    simp [recorded, hk, hsnapshot, Except.toOption]
  refine ⟨_, ?_, hrecorded⟩
  rw [hbatches]
  refine History.isEditScript_of_snapshots fun k hk => ?_
  obtain ⟨seen, hget⟩ : ∃ seen,
      (world :: looks root debounce deliver stopped pauses world)[k]? = some seen :=
    ⟨_, List.getElem?_eq_getElem (by simpa using Nat.lt_succ_of_le hk)⟩
  exact ⟨seen.disk, hrecorded k seen hget⟩

/-! ### A file that comes and goes -/

/-- A file is made, written once more, removed and made again, and the tree is left alone then. -/
def restlessPauses : List Pause :=
  let file := Path.parse "src/a.txt"
  [⟨1.0, [⟨file, .file [97] (.given (.whole 1))⟩], false⟩,
    ⟨1.0, [⟨file, .file [98] (.given (.whole 2))⟩], false⟩, ⟨1.0, [⟨file, .remove⟩], false⟩,
    ⟨1.0, [⟨file, .file [99] (.given (.whole 3))⟩], false⟩, ⟨1.0, [], false⟩, ⟨1.0, [], true⟩]

/-- All that has become of the file. -/
def restlessBatch : List FileChange :=
  [.added, .modified, .deleted, .added].map fun kind => ⟨kind, Path.parse "src/a.txt"⟩

/-- The one batch has the file four times, and carrying it out leads to a tree with that one file.
-/
theorem isEditScript_restless :
    ∃ (h : History) (report : Report) (after : World),
      session (Path.parse "src") 2.0 ignore false restlessPauses bareWorld = .ok report after ∧
      report = ⟨[(6, restlessBatch)], .stopped⟩ ∧ h.IsEditScript (Path.parse "src") report.batches ∧
      replay (Path.parse "src") ∅ restlessBatch = some {("a.txt" : Text)} := by
  have hends : succeeds (session (Path.parse "src") 2.0 ignore false restlessPauses bareWorld)
      fun report _ => decide (report = ⟨[(6, restlessBatch)], .stopped⟩) := by decide +kernel
  obtain ⟨report, after, hsession, hreport⟩ := exists_of_succeeds hends
  obtain ⟨h, hscript, -⟩ := (isEditScript_batches (Path.parse "src") 2.0).2 ignore false
    restlessPauses bareWorld after report hsession
  exact ⟨h, report, after, hsession, of_decide_eq_true hreport, hscript, by decide +kernel⟩

end Watch

end OnePage
