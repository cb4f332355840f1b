import OnePage.Proofs.Keyed
import OnePage.Proofs.Storage.Snapshot
import OnePage.Watch.Change

/-!
# What the differences say

Two snapshots of a tree are compared file by file.

* `Path.IsNormal` — a text that is the normalised form of a relative path.  Distinct ones go on from
  a path to distinct paths (`Path.join_inj`).
* `IsRecord` — a snapshot has distinct keys, all of this kind.  The snapshots that are taken of a
  disk are such records (`isRecord_of_snapshot`), so all of this holds of any two of them.
* `ChangeKind.Fits` is what a kind of change says of when a file was written before and after.
* `get?_of_differences` — snapshots without differences give every file the same stamp.
* **`differences_exact`** — every difference is reported once and as what it is, and nothing else
  is; from the newer snapshot back to the older one it is the other way round.
-/

namespace OnePage

namespace Storage

namespace Path

variable {root p : Path} {name other : Text}

/-- **A normalised relative path**: a text that does not start over and is shown as it is read. -/
def IsNormal (name : Text) : Prop := (parse name).anchor = .here ∧ (parse name).text = name

instance : Decidable (IsNormal name) := inferInstanceAs (Decidable (_ ∧ _))

lemma join_of_isNormal (h : IsNormal name) (root : Path) :
    root.join name = ⟨root.anchor, root.parts ++ (parse name).parts⟩ := by
  rw [join, h.1]

/-- Distinct normalised paths go on to distinct paths. -/
lemma join_inj (hname : IsNormal name) (hother : IsNormal other) :
    root.join name = root.join other ↔ name = other := by
  refine ⟨fun h => ?_, fun h => h ▸ rfl⟩
  rw [join_of_isNormal hname, join_of_isNormal hother, Path.mk.injEq] at h
  have hparse : parse name = parse other :=
    congrArg₂ mk (hname.1.trans hother.1.symm) (List.append_cancel_left h.2)
  rw [← hname.2, ← hother.2, hparse]

end Path

/-- The path from a root to what lies below it is normalised. -/
lemma Disk.Below.isNormal_relativeTo {root p : Path} (h : Disk.Below root p) :
    Path.IsNormal (root.relativeTo p) := by
  obtain ⟨names, hne, hvalid, rfl⟩ := h
  simp only [Path.relativeTo, List.drop_left]
  rw [Path.IsNormal, Path.parse_join hne hvalid]
  refine ⟨rfl, ?_⟩
  cases names with
  | nil => exact absurd rfl hne
  | cons name names => rfl

end Storage

namespace Watch

open Storage (Disk Path Snapshot)

variable {σ : Type} {root : Path} {old new : Keyed σ} {change : FileChange} {name : Text}
  {stamp : σ}

/-! ## Snapshots as records -/

/-- **Snapshots of a tree**: the keys are distinct, and they are normalised relative paths. -/
structure IsRecord (entries : Keyed σ) : Prop where
  /-- The keys are distinct. -/
  distinct : entries.keys.Nodup
  /-- They are normalised relative paths. -/
  normal : ∀ key ∈ entries.keys, Path.IsNormal key

/-- The snapshots that are taken of a disk are such records. -/
lemma isRecord_of_snapshot {disk : Disk} {s : Snapshot} (h : disk.snapshot root = .ok s) :
    IsRecord s := by
  refine ⟨(Disk.keys_snapshot h).1, fun key hkey => ?_⟩
  obtain ⟨files, -, hbelow, rfl⟩ := Disk.files_of_snapshot h
  obtain ⟨entry, hentry, rfl⟩ := List.mem_map.1 hkey
  obtain ⟨p, hp, hstamp⟩ := List.mem_filterMap.1 hentry
  rw [Disk.key_of_stampOf hstamp]
  exact (hbelow p hp).isNormal_relativeTo

/-- What two snapshots differ in is a file of one of them. -/
lemma normal_of_ne (hold : IsRecord old) (hnew : IsRecord new)
    (h : old.get? name ≠ new.get? name) : Path.IsNormal name := by
  have hnormal {entries : Keyed σ} {stamp : σ} (hrecord : IsRecord entries)
      (hget : entries.get? name = some stamp) : Path.IsNormal name :=
    hrecord.normal name (List.mem_map_of_mem (Keyed.mem_of_get? hget))
  cases hbefore : old.get? name with
  | some stamp => exact hnormal hold hbefore
  | none =>
    obtain ⟨stamp, hafter⟩ := Option.ne_none_iff_exists'.1 (hbefore ▸ h).symm
    exact hnormal hnew hafter

/-! ## One file -/

/-- What a kind of change says of when a file was written before and after, if it was there. -/
def ChangeKind.Fits (before after : Option σ) : ChangeKind → Prop
  | added => before = none ∧ after ≠ none
  | modified => before ≠ none ∧ after ≠ none ∧ before ≠ after
  | deleted => before ≠ none ∧ after = none

/-- What has happened if one goes back. -/
def ChangeKind.undone : ChangeKind → ChangeKind
  | added => deleted
  | modified => modified
  | deleted => added

/-- The change that takes a change back. -/
def FileChange.undone (change : FileChange) : FileChange :=
  { change with kind := change.kind.undone }

@[simp]
lemma FileChange.undone_undone (change : FileChange) : change.undone.undone = change := by
  obtain ⟨kind, path⟩ := change
  cases kind <;> rfl

lemma undone_injective : Function.Injective FileChange.undone :=
  Function.LeftInverse.injective FileChange.undone_undone

lemma ChangeKind.fits_undone {kind : ChangeKind} {before after : Option σ} :
    kind.undone.Fits before after ↔ kind.Fits after before := by
  cases kind with
  | added => exact and_comm
  | modified => exact ⟨fun h => ⟨h.2.1, h.1, h.2.2.symm⟩, fun h => ⟨h.2.1, h.1, h.2.2.symm⟩⟩
  | deleted => exact and_comm

lemma ChangeKind.Fits.ne {kind : ChangeKind} {before after : Option σ}
    (h : kind.Fits before after) : before ≠ after := by
  rintro rfl
  cases kind with
  | added => exact h.2 h.1
  | modified => exact h.2.2 rfl
  | deleted => exact h.1 h.2

lemma departure_eq_some_iff : departure root new name = some change ↔
    change.path = root.join name ∧ change.kind = .deleted ∧ new.get? name = none := by
  obtain ⟨kind, path⟩ := change
  rw [departure, Keyed.has]
  cases new.get? name <;> simp [and_comm, eq_comm]

variable [DecidableEq σ]

lemma arrival_eq_none_iff : arrival root old name stamp = none ↔ old.get? name = some stamp := by
  rw [arrival]
  cases old.get? name with
  | none => simp
  | some before => by_cases h : before = stamp <;> simp [h]

lemma arrival_eq_some_iff : arrival root old name stamp = some change ↔
    change.path = root.join name ∧ change.kind.Fits (old.get? name) (some stamp) := by
  obtain ⟨kind, path⟩ := change
  rw [arrival]
  cases old.get? name with
  | none => cases kind <;> simp [ChangeKind.Fits, eq_comm]
  | some before =>
    by_cases h : before = stamp <;> cases kind <;> simp [h, ChangeKind.Fits, @eq_comm _ path]

/-! ## All files -/

/-- **Snapshots without differences** give every file the same stamp. -/
lemma get?_of_differences (h : differences root old new = []) (name : Text) :
    new.get? name = old.get? name := by
  obtain ⟨harrivals, hdepartures⟩ := List.append_eq_nil_iff.1 h
  rw [List.filterMap_eq_nil_iff] at harrivals hdepartures
  cases hnew : new.get? name with
  | some stamp => exact (arrival_eq_none_iff.1 (harrivals _ (Keyed.mem_of_get? hnew))).symm
  | none =>
    cases hold : old.get? name with
    | none => rfl
    | some stamp =>
      have hgone := hdepartures _ (Keyed.mem_of_get? hold)
      simp [departure, Keyed.has, hnew] at hgone

section Records

variable (hold : IsRecord old) (hnew : IsRecord new)

include hold hnew

/-- **What is among the differences.** -/
lemma mem_differences_iff : change ∈ differences root old new ↔
    ∃ name, change.path = root.join name ∧ change.kind.Fits (old.get? name) (new.get? name) := by
  rw [differences, List.mem_append, List.mem_filterMap, List.mem_filterMap]
  constructor
  · rintro (⟨⟨name, stamp⟩, hmem, harrival⟩ | ⟨⟨name, stamp⟩, hmem, hdeparture⟩)
    · rw [← Keyed.get?_eq_some_iff hnew.distinct] at hmem
      exact ⟨name, by rw [hmem]; exact arrival_eq_some_iff.1 harrival⟩
    · rw [← Keyed.get?_eq_some_iff hold.distinct] at hmem
      obtain ⟨hpath, hkind, hgone⟩ := departure_eq_some_iff.1 hdeparture
      exact ⟨name, hpath, by simp [hkind, hgone, hmem, ChangeKind.Fits]⟩
  · rintro ⟨name, hpath, hfits⟩
    cases hafter : new.get? name with
    | some stamp =>
      rw [hafter] at hfits
      exact .inl ⟨(name, stamp), Keyed.mem_of_get? hafter, arrival_eq_some_iff.2 ⟨hpath, hfits⟩⟩
    | none =>
      -- a file that is not there now can only have been deleted
      obtain ⟨hkind, stamp, hbefore⟩ :
          change.kind = .deleted ∧ ∃ stamp, old.get? name = some stamp := by
        rw [hafter] at hfits
        cases hkind : change.kind <;> simp_all [ChangeKind.Fits, Option.ne_none_iff_exists']
      exact .inr ⟨(name, stamp), Keyed.mem_of_get? hbefore,
        departure_eq_some_iff.2 ⟨hpath, hkind, hafter⟩⟩

/-- No file is reported twice. -/
lemma nodup_paths_differences : ((differences root old new).map FileChange.path).Nodup := by
  have hsame {entries : Keyed σ} (hrecord : IsRecord entries) {first second : Text × σ}
      (hfirst : first ∈ entries) (hsecond : second ∈ entries)
      (h : root.join first.1 = root.join second.1) : first.1 = second.1 :=
    (Path.join_inj (hrecord.normal _ (List.mem_map_of_mem hfirst))
      (hrecord.normal _ (List.mem_map_of_mem hsecond))).1 h
  have hdistinct {entries : Keyed σ} (hrecord : IsRecord entries) :
      entries.Pairwise fun first second => first.1 ≠ second.1 :=
    List.pairwise_map.1 hrecord.distinct
  rw [List.Nodup, List.pairwise_map, differences, List.pairwise_append, List.pairwise_filterMap,
    List.pairwise_filterMap]
  refine ⟨?_, ?_, ?_⟩
  · refine (hdistinct hnew).imp_of_mem fun hfirst hsecond hne change hchange other hother h => ?_
    rw [(arrival_eq_some_iff.1 hchange).1, (arrival_eq_some_iff.1 hother).1] at h
    exact hne (hsame hnew hfirst hsecond h)
  · refine (hdistinct hold).imp_of_mem fun hfirst hsecond hne change hchange other hother h => ?_
    rw [(departure_eq_some_iff.1 hchange).1, (departure_eq_some_iff.1 hother).1] at h
    exact hne (hsame hold hfirst hsecond h)
  · -- what is there now has not been deleted
    intro change harrival other hdeparture h
    obtain ⟨⟨name, stamp⟩, hname, hchange⟩ := List.mem_filterMap.1 harrival
    obtain ⟨⟨gone, before⟩, hgone, hother⟩ := List.mem_filterMap.1 hdeparture
    obtain ⟨hpath, -, hnone⟩ := departure_eq_some_iff.1 hother
    rw [(arrival_eq_some_iff.1 hchange).1, hpath, Path.join_inj
      (hnew.normal _ (List.mem_map_of_mem hname)) (hold.normal _ (List.mem_map_of_mem hgone))] at h
    have hthere := (Keyed.get?_eq_some_iff hnew.distinct).2 hname
    simp only at h
    simp [← h, hthere] at hnone

/-- **The differences of two snapshots.**  No file is reported twice.  A file is reported as added,
modified or deleted exactly if that is what has become of it, and nothing else is reported; so there
is nothing to report exactly if both snapshots say the same.  Going back from the newer snapshot to
the older one undoes each of the changes. -/
theorem differences_exact (root : Path) :
    ((differences root old new).map FileChange.path).Nodup ∧
    (∀ change ∈ differences root old new, ∃ name, Path.IsNormal name ∧
      change.path = root.join name) ∧
    (∀ name, Path.IsNormal name → ∀ kind : ChangeKind,
      ⟨kind, root.join name⟩ ∈ differences root old new ↔
        kind.Fits (old.get? name) (new.get? name)) ∧
    (differences root old new = [] ↔ ∀ name, old.get? name = new.get? name) ∧
    (differences root new old).Perm ((differences root old new).map FileChange.undone) := by
  refine ⟨nodup_paths_differences hold hnew, fun change hchange => ?_, fun name hname kind => ?_,
    ⟨fun h name => (get?_of_differences h name).symm, fun h => ?_⟩, ?_⟩
  · obtain ⟨name, hpath, hfits⟩ := (mem_differences_iff hold hnew).1 hchange
    exact ⟨name, normal_of_ne hold hnew hfits.ne, hpath⟩
  · rw [mem_differences_iff hold hnew]
    constructor
    · rintro ⟨other, hpath, hfits⟩
      obtain rfl := (Path.join_inj hname (normal_of_ne hold hnew hfits.ne)).1 hpath
      exact hfits
    · intro hfits
      exact ⟨name, rfl, hfits⟩
  · refine List.eq_nil_iff_forall_not_mem.2 fun change hchange => ?_
    obtain ⟨name, -, hfits⟩ := (mem_differences_iff hold hnew).1 hchange
    exact hfits.ne (h name)
  · have hback : (differences root new old).Nodup :=
      List.Nodup.of_map _ (nodup_paths_differences hnew hold)
    have hforth : (differences root old new).Nodup :=
      List.Nodup.of_map _ (nodup_paths_differences hold hnew)
    refine (List.perm_ext_iff_of_nodup hback (hforth.map undone_injective)).2 fun change => ?_
    rw [← change.undone_undone, List.mem_map_of_injective undone_injective,
      mem_differences_iff hold hnew, mem_differences_iff hnew hold]
    simp only [FileChange.undone_undone]
    exact exists_congr fun name => and_congr_right' ChangeKind.fits_undone.symm

end Records

/-! ### Two snapshots of a tree -/

/-- The snapshot of a directory in which there is one other directory, with files only. -/
lemma snapshot_of_looks {disk : Disk} {inner : Path} {names inside : List Text}
    {files below : List Path} {s : Snapshot} (hlist : disk.list root = .ok names)
    (hlook : disk.look root names = ⟨files, [inner], none⟩) (hlist' : disk.list inner = .ok inside)
    (hlook' : disk.look inner inside = ⟨below, [], none⟩)
    (hstamps : disk.stamps root (files ++ below) = .ok s) : disk.snapshot root = .ok s := by
  have hwalk : disk.filesBelow root = ⟨files ++ below, none⟩ := by
    rw [Disk.filesBelow, Disk.isDirectory_of_list hlist]
    dsimp only
    rw [Disk.filesFrom_visit _ hlist (by rw [hlook]), hlook]
    simp only [List.reverse_singleton, List.append_nil]
    rw [Disk.filesFrom_visit _ hlist' (by rw [hlook']), hlook']
    simp [Disk.filesFrom]
  rw [Disk.snapshot, hwalk]
  simp only [hstamps]

/-- A disk with three files below `src`, one of them in a directory of its own. -/
def earlierDisk : Disk :=
  ((((Disk.empty.putDirectory ["src"]).putFile ["a", "src"] [] (.fresh 1)).putDirectory
    ["b", "src"]).putFile ["c", "b", "src"] [] (.fresh 2)).putFile ["d", "src"] [] (.fresh 3)

/-- The disk with one file less, one more, and one that is older. -/
def laterDisk : Disk :=
  ((earlierDisk.remove ["a", "src"]).putFile ["e", "src"] [] (.fresh 4)).putFile ["c", "b", "src"]
    [] (.fresh 1)

/-- What is noted of the one. -/
def earlier : Snapshot := [("a", .fresh 1), ("d", .fresh 3), ("b/c", .fresh 2)]

/-- What is noted of the other. -/
def later : Snapshot := [("d", .fresh 3), ("e", .fresh 4), ("b/c", .fresh 1)]

theorem differences_exact_earlier : earlierDisk.snapshot (Path.parse "src") = .ok earlier ∧
    laterDisk.snapshot (Path.parse "src") = .ok later ∧ IsRecord earlier ∧ IsRecord later ∧
    (differences (Path.parse "src") later earlier).Perm
      [⟨.deleted, ⟨.here, ["src", "e"]⟩⟩, ⟨.modified, ⟨.here, ["src", "b", "c"]⟩⟩,
        ⟨.added, ⟨.here, ["src", "a"]⟩⟩] := by
  have hsnapshot : earlierDisk.snapshot (Path.parse "src") = .ok earlier :=
    @snapshot_of_looks _ _ (Path.parse "src/b") ["a", "b", "d"] ["c"]
      [Path.parse "src/a", Path.parse "src/d"] [Path.parse "src/b/c"] _ (by decide_cbv) (by cbv)
      (by decide_cbv) (by cbv) (by decide +kernel)
  have hsnapshot' : laterDisk.snapshot (Path.parse "src") = .ok later :=
    @snapshot_of_looks _ _ (Path.parse "src/b") ["b", "d", "e"] ["c"]
      [Path.parse "src/d", Path.parse "src/e"] [Path.parse "src/b/c"] _ (by decide_cbv) (by cbv)
      (by decide_cbv) (by cbv) (by decide +kernel)
  have hearlier : IsRecord earlier := isRecord_of_snapshot hsnapshot
  have hlater : IsRecord later := isRecord_of_snapshot hsnapshot'
  obtain ⟨-, -, -, -, hback⟩ := differences_exact hearlier hlater (Path.parse "src")
  refine ⟨hsnapshot, hsnapshot', hearlier, hlater, hback.trans ?_⟩
  have hforth : (differences (Path.parse "src") earlier later).map FileChange.undone =
      [⟨.deleted, ⟨.here, ["src", "e"]⟩⟩, ⟨.modified, ⟨.here, ["src", "b", "c"]⟩⟩,
        ⟨.added, ⟨.here, ["src", "a"]⟩⟩] := by decide +kernel
  rw [hforth]

end Watch

end OnePage
