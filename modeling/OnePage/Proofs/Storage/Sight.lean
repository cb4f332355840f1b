import OnePage.Proofs.Storage.Listing
import OnePage.Proofs.Storage.Overwrite
import OnePage.Proofs.Text.Order

/-!
# What can be seen of the files in a directory

On a disk without links a path leads where its names say, or nowhere.  Whether it leads anywhere
depends on the directories that its steps up leave; all else that is seen at it can be told from
what lies at the end.

* `Disk.filesIn` — the files directly in a directory, in the order in which they are listed.
* **`OnlyMade.filesIn_eq`** — making directories does not change them.
* `Disk.Climbs` — there are directories wherever a path steps up; `Disk.ClimbsFor` and
  `Paving.climbs_iff` — how that can be told before a directory is made.
* **`Disk.read_iff_climbs`** — a file is read at a path if the path climbs and the file is at its
  end.
* **`Disk.listFiles_of_climbs`** — the files that are listed at a path are those in the directory at
  its end.
* `SameWay` — a path leads to the same place on two disks, and **`SameWay.listFiles_perm`** — then
  the same files are listed up to their order.
-/

namespace OnePage

namespace Storage

variable {disk old new : Disk} {p : Path} {l place : Location} {name ending : Text} {bytes : Bytes}
  {parts found : List Text}

/-! ## The files in a directory -/

namespace Disk

/-- A file with an ending, with what is in it, if a name in a directory stands for one. -/
def fileAt? (disk : Disk) (ending : Text) (l : Location) (name : Text) : Option (Text × Bytes) :=
  match disk.content? (name :: l) with
  | some (.file bytes) => if ending.isSuffixOf name then some (name, bytes) else none
  | _ => none

/-- **The files in a directory** that have an ending, with what is in them, in the order in which
they are listed. -/
def filesIn (disk : Disk) (ending : Text) (l : Location) : List (Text × Bytes) :=
  (disk.children l).filterMap (disk.fileAt? ending l)

lemma fileAt?_eq_some_iff {e : Text × Bytes} : disk.fileAt? ending l name = some e ↔
    e.1 = name ∧ ending <:+ name ∧ disk.content? (name :: l) = some (.file e.2) := by
  obtain ⟨other, bytes⟩ := e
  rw [fileAt?]
  split
  · next bytes' hbytes =>
    simp only [List.isSuffixOf_iff_suffix, hbytes, Option.ite_none_right_eq_some, Option.some.injEq,
      Prod.mk.injEq, Content.file.injEq]
    tauto
  · next hnot =>
    simp only [reduceCtorEq, false_iff, not_and]
    exact fun _ _ hfile => hnot _ hfile

lemma mem_filesIn_iff {e : Text × Bytes} : e ∈ disk.filesIn ending l ↔
    ending <:+ e.1 ∧ disk.content? (e.1 :: l) = some (.file e.2) := by
  simp only [filesIn, List.mem_filterMap, fileAt?_eq_some_iff, mem_children_iff]
  constructor
  · rintro ⟨name, -, rfl, hending, hfile⟩
    exact ⟨hending, hfile⟩
  · rintro ⟨hending, hfile⟩
    exact ⟨e.1, by simp [hfile], rfl, hending, hfile⟩

end Disk

open Disk

/-- New names behind others, at which there are no files, make no difference to the files. -/
lemma filterMap_sortNames {α : Type} {f : Text → Option α} {names more : List (Text × Option Nat)}
    (hmore : ∀ entry ∈ more, f entry.1 = none) :
    ((sortNames (names ++ more)).map (·.1)).filterMap f =
      ((sortNames names).map (·.1)).filterMap f := by
  have hwanted (entries : List (Text × Option Nat)) : (entries.map (·.1)).filterMap f =
      (entries.filter fun entry => (f entry.1).isSome).filterMap fun entry => f entry.1 := by
    rw [List.filterMap_map, List.filterMap_filter]
    refine List.filterMap_congr fun entry _ => ?_
    cases hentry : f entry.1 <;> simp [hentry]
  have hsort (entries : List (Text × Option Nat)) :
      (sortNames entries).filter (fun entry => (f entry.1).isSome) =
        sortNames (entries.filter fun entry => (f entry.1).isSome) := by
    rw [sortNames, sortNames, filter_mergeSort]
    · exact fun _ _ _ => Entries.listedBefore_trans _ _ _
    · exact fun _ _ => Entries.listedBefore_total _ _
  have hnone : more.filter (fun entry => (f entry.1).isSome) = [] :=
    List.filter_eq_nil_iff.2 fun entry hentry => by simp [hmore entry hentry]
  rw [hwanted, hwanted, hsort, hsort, List.filter_append, hnone, List.append_nil]

/-- Making directories does not change what is in the files. -/
lemma OnlyMade.content?_eq_file_iff (h : OnlyMade p old new) :
    new.content? l = some (.file bytes) ↔ old.content? l = some (.file bytes) := by
  rw [Disk.content?_eq_file_iff, Disk.content?_eq_file_iff]
  simp only [h.file_iff]

/-- **Making directories** does not change the files in a directory, nor their order. -/
lemma OnlyMade.filesIn_eq (h : OnlyMade p old new) (ending : Text) (l : Location) :
    new.filesIn ending l = old.filesIn ending l := by
  have hfile (name : Text) : new.fileAt? ending l name = old.fileAt? ending l name := by
    refine Option.ext fun e => ?_
    rw [fileAt?_eq_some_iff, fileAt?_eq_some_iff, h.content?_eq_file_iff]
  have hnothing {name : Text} (hname : name ∉ old.children l) :
      old.fileAt? ending l name = none := by
    refine Option.eq_none_iff_forall_not_mem.2 fun e he => hname (mem_children_iff.2 ?_)
    simp [(fileAt?_eq_some_iff.1 he).2.2]
  have hchildren (disk : Disk) (names : List (Text × Option Nat))
      (hface : disk.face? l = some (.directory names)) :
      disk.children l = (sortNames names).map (·.1) := by
    obtain ⟨entries, hentries⟩ := hasDirectory_iff.1 ⟨names, hface⟩
    rw [face?, hentries] at hface
    rw [children, hentries, ← Face.directory.inj (Option.some.inj hface)]
    exact listed_eq_sortNames entries
  rw [filesIn, filesIn, funext hfile]
  cases h.outcome l with
  | same hface => rw [children_congr hface]
  | named names more hold hnew =>
    rw [hchildren old names hold, hchildren new _ hnew]
    refine filterMap_sortNames fun entry hentry => hnothing ?_
    rw [hchildren old names hold, List.mem_map]
    rintro ⟨other, hother, hsame⟩
    -- the names in a directory are distinct
    have hdistinct := nodup_of_face? hnew
    rw [List.map_append, List.nodup_append] at hdistinct
    exact hdistinct.2.2 other.1 (List.mem_map_of_mem (List.mem_mergeSort.1 hother)) entry.1
      (List.mem_map_of_mem hentry) hsame
  | made parts hfree hdirectory hparts hlocate =>
    have hold : old.children l = [] := by simp [children, hfree]
    rw [hold, List.filterMap_nil, List.filterMap_eq_nil_iff]
    exact fun name _ => hnothing (by simp [hold])

/-! ## Where a path leads -/

lemma Path.IsTidy.child (h : p.IsTidy) (hvalid : validName name) : (p.child name).IsTidy := by
  intro part hpart
  rcases List.mem_append.1 hpart with hpart | hpart
  · exact h part hpart
  · obtain ⟨-, hhere⟩ := isProper_of_validName hvalid
    rw [List.mem_singleton.1 hpart]
    exact ⟨fun hempty => hhere (.inr hempty), fun hdot => hhere (.inl hdot)⟩

/-- **Climbing.**  There are directories wherever parts step up. -/
def Disk.Climbs (disk : Disk) (l : Location) (parts : List Text) : Prop :=
  ∀ front, front ++ [dotDot] <+: parts → disk.HasDirectory (nominal l front)

namespace Disk

lemma climbs_append_iff {names : List Text} (hnames : ∀ name ∈ names, name ≠ dotDot) :
    disk.Climbs l (parts ++ names) ↔ disk.Climbs l parts := by
  refine ⟨fun h front hfront => h front (hfront.trans (List.prefix_append _ _)),
    fun h front hfront => h front ?_⟩
  rcases List.prefix_or_prefix_of_prefix hfront (List.prefix_append parts names) with
    hp | ⟨more, hp⟩
  · exact hp
  · -- otherwise the step up would be one of the names
    rcases List.eq_nil_or_concat more with rfl | ⟨init, last, rfl⟩
    · rw [← hp, List.append_nil]
    · rw [List.concat_eq_append, ← List.append_assoc] at hp
      obtain ⟨hinit, hlast⟩ := List.append_inj' hp rfl
      rw [← hp, List.append_assoc, List.prefix_append_right_inj] at hfront
      exact absurd (List.cons.inj hlast).1 (hnames last (hfront.subset (by simp)))

lemma climbs_child_iff (h : validName name) :
    disk.Climbs l (p.child name).parts ↔ disk.Climbs l p.parts :=
  climbs_append_iff (by simpa using (isProper_of_validName h).1)

/-- **Climbing, once a directory has been made.**  Wherever a path steps up there is a directory, or
one that is made on the way of another path. -/
def ClimbsFor (disk : Disk) (p output : Path) : Prop :=
  ∀ front, front ++ [dotDot] <+: p.parts →
    disk.HasDirectory (nominal (disk.origin p) front) ∨
      disk.IsMissing output (nominal (disk.origin p) front)

/-- A path that does not step up climbs. -/
lemma climbsFor_of_notMem {output : Path} (h : dotDot ∉ p.parts) : disk.ClimbsFor p output :=
  fun _ hfront => absurd (hfront.subset (by simp)) h

/-- Parts that lead anywhere climb. -/
lemma Leads.climbs (hlinkless : disk.Linkless) {making : Bool} {n m : Nat}
    (h : disk.Leads making n l parts m place) : disk.Climbs l parts := by
  rintro front ⟨rest, rfl⟩
  rw [List.append_assoc, List.singleton_append] at h
  obtain ⟨n', l', hfront, hrest⟩ :=
    (Leads.append fun _ => ⟨by simp, fun heq => absurd (List.cons.inj heq).1 (by decide)⟩).1 h
  rw [← hfront.eq_nominal hlinkless]
  exact hrest.hasDirectory

section Climbing

variable (hlinkless : disk.Linkless) (htidy : ∀ part ∈ parts, part ≠ [] ∧ part ≠ dot)
  (hclimbs : disk.Climbs l parts) (hthere : disk.node? (nominal l parts) ≠ none)

include htidy hclimbs hthere

/-- Parts that climb to something pass through directories, and none of them is too long. -/
lemma way_of_climbs :
    (∀ front, front <+: parts → front ≠ parts → disk.HasDirectory (nominal l front)) ∧
      ∀ part ∈ parts, byteLength part ≤ nameLimit := by
  induction parts using List.reverseRecOn with
  | nil => exact ⟨fun front hfront hne => absurd (List.prefix_nil.1 hfront) hne, by simp⟩
  | append_singleton init last ih =>
    obtain ⟨hempty, hdot⟩ := htidy last (by simp)
    -- the last part steps up from a directory, or it names an entry of one
    have hlast : disk.HasDirectory (nominal l init) ∧ byteLength last ≤ nameLimit := by
      by_cases hup : last = dotDot
      · exact ⟨hclimbs init (by rw [hup]), by rw [hup]; decide⟩
      · have hproper : IsProper last := ⟨hup, by simp [hempty, hdot]⟩
        rw [nominal_append, nominal_enter hproper] at hthere
        exact ⟨hasDirectory_of_node?_cons hthere, byteLength_le_of_node? hthere⟩
    obtain ⟨hway, hshort⟩ := ih (fun part hpart => htidy part (by simp [hpart]))
      (fun front hfront => hclimbs front (hfront.trans (List.prefix_append _ _)))
      hlast.1.node?_ne_none
    refine ⟨fun front hfront hne => ?_, fun part hpart => ?_⟩
    · have hfront := (List.prefix_concat_iff.1 hfront).resolve_left hne
      by_cases hwhole : front = init
      · exact hwhole ▸ hlast.1
      · exact hway front hfront hwhole
    · rcases List.mem_append.1 hpart with hpart | hpart
      · exact hshort part hpart
      · exact List.mem_singleton.1 hpart ▸ hlast.2

end Climbing

lemma node?_ne_none_of_content? {content : Content} (h : disk.content? l = some content) :
    disk.node? l ≠ none := by
  rw [Ne, ← content?_eq_none_iff, h]
  simp

/-- A file is what can be read. -/
lemma isFile_eq_true_iff : disk.isFile p = .ok true ↔ ∃ bytes, disk.read p = .ok bytes := by
  rw [isFile_eq, read_eq]
  cases disk.locate p with
  | error fault => by_cases habsent : fault.meansAbsent <;> simp [habsent]
  | ok l =>
    dsimp only
    cases disk.content? l with
    | none => simp
    | some content => cases content <;> simp

section Seen

variable (hlinkless : disk.Linkless) (htidy : p.IsTidy)

include hlinkless htidy

/-- **A path that climbs** leads to what is at its end. -/
lemma locate_of_climbs (hfault : p.fault? = none) (hclimbs : disk.Climbs (disk.origin p) p.parts)
    (hthere : disk.node? (nominal (disk.origin p) p.parts) ≠ none) :
    disk.locate p = .ok (nominal (disk.origin p) p.parts) := by
  obtain ⟨hway, hshort⟩ := way_of_climbs htidy hclimbs hthere
  exact locate_eq_ok_iff.2 ⟨hfault, linkLimit, leads_of_way hlinkless hshort hway linkLimit⟩

/-- A condition on what is at the end of a path, if there has to be something. -/
lemma located_iff_climbs {holds : Location → Prop} (hholds : ∀ l, holds l → disk.node? l ≠ none) :
    (∃ l, disk.locate p = .ok l ∧ holds l) ↔ p.fault? = none ∧
      disk.Climbs (disk.origin p) p.parts ∧ holds (nominal (disk.origin p) p.parts) := by
  constructor
  · rintro ⟨l, hl, hthere⟩
    obtain ⟨hfault, m, hleads⟩ := locate_eq_ok_iff.1 hl
    exact ⟨hfault, hleads.climbs hlinkless, locate_eq_nominal hlinkless hl ▸ hthere⟩
  · rintro ⟨hfault, hclimbs, hthere⟩
    exact ⟨_, locate_of_climbs hlinkless htidy hfault hclimbs (hholds _ hthere), hthere⟩

/-- **A file is read** at a path if the path climbs and the file is at its end. -/
lemma read_iff_climbs : disk.read p = .ok bytes ↔ p.fault? = none ∧
    disk.Climbs (disk.origin p) p.parts ∧
      disk.content? (nominal (disk.origin p) p.parts) = some (.file bytes) := by
  have hlocated : (∃ l, disk.locate p = .ok l ∧ disk.content? l = some (.file bytes)) ↔ _ :=
    located_iff_climbs hlinkless htidy fun l => node?_ne_none_of_content?
  rw [← hlocated, read_eq]
  cases disk.locate p with
  | error fault => simp
  | ok l =>
    simp only [Except.ok.injEq, exists_eq_left']
    cases disk.content? l with
    | none => simp
    | some content => cases content <;> simp

lemma isDirectory_iff_climbs : disk.isDirectory p = .ok true ↔ p.fault? = none ∧
    disk.Climbs (disk.origin p) p.parts ∧
      disk.HasDirectory (nominal (disk.origin p) p.parts) := by
  rw [isDirectory_eq_true_iff, located_iff_climbs hlinkless htidy]
  exact fun l hl => hl.node?_ne_none

/-- A file directly in the directory at the end of a path. -/
lemma read_child_iff_climbs (hvalid : validName name) : disk.read (p.child name) = .ok bytes ↔
    (p.child name).fault? = none ∧ disk.Climbs (disk.origin p) p.parts ∧
      disk.content? (name :: nominal (disk.origin p) p.parts) = some (.file bytes) := by
  have horigin : disk.origin (p.child name) = disk.origin p := rfl
  rw [read_iff_climbs hlinkless (htidy.child hvalid), horigin, climbs_child_iff hvalid,
    nominal_child hvalid]

/-- The files in a directory at the end of a path that climbs can be read if their paths can be
followed. -/
lemma read_of_mem_filesIn {e : Text × Bytes} (hclimbs : disk.Climbs (disk.origin p) p.parts)
    (he : e ∈ disk.filesIn ending (nominal (disk.origin p) p.parts))
    (hfault : (p.child e.1).fault? = none) : disk.read (p.child e.1) = .ok e.2 := by
  obtain ⟨-, hfile⟩ := mem_filesIn_iff.1 he
  have hvalid : validName e.1 :=
    disk.validName_of_mem_location (node?_ne_none_of_content? hfile) (by simp)
  exact (read_child_iff_climbs hlinkless htidy hvalid).2 ⟨hfault, hclimbs, hfile⟩

section Listing

variable (hlist : disk.listFiles p ending = .ok found)

include hlist

/-- At a path that does not climb, no files are listed. -/
lemma listFiles_of_not_climbs (hclimbs : ¬ disk.Climbs (disk.origin p) p.parts) : found = [] := by
  rcases listFiles_eq_ok hlist with ⟨-, hnone⟩ | ⟨l, hl, hdirectory, -⟩
  · exact hnone
  · have his := isDirectory_eq_true_iff.2 ⟨l, hl, hdirectory⟩
    exact absurd ((isDirectory_iff_climbs hlinkless htidy).1 his).2.1 hclimbs

/-- **The files that are listed** at a path that climbs are those in the directory at its end, apart
from files with too long a path. -/
lemma listFiles_of_climbs (hclimbs : disk.Climbs (disk.origin p) p.parts) :
    found = ((disk.filesIn ending (nominal (disk.origin p) p.parts)).filter
      fun e => (p.child e.1).fault? = none).map (·.1) := by
  rcases listFiles_eq_ok hlist with ⟨hnone, rfl⟩ | ⟨l, hl, hdirectory, -, rfl⟩
  · refine (List.map_eq_nil_iff.2 (List.filter_eq_nil_iff.2 fun e he hfault => ?_)).symm
    have hdirectory := hasDirectory_of_node?_cons
      (node?_ne_none_of_content? (mem_filesIn_iff.1 he).2)
    have his := (isDirectory_iff_climbs hlinkless htidy).2
      ⟨Path.fault?_of_prefix (List.prefix_append _ [e.1]) (of_decide_eq_true hfault), hclimbs,
        hdirectory⟩
    simp [hnone] at his
  · obtain rfl := locate_eq_nominal hlinkless hl
    rw [filesIn, List.filter_filterMap, List.map_filterMap, ← List.filterMap_eq_filter]
    refine List.filterMap_congr fun name hname => Option.ext fun other => ?_
    have hvalid := validName_of_mem_children hname
    simp only [Option.guard_eq_some_iff, Option.map_eq_some_iff, Option.filter_eq_some_iff,
      isWanted_iff, isFile_eq_true_iff, fileAt?_eq_some_iff, decide_eq_true_eq,
      read_child_iff_climbs hlinkless htidy hvalid]
    constructor
    · rintro ⟨rfl, hending, bytes, hfault, -, hfile⟩
      exact ⟨(name, bytes), ⟨⟨rfl, hending, hfile⟩, hfault⟩, rfl⟩
    · rintro ⟨⟨first, bytes⟩, ⟨⟨rfl, hending, hfile⟩, hfault⟩, rfl⟩
      exact ⟨rfl, hending, bytes, hfault, hclimbs, hfile⟩

end Listing

end Seen

end Disk

/-- **Whether a path climbs** once a directory has been made can be told beforehand. -/
lemma Paving.climbs_iff {output : Path} (h : Paving output old new) :
    new.Climbs (new.origin p) p.parts ↔ old.ClimbsFor p output := by
  rw [h.grows.origin]
  refine forall₂_congr fun front hfront => ⟨fun hdirectory => ?_, ?_⟩
  · by_cases hmissing : old.IsMissing output (nominal (old.origin p) front)
    · exact .inr hmissing
    · rw [← content?_eq_directory_iff, h.held _ hmissing, content?_eq_directory_iff] at hdirectory
      exact .inl hdirectory
  · rintro (hdirectory | ⟨-, way, hway, hend⟩)
    · exact h.grows.directory _ hdirectory
    · exact hend ▸ h.paves way hway

/-! ## On two disks -/

/-- **The same way.**  On two disks without links a path leads to the same place, or nowhere on
either, as far as its steps up are concerned. -/
structure SameWay (p : Path) (old new : Disk) : Prop where
  /-- There are no links on one disk. -/
  linkless : old.Linkless
  /-- Nor are there on the other. -/
  linkless' : new.Linkless
  /-- The working directory is the same. -/
  here : new.here = old.here
  /-- No part of the path stays where it is. -/
  tidy : p.IsTidy
  /-- The path climbs on both disks or on neither. -/
  climbs : new.Climbs (new.origin p) p.parts ↔ old.Climbs (old.origin p) p.parts

namespace SameWay

variable (h : SameWay p old new)

include h

/-- The same is true of a directory or file in it. -/
lemma join (hvalid : validName name) : SameWay (p.join name) old new where
  linkless := h.linkless
  linkless' := h.linkless'
  here := h.here
  tidy := Path.join_of_validName hvalid p ▸ h.tidy.child hvalid
  climbs := by
    rw [Path.join_of_validName hvalid, climbs_child_iff hvalid, climbs_child_iff hvalid]
    exact h.climbs

/-- A file can be read on both disks if the same is at its place. -/
lemma read_iff (hfile : ∀ bytes,
    old.content? (nominal (old.origin p) p.parts) = some (.file bytes) ↔
      new.content? (nominal (old.origin p) p.parts) = some (.file bytes)) (bytes : Bytes) :
    old.read p = .ok bytes ↔ new.read p = .ok bytes := by
  rw [read_iff_climbs h.linkless h.tidy, read_iff_climbs h.linkless' h.tidy, h.climbs,
    origin_congr h.here, hfile]

variable {found' : List Text} (hlist : old.listFiles p ending = .ok found)
  (hlist' : new.listFiles p ending = .ok found')

include hlist hlist'

/-- **The same files in another order** are listed in another order, and the same can be read. -/
lemma listFiles_perm (hfiles : (old.filesIn ending (nominal (old.origin p) p.parts)).Perm
    (new.filesIn ending (nominal (old.origin p) p.parts))) :
    found.Perm found' ∧ ∀ name ∈ found, new.read (p.child name) = old.read (p.child name) := by
  have horigin := origin_congr h.here p
  by_cases hclimbs : old.Climbs (old.origin p) p.parts
  · have hclimbs' := h.climbs.2 hclimbs
    have hfound := listFiles_of_climbs h.linkless h.tidy hlist hclimbs
    have hfound' := listFiles_of_climbs h.linkless' h.tidy hlist' hclimbs'
    rw [horigin] at hfound'
    subst hfound hfound'
    refine ⟨(hfiles.filter _).map _, fun name hname => ?_⟩
    obtain ⟨e, he, rfl⟩ := List.mem_map.1 hname
    obtain ⟨hmem, hfault⟩ := List.mem_filter.1 he
    rw [read_of_mem_filesIn h.linkless h.tidy hclimbs hmem (of_decide_eq_true hfault),
      read_of_mem_filesIn h.linkless' h.tidy hclimbs' (horigin ▸ hfiles.mem_iff.1 hmem)
        (of_decide_eq_true hfault)]
  · obtain rfl := listFiles_of_not_climbs h.linkless h.tidy hlist hclimbs
    obtain rfl := listFiles_of_not_climbs h.linkless' h.tidy hlist' (mt h.climbs.1 hclimbs)
    exact ⟨.nil, by simp⟩

/-- The same files in the same order are listed in the same order. -/
lemma listFiles_eq (hfiles : old.filesIn ending (nominal (old.origin p) p.parts) =
    new.filesIn ending (nominal (old.origin p) p.parts)) : found = found' := by
  by_cases hclimbs : old.Climbs (old.origin p) p.parts
  · rw [listFiles_of_climbs h.linkless h.tidy hlist hclimbs,
      listFiles_of_climbs h.linkless' h.tidy hlist' (h.climbs.2 hclimbs), origin_congr h.here,
      hfiles]
  · rw [listFiles_of_not_climbs h.linkless h.tidy hlist hclimbs,
      listFiles_of_not_climbs h.linkless' h.tidy hlist' (mt h.climbs.1 hclimbs)]

end SameWay

end Storage

end OnePage
