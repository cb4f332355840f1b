import OnePage.Proofs.Storage.Below
import OnePage.Storage.Edit

/-!
# Trees as they are seen

Two disks are the same to whoever only follows paths below a certain one if the same can be read and
is listed there, and the same faults come up.  On disks without links paths lead where their names
say, so that changes elsewhere cannot be seen.

* `SameAt` and `SameTree` — the same is seen at a path, and at all paths below one.
* `nominal` — where parts lead by their names alone.
* `Disk.locate_congr` — on disks without links, a path leads to the same place if on the way to it
  there are directories at the same places.
* `Disk.IsApart` and `Disk.IsBeside` — a path leads neither to a directory nor above or into it.
* **`sameTree_of_confined`** — what has changed in one directory only is not seen from paths that
  are apart from it, and by `sameTree_of_kinds` not from others that find the same on their way.
* `Disk.Untouched` — a directory has been left alone.
-/

namespace OnePage

namespace Storage

variable {disk old new newer : Disk} {p : Path} {place l : Location} {parts : List Text}

/-! ## What is seen at a path -/

/-- The same is seen at a path. -/
structure SameAt (old new : Disk) (p : Path) : Prop where
  /-- The same can be read. -/
  read : new.read p = old.read p
  /-- The same is listed, in the same order. -/
  list : new.list p = old.list p
  /-- It leads to a directory on both disks or on neither. -/
  isDirectory : new.isDirectory p = old.isDirectory p
  /-- It leads to a file on both disks or on neither. -/
  isFile : new.isFile p = old.isFile p

namespace SameAt

lemma refl (disk : Disk) (p : Path) : SameAt disk disk p := ⟨rfl, rfl, rfl, rfl⟩

lemma symm (h : SameAt old new p) : SameAt new old p :=
  ⟨h.read.symm, h.list.symm, h.isDirectory.symm, h.isFile.symm⟩

lemma trans (h : SameAt old new p) (h' : SameAt new newer p) : SameAt old newer p where
  read := h'.read.trans h.read
  list := h'.list.trans h.list
  isDirectory := h'.isDirectory.trans h.isDirectory
  isFile := h'.isFile.trans h.isFile

end SameAt

/-- **The same tree is seen at a path**, at all paths that go on from it. -/
def SameTree (p : Path) (old new : Disk) : Prop :=
  ∀ names : List Text, (∀ name ∈ names, validName name) →
    SameAt old new ⟨p.anchor, p.parts ++ names⟩

namespace SameTree

lemma refl (p : Path) (disk : Disk) : SameTree p disk disk := fun _ _ => .refl disk _

lemma symm (h : SameTree p old new) : SameTree p new old :=
  fun names hnames => (h names hnames).symm

lemma trans (h : SameTree p old new) (h' : SameTree p new newer) : SameTree p old newer :=
  fun names hnames => (h names hnames).trans (h' names hnames)

lemma at_root (h : SameTree p old new) : SameAt old new p := by
  simpa using h [] (by simp)

lemma child {name : Text} (h : SameTree p old new) (hname : validName name) :
    SameTree (p.child name) old new := by
  intro names hnames
  have hall : ∀ other ∈ name :: names, validName other := by
    intro other hother
    rcases List.mem_cons.1 hother with rfl | hother
    · exact hname
    · exact hnames other hother
  simpa [Path.child] using h (name :: names) hall

lemma at_child {name : Text} (h : SameTree p old new) (hname : validName name) :
    SameAt old new (p.child name) := (h.child hname).at_root

end SameTree

/-! ## What shows decides what is seen -/

/-- What shows of a directory, in the order in which it is listed. -/
def sortNames (names : List (Text × Option Nat)) : List (Text × Option Nat) :=
  names.mergeSort fun a b => Entries.listedBefore ⟨a.1, a.2, .link []⟩ ⟨b.1, b.2, .link []⟩

lemma listed_eq_sortNames (entries : Entries) :
    Entries.listed entries = (sortNames (entries.map fun e => (e.name, e.made))).map (·.1) := by
  have hsorted := List.map_mergeSort (l := entries) (r := Entries.listedBefore)
    (s := fun a b => Entries.listedBefore ⟨a.1, a.2, .link []⟩ ⟨b.1, b.2, .link []⟩)
    (f := fun e : Entry Node => (e.name, e.made)) fun _ _ _ _ => rfl
  rw [Entries.listed, sortNames, ← hsorted, List.map_map]
  rfl

/-- The names of a directory in the order in which it lists them can be told from what shows. -/
lemma listed_eq_of_face {first second : Entries}
    (h : (Node.directory first).face = (Node.directory second).face) :
    Entries.listed first = Entries.listed second := by
  rw [listed_eq_sortNames, listed_eq_sortNames, Face.directory.inj h]

namespace Disk

lemma find_eq (disk : Disk) (p : Path) : disk.find p = match disk.locate p with
    | .error fault => .error fault
    | .ok place => match disk.node? place with
      | some node => .ok node
      | none => .error (.system .noEntry p none) := by
  rw [find, locate]
  cases hfollow : disk.follow false p p.parts with
  | error fault => rfl
  | ok trail =>
    obtain ⟨-, m, place, -, rfl⟩ := follow_eq_ok_iff.1 hfollow
    cases hnode : disk.node? place <;>
      simp only [node?_trail, Except.map, location_trail, hnode]

lemma list_eq (disk : Disk) (p : Path) : disk.list p = match disk.locate p with
    | .error fault => .error fault
    | .ok place => match disk.node? place with
      | some (.directory entries) =>
        if place ∈ disk.fleeting then .error (.system .noEntry p none)
        else .ok (Entries.listed entries)
      | some _ => .error (.system .notDirectory p none)
      | none => .error (.system .noEntry p none) := by
  rw [list, locate]
  cases hfollow : disk.follow false p p.parts with
  | error fault => rfl
  | ok trail =>
    obtain ⟨-, m, place, -, rfl⟩ := follow_eq_ok_iff.1 hfollow
    cases hnode : disk.node? place with
    | none => simp only [node?_trail, Except.map, location_trail, hnode]
    | some node => cases node <;> simp only [node?_trail, Except.map, location_trail, hnode]

end Disk

/-- **What shows where a path leads decides what is seen at it.** -/
lemma sameAt_of_face? (hlocate : new.locate p = old.locate p)
    (hface : ∀ place, old.locate p = .ok place → new.face? place = old.face? place)
    (hfleeting : new.fleeting = old.fleeting) : SameAt old new p := by
  cases hplace : old.locate p with
  | error fault =>
    have hnew := hlocate.trans hplace
    constructor <;>
      simp only [Disk.read, Disk.isDirectory, Disk.isFile, Disk.leadsTo, Disk.find_eq, Disk.list_eq,
        hplace, hnew]
  | ok place =>
    have hnew := hlocate.trans hplace
    have hsame := hface place hplace
    rw [Disk.face?, Disk.face?] at hsame
    cases hbefore : old.node? place with
    | none =>
      have hnow : new.node? place = none := by simpa [hbefore] using hsame
      constructor <;>
        simp only [Disk.read, Disk.isDirectory, Disk.isFile, Disk.leadsTo, Disk.find_eq,
          Disk.list_eq, hplace, hnew, hbefore, hnow]
    | some before =>
      obtain ⟨now, hnow, hfaces⟩ : ∃ now, new.node? place = some now ∧ now.face = before.face := by
        simpa [hbefore] using hsame
      -- two nodes of which the same shows are of the same kind
      cases before <;> cases now <;> simp only [Node.face, reduceCtorEq] at hfaces
      case file.file =>
        obtain ⟨rfl, -⟩ := Face.file.inj hfaces
        constructor <;>
          simp only [Disk.read, Disk.isDirectory, Disk.isFile, Disk.leadsTo, Disk.find_eq,
            Disk.list_eq, hplace, hnew, hbefore, hnow, Node.isDirectory]
      case directory.directory =>
        have hlisted := listed_eq_of_face hfaces
        constructor <;>
          simp only [Disk.read, Disk.isDirectory, Disk.isFile, Disk.leadsTo, Disk.find_eq,
            Disk.list_eq, hplace, hnew, hbefore, hnow, Node.isDirectory, hfleeting, hlisted]
      case link.link =>
        constructor <;>
          simp only [Disk.read, Disk.isDirectory, Disk.isFile, Disk.leadsTo, Disk.find_eq,
            Disk.list_eq, hplace, hnew, hbefore, hnow, Node.isDirectory]

/-! ## Disks without links -/

/-- No link lies anywhere on a disk. -/
def Disk.Linkless (disk : Disk) : Prop := ∀ l, ¬ disk.HasLink l

lemma Disk.Linkless.grows (h : old.Linkless) (hgrows : old.Grows new) : new.Linkless :=
  fun l hlink => h l (hgrows.hasLink_iff.1 hlink)

lemma Disk.Linkless.linklessAt (h : disk.Linkless) (place : Location) (names : List Text) :
    disk.LinklessAt place names :=
  fun _ _ l _ => h l

/-- Whether a node is a link. -/
def Node.isLink : Node → Bool
  | link _ => true
  | _ => false

lemma entryInventory_eq (e : Entry Node) :
    entryInventory p e = (p.child e.name, e.node) :: e.node.inventory (p.child e.name) := by
  cases e
  rw [entryInventory]

lemma inventory_subset {e : Entry Node} {entries : List (Entry Node)} (h : e ∈ entries) :
    entryInventory p e ⊆ inventoryOf p entries := by
  induction entries with
  | nil => simp at h
  | cons first entries ih =>
    rw [inventoryOf]
    rcases List.mem_cons.1 h with rfl | h
    · exact List.subset_append_left _ _
    · exact List.subset_append_of_subset_right _ (ih h)

/-- Whatever names lead to from a node is in its inventory. -/
lemma mem_inventory_of_descend {path : List Text} {node found : Node} (hpath : path ≠ [])
    (h : node.descend path = some found) :
    (⟨p.anchor, p.parts ++ path⟩, found) ∈ node.inventory p := by
  induction path generalizing node p with
  | nil => exact absurd rfl hpath
  | cons name path ih =>
    obtain ⟨below, hbelow, hrest⟩ := Option.bind_eq_some_iff.1 h
    cases node with
    | directory entries =>
      obtain ⟨e, he, rfl⟩ := Option.map_eq_some_iff.1 hbelow
      obtain rfl : e.name = name := by simpa using List.find?_some he
      have hsubset := inventory_subset (p := p) (List.mem_of_find?_eq_some he)
      rw [Node.inventory]
      cases path with
      | nil =>
        obtain rfl := Option.some.inj hrest
        exact hsubset (by simp [entryInventory_eq, Path.child])
      | cons next path =>
        have hq := ih (p := p.child e.name) (by simp) hrest
        exact hsubset (by simpa [entryInventory_eq, Path.child] using hq)
    | _ => simp [Node.child?] at hbelow

/-- Whether links lie on a disk can be told from its inventory. -/
lemma Disk.linkless_of_inventory
    (h : (disk.root.inventory p).all (fun found => !found.2.isLink) = true) : disk.Linkless := by
  intro l hlink
  obtain ⟨target, htarget⟩ := hasLink_iff.1 hlink
  rw [node?_eq_descend] at htarget
  have hpath : l.reverse ≠ [] := by
    intro hnil
    simp [hnil, Node.descend, root] at htarget
  have hfound := mem_inventory_of_descend (p := p) hpath htarget
  simpa [Node.isLink] using List.all_eq_true.1 h _ hfound

/-- **Where parts lead by their names alone.** -/
def nominal (l : Location) (parts : List Text) : Location :=
  parts.foldl (fun l part =>
    if part = dotDot then l.tail else if part = dot ∨ part = [] then l else entryName part :: l) l

lemma nominal_append (l : Location) (front rest : List Text) :
    nominal l (front ++ rest) = nominal (nominal l front) rest := List.foldl_append

/-- Parts lead to what they stand for. -/
lemma nominal_parts {parts : List Text} (h : ∀ part ∈ parts, validName (entryName part))
    (l : Location) : nominal l parts = (parts.map entryName).reverse ++ l := by
  induction parts generalizing l with
  | nil => rfl
  | cons part parts ih =>
    obtain ⟨hup, hhere⟩ := isProper_of_validName_entryName (h part (by simp))
    have hstep : nominal l (part :: parts) = nominal (entryName part :: l) parts := by
      rw [nominal, List.foldl_cons, if_neg hup, if_neg hhere, nominal]
    rw [hstep, ih fun other hother => h other (by simp [hother])]
    simp

lemma map_entryName {names : List Text} (h : ∀ name ∈ names, validName name) :
    names.map entryName = names := by
  rw [List.map_congr_left fun name hname => entryName_of_validName (h name hname), List.map_id'']
  exact fun _ => rfl

/-- Names lead where they say. -/
lemma nominal_names {names : List Text} (h : ∀ name ∈ names, validName name) (l : Location) :
    nominal l names = names.reverse ++ l := by
  have hvalid : ∀ name ∈ names, validName (entryName name) := fun name hname =>
    (entryName_of_validName (h name hname)).symm ▸ h name hname
  rw [nominal_parts hvalid, map_entryName h]

lemma nominal_child {name : Text} (h : validName name) (l : Location) (p : Path) :
    nominal l (p.child name).parts = name :: nominal l p.parts := by
  rw [Path.child, nominal_append, nominal_names (by simpa using h)]
  rfl

/-- There is the same kind of thing at a place, directories being one kind and everything else that
is no link another. -/
def SameKind (old new : Disk) (l : Location) : Prop :=
  (new.node? l = none ↔ old.node? l = none) ∧ (new.HasDirectory l ↔ old.HasDirectory l)

lemma sameKind_of_face? (h : new.face? l = old.face? l) : SameKind old new l := by
  constructor
  · rw [← Disk.face?_eq_none, ← Disk.face?_eq_none, h]
  · rw [Disk.HasDirectory, Disk.HasDirectory, h]

namespace Disk

/-- A walk on a disk without links, one part at a time. -/
lemma walk_cons_of_linkless (h : disk.Linkless) (making : Bool) (n : Nat) (l : Location)
    (part : Text) (parts : List Text) :
    walk disk.root making n (disk.trail l) (part :: parts) =
      match disk.node? l with
      | none => .error .noEntry
      | some (.directory _) =>
        if part = dotDot then walk disk.root making n (disk.trail l.tail) parts
        else if part = dot ∨ part = [] then walk disk.root making n (disk.trail l) parts
        else if making ∧ parts = [[]] then .error .isDirectory
        else if nameLimit < byteLength part then .error .nameTooLong
        else walk disk.root making n (disk.trail (entryName part :: l)) parts
      | some _ => .error .notDirectory := by
  rw [walk_cons, node?_trail, tail_trail, step_trail, node?_trail]
  cases hnode : disk.node? (entryName part :: l) with
  | none => rfl
  | some node =>
    cases node with
    | link target => exact absurd (hasLink_iff.2 ⟨target, hnode⟩) (h (entryName part :: l))
    | _ => rfl

/-- On disks without links walks end alike, if there are the same kinds of things on the way. -/
lemma walk_congr (making : Bool) (n : Nat) (hold : old.Linkless) (hnew : new.Linkless)
    (h : ∀ front, front <+: parts → SameKind old new (nominal l front)) :
    (walk new.root making n (new.trail l) parts).map Trail.location =
      (walk old.root making n (old.trail l) parts).map Trail.location := by
  induction parts generalizing l with
  | nil => simp only [walk_nil, Except.map, location_trail]
  | cons part parts ih =>
    have hhere : SameKind old new l := h [] List.nil_prefix
    -- what is to be said of the other parts, wherever this one leads
    have hnext (l' : Location) (hl' : nominal l [part] = l') :
        (walk new.root making n (new.trail l') parts).map Trail.location =
          (walk old.root making n (old.trail l') parts).map Trail.location := by
      refine ih fun front hfront => ?_
      have hsame := h (part :: front) (List.cons_prefix_cons.2 ⟨rfl, hfront⟩)
      rwa [← List.singleton_append, nominal_append, hl'] at hsame
    rw [walk_cons_of_linkless hold, walk_cons_of_linkless hnew]
    by_cases hdirectory : old.HasDirectory l
    · obtain ⟨before, hbefore⟩ := hasDirectory_iff.1 hdirectory
      obtain ⟨now, hnow⟩ := hasDirectory_iff.1 (hhere.2.2 hdirectory)
      simp only [hbefore, hnow]
      split_ifs with hup hstay
      · exact hnext _ (by simp [nominal, hup])
      · exact hnext _ (by simp [nominal, hup, hstay])
      · rfl
      · rfl
      · exact hnext _ (by simp [nominal, hup, hstay])
    · have hnot : ¬ new.HasDirectory l := mt hhere.2.1 hdirectory
      rw [hasDirectory_iff] at hdirectory hnot
      cases hbefore : old.node? l with
      | none => rw [hhere.1.2 hbefore]
      | some before =>
        cases hnow : new.node? l with
        | none => simp [hhere.1.1 hnow] at hbefore
        | some now => cases before <;> cases now <;> simp_all

/-- **Paths on disks without links** lead to the same place if there are the same kinds of things on
the way. -/
lemma locate_congr (hold : old.Linkless) (hnew : new.Linkless) (hhere : new.here = old.here)
    (h : ∀ front, front <+: p.parts → SameKind old new (nominal (old.origin p) front)) :
    new.locate p = old.locate p := by
  have horigin := origin_congr hhere p
  have hwalk := walk_congr false linkLimit hold hnew h
  rw [locate, locate, follow, follow, start_eq_trail, start_eq_trail, horigin]
  cases p.fault? with
  | some fault => rfl
  | none =>
    dsimp only
    revert hwalk
    cases walk new.root false linkLimit (new.trail (old.origin p)) p.parts <;>
      cases walk old.root false linkLimit (old.trail (old.origin p)) p.parts <;>
      simp [Except.map, Except.mapError]

/-- What parts lead to on a disk without links is told by their names. -/
lemma Leads.eq_nominal (h : disk.Linkless) {making : Bool} {n m : Nat}
    (hleads : disk.Leads making n l parts m place) :
    place = nominal l parts := by
  induction hleads with
  | done n l => rfl
  | up _ _ ih => rw [ih]; simp [nominal]
  | @stay n m l place part parts _ hpart _ ih =>
    have hup : part ≠ dotDot := by rcases hpart with rfl | rfl <;> decide
    rw [ih]
    simp [nominal, hup, hpart]
  | enter _ hname _ _ ih =>
    rw [ih]
    simp [nominal, hname.notUp, hname.notHere]
  | link _ _ hlink _ _ => exact absurd ⟨_, hlink⟩ (h _)

/-- A path on a disk without links leads where its names say. -/
lemma locate_eq_nominal (h : disk.Linkless) (hplace : disk.locate p = .ok place) :
    place = nominal (disk.origin p) p.parts := by
  obtain ⟨-, m, hleads⟩ := locate_eq_ok_iff.1 hplace
  exact hleads.eq_nominal h

end Disk

/-! ## Trees apart from a directory -/

namespace Disk

/-- **Apart.**  By its names a path leads neither to a directory nor above it nor into it, and where
it passes through the directory on its way, there are directories already. -/
structure IsApart (disk : Disk) (p : Path) (place : Location) : Prop where
  /-- It does not lead into the directory. -/
  notBelow : ¬ place <:+ nominal (disk.origin p) p.parts
  /-- It leads neither to the directory nor above it. -/
  notAbove : ¬ nominal (disk.origin p) p.parts <:+ place
  /-- Whatever it passes through inside is a directory. -/
  way : ∀ front, front <+: p.parts → place <:+ nominal (disk.origin p) front →
    nominal (disk.origin p) front = place ∨ disk.HasDirectory (nominal (disk.origin p) front)

namespace IsApart

/-- A path stays apart as long as directories stay. -/
lemma keep (h : old.IsApart p place) (hhere : new.here = old.here)
    (hdirectory : ∀ l, place <:+ l → old.HasDirectory l → new.HasDirectory l) :
    new.IsApart p place := by
  have horigin := origin_congr hhere p
  refine ⟨horigin ▸ h.notBelow, horigin ▸ h.notAbove, fun front hfront hsuffix => ?_⟩
  rw [horigin] at hsuffix ⊢
  exact (h.way front hfront hsuffix).imp_right (hdirectory _ hsuffix)

lemma grows (h : old.IsApart p place) (hgrows : old.Grows new) : new.IsApart p place :=
  h.keep hgrows.here fun l _ => hgrows.directory l

end IsApart

end Disk

/-- Names that go on from a path into another place never lead into a directory. -/
lemma not_suffix_of_names {start : Location} {names : List Text}
    (hbelow : ¬ place <:+ nominal start parts) (habove : ¬ nominal start parts <:+ place)
    (hnames : ∀ name ∈ names, validName name) : ¬ place <:+ nominal start (parts ++ names) := by
  intro hsuffix
  rw [nominal_append, nominal_names hnames] at hsuffix
  rcases List.suffix_or_suffix_of_suffix hsuffix (List.suffix_append _ _) with h | h
  · exact hbelow h
  · exact habove h

/-- **Beside.**  By its names a path leads neither to a directory nor above it nor into it. -/
def Disk.IsBeside (disk : Disk) (p : Path) (place : Location) : Prop :=
  ¬ place <:+ nominal (disk.origin p) p.parts ∧ ¬ nominal (disk.origin p) p.parts <:+ place

namespace Disk.IsBeside

lemma grows (h : old.IsBeside p place) (hgrows : old.Grows new) : new.IsBeside p place := by
  rw [IsBeside, hgrows.origin]
  exact h

lemma join {name : Text} (h : disk.IsBeside p place) (hvalid : validName name) :
    disk.IsBeside (p.join name) place := by
  have horigin : disk.origin (p.child name) = disk.origin p := rfl
  rw [Path.join_of_validName hvalid]
  refine ⟨not_suffix_of_names h.1 h.2 (by simpa using hvalid), fun hsuffix => h.2 ?_⟩
  rw [horigin, nominal_child hvalid] at hsuffix
  exact (List.suffix_cons name _).trans hsuffix

/-- Where the path leads, if it leads anywhere. -/
lemma of_locate (h : disk.IsBeside p place) (hlinkless : disk.Linkless)
    (hl : disk.locate p = .ok l) : ¬ place <:+ l ∧ ¬ l <:+ place := by
  rw [Disk.locate_eq_nominal hlinkless hl]
  exact h

end Disk.IsBeside

/-- **Changes in one directory are not seen** from paths that lead neither above nor into it, if
there is the same kind of thing wherever they pass through it. -/
lemma sameTree_of_kinds (hold : old.Linkless) (hconfined : old.Confined (place <:+ ·) new)
    (hbelow : ¬ place <:+ nominal (old.origin p) p.parts)
    (habove : ¬ nominal (old.origin p) p.parts <:+ place)
    (hway : ∀ front, front <+: p.parts → place <:+ nominal (old.origin p) front →
      SameKind old new (nominal (old.origin p) front)) : SameTree p old new := by
  intro names hnames
  have horigin : old.origin ⟨p.anchor, p.parts ++ names⟩ = old.origin p := rfl
  refine sameAt_of_face? (Disk.locate_congr hold (hold.grows hconfined.grows) hconfined.grows.here
    fun front hfront => ?_) (fun l hl => hconfined.same l ?_) hconfined.grows.fleeting
  · rw [horigin]
    by_cases hsuffix : place <:+ nominal (old.origin p) front
    · rcases List.prefix_or_prefix_of_prefix hfront (List.prefix_append p.parts names) with hp | hp
      · exact hway front hp hsuffix
      · obtain ⟨more, rfl⟩ := hp
        have hmore := (List.prefix_append_right_inj p.parts).1 hfront
        exact absurd hsuffix (not_suffix_of_names hbelow habove fun name hname =>
          hnames name (hmore.subset hname))
    · exact sameKind_of_face? (hconfined.same _ hsuffix)
  · rw [Disk.locate_eq_nominal hold hl, horigin]
    exact not_suffix_of_names hbelow habove hnames

/-- What is a directory stays one. -/
lemma Disk.Grows.sameKind (h : old.Grows new) (hl : old.HasDirectory l) : SameKind old new l :=
  ⟨iff_of_false (h.directory l hl).node?_ne_none hl.node?_ne_none,
    iff_of_true (h.directory l hl) hl⟩

/-- **Changes in one directory are not seen** from paths that are apart from it. -/
lemma sameTree_of_confined (hold : old.Linkless) (hconfined : old.Confined (place <:+ ·) new)
    (hdirectory : old.HasDirectory place) (hapart : old.IsApart p place) : SameTree p old new := by
  refine sameTree_of_kinds hold hconfined hapart.notBelow hapart.notAbove
    fun front hfront hsuffix => hconfined.grows.sameKind ?_
  rcases hapart.way front hfront hsuffix with hplace | hthere
  · exact hplace ▸ hdirectory
  · exact hthere

/-! ## Directories that are left alone -/

namespace Disk

/-- **Untouched.**  A path leads where it led, and all that shows there and below is the same. -/
structure Untouched (p : Path) (old new : Disk) : Prop where
  /-- The path leads to the same place. -/
  leads : new.locate p = old.locate p
  /-- The same shows there and below. -/
  same : ∀ place, old.locate p = .ok place → ∀ l, place <:+ l → new.face? l = old.face? l

/-- A directory in which there are only files has been left alone if the same shows in it and at
each of its names. -/
lemma untouched_of_files {names : List (Text × Option Nat)} (hplace : old.locate p = .ok place)
    (hleads : new.locate p = .ok place) (hold : old.face? place = some (.directory names))
    (hnew : new.face? place = some (.directory names))
    (hfiles : ∀ name ∈ names.map (·.1), ∃ content stamp,
      old.face? (name :: place) = some (.file content stamp) ∧
        new.face? (name :: place) = some (.file content stamp)) : Untouched p old new := by
  refine ⟨hleads.trans hplace.symm, fun place' hplace' l hl => ?_⟩
  obtain rfl : place = place' := Except.ok.inj (hplace.symm.trans hplace')
  obtain ⟨inner, rfl⟩ := hl
  rcases List.eq_nil_or_concat inner with rfl | ⟨init, name, rfl⟩
  · rw [List.nil_append, hold, hnew]
  · rw [List.concat_eq_append, List.append_assoc, List.singleton_append]
    -- what is no directory has nothing below it
    have hbelow (disk : Disk) (hinit : init ≠ []) (h : ¬ disk.HasDirectory (name :: place)) :
        disk.face? (init ++ name :: place) = none :=
      face?_eq_none.2 (node?_append_eq_none hinit h)
    by_cases hname : name ∈ names.map (·.1)
    · obtain ⟨content, stamp, hbefore, hafter⟩ := hfiles name hname
      by_cases hinit : init = []
      · rw [hinit, List.nil_append, hbefore, hafter]
      · rw [hbelow old hinit (by simp [HasDirectory, hbefore]),
          hbelow new hinit (by simp [HasDirectory, hafter])]
    · have habsent (disk : Disk) (h : disk.face? place = some (.directory names)) :
          disk.face? (name :: place) = none :=
        face?_eq_none.2 (not_not.1 (mt (node?_cons_ne_none_iff h).1 hname))
      by_cases hinit : init = []
      · rw [hinit, List.nil_append, habsent old hold, habsent new hnew]
      · rw [hbelow old hinit (by simp [HasDirectory, habsent old hold]),
          hbelow new hinit (by simp [HasDirectory, habsent new hnew])]

variable (huntouched : Untouched p old new)

include huntouched

lemma Untouched.hasDirectory (hplace : old.locate p = .ok place) (hsuffix : place <:+ l)
    (h : old.HasDirectory l) : new.HasDirectory l := by
  rw [HasDirectory, huntouched.same place hplace l hsuffix]
  exact h

lemma OpensAt.untouched {names : List Text} (hopens : old.OpensAt p place names)
    (hlinkless : new.Linkless) : new.OpensAt p place names where
  leads := huntouched.leads.trans hopens.leads
  directory := huntouched.hasDirectory hopens.leads (List.suffix_refl _) hopens.directory
  linkless := hlinkless.linklessAt place names

/-- A file in a directory that is left alone keeps its contents. -/
lemma OpensAt.read_child {name : Text} {names : List Text} {content : Bytes}
    (hopens : old.OpensAt p place names) (hlinkless : new.Linkless) (hname : name ∈ names)
    (hvalid : validName name) (h : old.read (p.child name) = .ok content) :
    new.read (p.child name) = .ok content := by
  obtain ⟨l, stamp, hl, hface⟩ := read_eq_ok_iff.1 h
  have hfault := (locate_eq_ok_iff.1 hl).1
  obtain rfl : name :: place = l :=
    Except.ok.inj ((hopens.locate_child hname hfault hvalid).symm.trans hl)
  refine read_eq_ok_iff.2 ⟨name :: place, stamp, ?_, ?_⟩
  · exact (hopens.untouched huntouched hlinkless).locate_child hname hfault hvalid
  · rw [huntouched.same place hopens.leads _ (List.suffix_cons name place), hface]

end Disk

end Storage

end OnePage
