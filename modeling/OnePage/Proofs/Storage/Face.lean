import OnePage.Storage.Disk
import Mathlib.Data.List.Basic
import Mathlib.Data.List.Infix

/-!
# What shows at a location

All that operations on single paths ask about a location is what shows there: a file with its
contents, a link with its target, or a directory with the names in it.  This file says what every
change of a disk does to that, location by location.

* `Face` is what shows, and `Disk.face?` is what shows at a location.
* `Disk.face?_change` — a change in a directory shows in it and below it only.
* `Disk.face?_put_below`, `Disk.face?_put_parent` and `Disk.face?_put_of_not_suffix` — all that
  shows after something has been put at a location.
* `Disk.face?_remove_below`, `Disk.face?_remove_parent` and `Disk.face?_remove_of_not_suffix` — the
  same for something that has been removed.
-/

namespace OnePage

namespace Storage

/-! ## Faces -/

/-- What shows at a location. -/
inductive Face where
  /-- A file with its contents. -/
  | file (content : Bytes) (stamp : Stamp)
  /-- A directory with the names in it, and which of the edits by hand made each, if one did. -/
  | directory (names : List (Text × Option Nat))
  /-- A symbolic link with the path it leads to. -/
  | link (target : Text)
deriving DecidableEq

/-- What shows of a node. -/
def Node.face : Node → Face
  | file content stamp => .file content stamp
  | directory entries => .directory (entries.map fun e => (e.name, e.made))
  | link target => .link target

namespace Face

/-- A directory in which a name has come up. -/
def adding (name : Text) : Face → Face
  | directory names =>
    .directory (if ∃ entry ∈ names, entry.1 = name then names else names ++ [(name, none)])
  | face => face

/-- A directory from which a name has gone. -/
def dropping (name : Text) : Face → Face
  | directory names => .directory (names.filter fun entry => entry.1 ≠ name)
  | face => face

/-- Adding a name once more changes nothing. -/
@[simp]
lemma adding_adding (name : Text) (face : Face) : (face.adding name).adding name =
    face.adding name := by
  cases face with
  | directory names =>
    by_cases h : ∃ entry ∈ names, entry.1 = name
    · simp only [adding, if_pos h]
    · have hnow : ∃ entry ∈ names ++ [(name, none)], entry.1 = name := ⟨(name, none), by simp⟩
      simp only [adding, if_neg h, if_pos hnow]
  | _ => rfl

lemma dropping_of_not_mem {name : Text} {names : List (Text × Option Nat)}
    (h : name ∉ names.map (·.1)) : (directory names).dropping name = .directory names := by
  refine congrArg directory (List.filter_eq_self.2 fun entry hentry => ?_)
  simpa using fun heq => h (List.mem_map.2 ⟨entry, hentry, heq⟩)

/-- A name that was not there and is added and dropped has left no trace. -/
lemma dropping_adding {name : Text} {names : List (Text × Option Nat)}
    (h : name ∉ names.map (·.1)) :
    ((directory names).adding name).dropping name = .directory names := by
  have hlast : [(name, (none : Option Nat))].filter (fun entry => entry.1 ≠ name) = [] := by simp
  have hkept := directory.inj (dropping_of_not_mem h)
  rw [List.mem_map] at h
  rw [adding, if_neg h, dropping, List.filter_append, hkept, hlast, List.append_nil]

end Face

namespace Disk

/-- What shows at a location, if anything does. -/
def face? (disk : Disk) (location : Location) : Option Face := (disk.node? location).map Node.face

/-- There is a directory at a location. -/
def HasDirectory (disk : Disk) (location : Location) : Prop :=
  ∃ names, disk.face? location = some (.directory names)

/-- There is a link at a location. -/
def HasLink (disk : Disk) (location : Location) : Prop :=
  ∃ target, disk.face? location = some (.link target)

variable {disk : Disk} {location : Location}

lemma hasDirectory_iff :
    disk.HasDirectory location ↔ ∃ entries, disk.node? location = some (.directory entries) := by
  rw [HasDirectory, face?]
  cases disk.node? location with
  | none => simp
  | some node => cases node <;> simp [Node.face]

lemma hasLink_iff :
    disk.HasLink location ↔ ∃ target, disk.node? location = some (.link target) := by
  rw [HasLink, face?]
  cases disk.node? location with
  | none => simp
  | some node => cases node <;> simp [Node.face]

lemma face?_eq_file {content : Bytes} {stamp : Stamp} :
    disk.face? location = some (.file content stamp) ↔
      disk.node? location = some (.file content stamp) := by
  rw [face?]
  cases disk.node? location with
  | none => simp
  | some node => cases node <;> simp [Node.face]

lemma face?_eq_link {target : Text} :
    disk.face? location = some (.link target) ↔ disk.node? location = some (.link target) := by
  rw [face?]
  cases disk.node? location with
  | none => simp
  | some node => cases node <;> simp [Node.face]

@[simp]
lemma face?_eq_none : disk.face? location = none ↔ disk.node? location = none := by
  simp [face?]

lemma HasDirectory.not_hasLink (h : disk.HasDirectory location) : ¬ disk.HasLink location := by
  rintro ⟨target, hlink⟩
  obtain ⟨names, hnames⟩ := h
  simp [hnames] at hlink

lemma HasDirectory.node?_ne_none (h : disk.HasDirectory location) : disk.node? location ≠ none := by
  obtain ⟨entries, hentries⟩ := hasDirectory_iff.1 h
  simp [hentries]

lemma hasDirectory_root : disk.HasDirectory [] := ⟨_, rfl⟩

/-- There is something at a name in a directory if the name shows there. -/
lemma node?_cons_ne_none_iff {name : Text} {parent : Location} {names : List (Text × Option Nat)}
    (hparent : disk.face? parent = some (.directory names)) :
    disk.node? (name :: parent) ≠ none ↔ name ∈ names.map (·.1) := by
  rw [face?] at hparent
  cases hnode : disk.node? parent with
  | none => simp [hnode] at hparent
  | some node =>
    cases node with
    | directory entries =>
      obtain rfl : entries.map (fun e => (e.name, e.made)) = names := by
        simpa [hnode, Node.face] using hparent
      simp [node?, hnode, Node.child?, Entries.find?, List.find?_eq_none]
    | _ => simp [hnode, Node.face] at hparent

end Disk

/-! ## Going down from a node -/

namespace Node

/-- What names lead to from a node, outermost name first. -/
def descend (node : Node) : List Text → Option Node
  | [] => some node
  | name :: path => (node.child? name).bind (·.descend path)

/-- A change in the directory that names lead to. -/
def within (act : Entries → Entries) (path : List Text) : Node → Node
  | directory entries => .directory (Entries.within act path entries)
  | node => node

lemma descend_append (node : Node) (path rest : List Text) :
    node.descend (path ++ rest) = (node.descend path).bind (·.descend rest) := by
  induction path generalizing node with
  | nil => rfl
  | cons name path ih =>
    simp only [List.cons_append, descend, Option.bind_assoc]
    exact congrArg _ (funext fun node => ih node)

/-- Nothing lies below what is no directory, nor in an empty one. -/
lemma descend_eq_none {node : Node} (h : ∀ name, node.child? name = none) {path : List Text}
    (hpath : path ≠ []) : node.descend path = none := by
  cases path with
  | nil => exact absurd rfl hpath
  | cons name path => rw [descend, h, Option.bind_none]

end Node

namespace Entries

lemma find?_update (name other : Text) (change : Node → Node) (entries : Entries) :
    (entries.update name fun e => { e with node := change e.node }).find? other =
      if other = name then (entries.find? other).map change else entries.find? other := by
  have hsame : ((fun e : Entry Node => decide (e.name = other)) ∘ fun e =>
      if e.name = name then { e with node := change e.node } else e) =
      fun e => decide (e.name = other) := by
    funext e
    by_cases h : e.name = name <;> simp [h]
  rw [find?, update, List.find?_map, hsame, Option.map_map, find?]
  by_cases h : other = name
  · rw [if_pos h, Option.map_map]
    refine Option.map_congr fun e he => ?_
    have hfound : e.name = other := by simpa using List.find?_some he
    simp [hfound, h]
  · rw [if_neg h]
    refine Option.map_congr fun e he => ?_
    have hfound : e.name = other := by simpa using List.find?_some he
    simp [hfound, h]

lemma map_update (name : Text) (change : Node → Node) (entries : Entries) :
    (entries.update name fun e => { e with node := change e.node }).map
      (fun e => (e.name, e.made)) = entries.map fun e => (e.name, e.made) := by
  rw [update, List.map_map]
  refine List.map_congr_left fun e _ => ?_
  by_cases hname : e.name = name <;> simp [hname]

/-- A change further down leaves an entry what it is but for what it stands for. -/
lemma within_cons (act : Entries → Entries) (name : Text) (path : List Text) (entries : Entries) :
    entries.within act (name :: path) =
      entries.update name fun e => { e with node := e.node.within act path } := by
  rw [within]
  congr 1
  funext e
  obtain ⟨_, _, node⟩ := e
  cases node <;> simp [Node.within]

lemma find?_within_cons (act : Entries → Entries) (name other : Text) (path : List Text)
    (entries : Entries) : (entries.within act (name :: path)).find? other =
      if other = name then (entries.find? other).map (Node.within act path)
      else entries.find? other := by
  rw [within_cons, find?_update]

lemma find?_put (name other : Text) (node : Node) (entries : Entries) :
    (entries.put name node).find? other =
      if other = name then some node else entries.find? other := by
  rw [put]
  split
  · next hthere =>
    rw [find?_update name other fun _ => node]
    by_cases h : other = name
    · subst h
      obtain ⟨old, hold⟩ := Option.isSome_iff_exists.1 hthere
      rw [if_pos rfl, if_pos rfl, hold, Option.map_some]
    · rw [if_neg h, if_neg h]
  · next hfree =>
    have hnone : List.find? (fun e => e.name = name) entries = none := by
      simpa [find?] using hfree
    rw [find?, List.find?_append, List.find?_singleton]
    by_cases h : other = name
    · subst h
      simp [hnone]
    · simp [h, Ne.symm h, find?]

lemma find?_erase (name other : Text) (entries : Entries) :
    (entries.erase name).find? other = if other = name then none else entries.find? other := by
  rw [find?, erase, List.find?_filter]
  by_cases h : other = name
  · subst h
    rw [if_pos rfl, Option.map_eq_none_iff, List.find?_eq_none]
    simp
  · rw [if_neg h, find?]
    congr 2
    funext e
    by_cases he : e.name = other <;> simp [he, h]

lemma face_put (name : Text) (node : Node) (entries : Entries) :
    (Node.directory (entries.put name node)).face =
      (Node.directory entries).face.adding name := by
  have hthere : (entries.find? name).isSome ↔
      ∃ entry ∈ entries.map fun e => (e.name, e.made), entry.1 = name := by
    rw [find?, Option.isSome_map, List.find?_isSome]
    simp
  rw [put, Node.face, Node.face, Face.adding]
  by_cases h : (entries.find? name).isSome
  · rw [if_pos h, if_pos (hthere.1 h), map_update name fun _ => node]
  · rw [if_neg h, if_neg (mt hthere.2 h), List.map_append, List.map_singleton]

lemma face_erase (name : Text) (entries : Entries) :
    (Node.directory (entries.erase name)).face = (Node.directory entries).face.dropping name := by
  rw [Node.face, Node.face, Face.dropping, erase, List.filter_map]
  rfl

end Entries

/-! ## What a change does -/

namespace Node

variable {act : Entries → Entries}

/-- A change shows in the directory it is made in and below it. -/
lemma descend_within_append (path rest : List Text) (node : Node) :
    (node.within act path).descend (path ++ rest) =
      (node.descend path).bind fun found => (found.within act []).descend rest := by
  induction path generalizing node with
  | nil => rfl
  | cons name path ih =>
    cases node with
    | directory entries =>
      simp only [List.cons_append, descend, within, child?, Entries.find?_within_cons, if_true]
      cases Entries.find? entries name with
      | none => rfl
      | some below => exact ih below
    | _ => rfl

/-- A change shows nowhere else. -/
lemma face_descend_within {path q : List Text} (h : ¬ path <+: q) (node : Node) :
    ((node.within act path).descend q).map face = (node.descend q).map face := by
  induction path generalizing node q with
  | nil => exact absurd (List.nil_prefix) h
  | cons name path ih =>
    cases node with
    | directory entries =>
      cases q with
      | nil =>
        simp only [within, descend, Option.map_some, face, Entries.within_cons]
        exact congrArg (some ∘ Face.directory) (Entries.map_update name (within act path) entries)
      | cons other q =>
        simp only [descend, within, child?, Entries.find?_within_cons]
        by_cases hname : other = name
        · subst hname
          have hrest : ¬ path <+: q := fun hbegins => h (List.cons_prefix_cons.2 ⟨rfl, hbegins⟩)
          cases Entries.find? entries other with
          | none => simp
          | some below => simpa using ih hrest below
        · rw [if_neg hname]
    | _ => rfl

end Node

namespace Disk

variable {disk : Disk} {location directory : Location}

lemma node?_append (disk : Disk) (inner outer : Location) :
    disk.node? (inner ++ outer) = (disk.node? outer).bind (·.descend inner.reverse) := by
  induction inner with
  | nil =>
    rw [List.nil_append, List.reverse_nil]
    exact (Option.bind_fun_some _).symm
  | cons name inner ih =>
    rw [List.cons_append, node?, ih, List.reverse_cons, Option.bind_assoc]
    refine congrArg _ (funext fun node => ?_)
    rw [Node.descend_append]
    refine congrArg _ (funext fun below => ?_)
    exact (Option.bind_fun_some _).symm

lemma node?_eq_descend (disk : Disk) (location : Location) :
    disk.node? location = disk.root.descend location.reverse := by
  simpa [node?] using disk.node?_append location []

/-- Whatever is there lies in a directory. -/
lemma hasDirectory_of_node?_cons {name : Text} (h : disk.node? (name :: location) ≠ none) :
    disk.HasDirectory location := by
  rw [hasDirectory_iff]
  rw [node?] at h
  cases hnode : disk.node? location with
  | none => simp [hnode] at h
  | some node => cases node <;> simp [hnode, Node.child?] at h ⊢

/-- What a directory lies in is one. -/
lemma HasDirectory.tail (h : disk.HasDirectory location) : disk.HasDirectory location.tail := by
  cases location with
  | nil => exact hasDirectory_root
  | cons name parent => exact hasDirectory_of_node?_cons h.node?_ne_none

/-- Nothing is below what is no directory. -/
lemma node?_append_eq_none {inner : Location} (hinner : inner ≠ [])
    (h : ¬ disk.HasDirectory location) : disk.node? (inner ++ location) = none := by
  induction inner with
  | nil => exact absurd rfl hinner
  | cons name inner ih =>
    by_contra hthere
    have hdirectory := hasDirectory_of_node?_cons hthere
    cases inner with
    | nil => exact h hdirectory
    | cons other inner =>
      obtain ⟨entries, hentries⟩ := hasDirectory_iff.1 hdirectory
      exact absurd (hentries.symm.trans (ih (by simp))) (by simp)

section Change

variable {act : Entries → Entries}
  (keeps : ∀ {entries : Entries}, entries.Sound → (act entries).Sound)

/-- **A change in a directory** shows neither outside it nor on the way to it. -/
lemma face?_change (h : ¬ directory <:+ location) :
    (disk.change directory act keeps).face? location = disk.face? location := by
  rw [face?, face?, node?_eq_descend, node?_eq_descend]
  refine Node.face_descend_within (fun hbegins => h ?_) disk.root
  rwa [← List.reverse_prefix]

lemma node?_change (disk : Disk) (directory inner : Location) :
    (disk.change directory act keeps).node? (inner ++ directory) =
      (disk.node? directory).bind fun node => (node.within act []).descend inner.reverse := by
  rw [node?_eq_descend, node?_eq_descend, List.reverse_append]
  exact Node.descend_within_append directory.reverse inner.reverse disk.root

/-- A change in a directory shows in one entry of it and below it if it leaves the others as they
are. -/
lemma face?_change_of_find? {name : Text}
    (hact : ∀ other entries, other ≠ name → (act entries).find? other = entries.find? other)
    (hlocation : ¬ name :: directory <:+ location) (hne : location ≠ directory) :
    (disk.change directory act keeps).face? location = disk.face? location := by
  by_cases hsuffix : directory <:+ location
  · obtain ⟨inner, rfl⟩ := hsuffix
    obtain ⟨inner, other, rfl⟩ : ∃ rest last, inner = rest ++ [last] := by
      rcases List.eq_nil_or_concat inner with rfl | ⟨rest, last, rfl⟩
      · exact absurd rfl hne
      · exact ⟨rest, last, List.concat_eq_append⟩
    have hother : other ≠ name := by
      rintro rfl
      exact hlocation ⟨inner, by simp⟩
    rw [face?, face?, node?_change, node?_append]
    congr 2
    funext node
    cases node with
    | directory entries =>
      simp only [List.reverse_append, List.reverse_singleton, List.singleton_append, Node.descend,
        Node.within, Node.child?, Entries.within, hact other entries hother]
    | _ => rfl
  · exact face?_change keeps hsuffix

end Change

/-! ### Putting -/

variable {name : Text} {parent : Location} {node : Node} {hnode : node.Sound}

lemma put_eq_change (hvalid : validName name) :
    disk.put (name :: parent) node hnode = disk.change parent (Entries.put name node)
      fun entries => entries.put hvalid hnode := by
  rw [put, dif_pos hvalid]

/-- What has been put somewhere shows there with all that lies below it. -/
lemma face?_put_below (hvalid : validName name) (hparent : disk.HasDirectory parent)
    (inner : Location) : (disk.put (name :: parent) node hnode).face? (inner ++ name :: parent) =
      (node.descend inner.reverse).map Node.face := by
  obtain ⟨entries, hentries⟩ := hasDirectory_iff.1 hparent
  have happend : inner ++ name :: parent = (inner ++ [name]) ++ parent := by simp
  rw [put_eq_change hvalid, face?, happend, node?_change, hentries]
  simp [Node.within, Entries.within, Node.descend, Node.child?, Entries.find?_put]

lemma face?_put (hvalid : validName name) (hparent : disk.HasDirectory parent) :
    (disk.put (name :: parent) node hnode).face? (name :: parent) = some node.face :=
  face?_put_below hvalid hparent []

/-- The directory has the name from then on. -/
lemma face?_put_parent (hvalid : validName name) :
    (disk.put (name :: parent) node hnode).face? parent =
      (disk.face? parent).map (Face.adding name) := by
  have hchange := node?_change (fun {entries} (h : entries.Sound) => h.put hvalid hnode)
    disk parent []
  rw [List.nil_append] at hchange
  rw [put_eq_change hvalid, face?, hchange, face?]
  cases disk.node? parent with
  | none => rfl
  | some found =>
    cases found with
    | directory entries =>
      exact congrArg some (Entries.face_put name node entries)
    | _ => rfl

/-- Nothing else changes. -/
lemma face?_put_of_not_suffix (hlocation : ¬ name :: parent <:+ location)
    (hne : location ≠ parent) :
    (disk.put (name :: parent) node hnode).face? location = disk.face? location := by
  by_cases hvalid : validName name
  · rw [put_eq_change hvalid]
    refine face?_change_of_find? _ (fun other entries hother => ?_) hlocation hne
    rw [Entries.find?_put, if_neg hother]
  · rw [put, dif_neg hvalid]

/-! ### Removing -/

/-- What has been removed is gone with all that lay below it. -/
lemma face?_remove_below (inner : Location) :
    (disk.remove (name :: parent)).face? (inner ++ name :: parent) = none := by
  have happend : inner ++ name :: parent = (inner ++ [name]) ++ parent := by simp
  rw [remove, face?, happend, node?_change, Option.map_eq_none_iff]
  cases disk.node? parent with
  | none => rfl
  | some found =>
    cases found with
    | directory entries =>
      simp [Node.within, Entries.within, Node.descend, Node.child?, Entries.find?_erase]
    | _ => simp [Node.within, Node.descend, Node.child?]

lemma face?_remove_parent :
    (disk.remove (name :: parent)).face? parent = (disk.face? parent).map (Face.dropping name) := by
  have hchange := node?_change (fun {entries} (h : entries.Sound) => h.erase name) disk parent []
  rw [List.nil_append] at hchange
  rw [remove, face?, hchange, face?]
  cases disk.node? parent with
  | none => rfl
  | some found =>
    cases found with
    | directory entries => exact congrArg some (Entries.face_erase name entries)
    | _ => rfl

lemma face?_remove_of_not_suffix (hlocation : ¬ name :: parent <:+ location)
    (hne : location ≠ parent) :
    (disk.remove (name :: parent)).face? location = disk.face? location := by
  rw [remove]
  refine face?_change_of_find? _ (fun other entries hother => ?_) hlocation hne
  rw [Entries.find?_erase, if_neg hother]

end Disk

end Storage

end OnePage
