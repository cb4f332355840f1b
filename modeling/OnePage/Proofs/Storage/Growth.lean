import OnePage.Proofs.Storage.Face

/-!
# Disks that only grow

Most of what a build does to a disk takes nothing away from it.  This file says what is meant by
that, and which changes keep to it.

* `Disk.Grows` — directories stay directories, and links are neither made nor changed nor removed.
* `Disk.Confined` — a disk has grown, and nothing else shows outside certain locations.
* `Disk.grows_put` — a disk grows if something is put where there is neither a directory nor a link.
* `Disk.Adds.face?_remove` — a file that is put where there was nothing and then removed leaves no
  trace.
-/

namespace OnePage

namespace Storage

namespace Disk

/-- **Growth.**  Directories stay directories, and links are neither made nor changed nor removed.
-/
structure Grows (old new : Disk) : Prop where
  /-- The working directory is the same. -/
  here : new.here = old.here
  /-- The same directories are fleeting. -/
  fleeting : new.fleeting = old.fleeting
  /-- Directories stay directories. -/
  directory : ∀ location, old.HasDirectory location → new.HasDirectory location
  /-- Links are what they were. -/
  link : ∀ location target,
    new.face? location = some (.link target) ↔ old.face? location = some (.link target)

variable {disk old new newer : Disk} {location : Location}

namespace Grows

lemma refl (disk : Disk) : disk.Grows disk := ⟨rfl, rfl, fun _ => id, fun _ _ => Iff.rfl⟩

lemma trans (h : old.Grows new) (h' : new.Grows newer) : old.Grows newer where
  here := h'.here.trans h.here
  fleeting := h'.fleeting.trans h.fleeting
  directory location hlocation := h'.directory location (h.directory location hlocation)
  link location target := (h'.link location target).trans (h.link location target)

lemma hasLink_iff (h : old.Grows new) : new.HasLink location ↔ old.HasLink location :=
  exists_congr (h.link location)

/-- Disks on which the same shows everywhere have grown from one another. -/
lemma of_face? (hhere : new.here = old.here) (hfleeting : new.fleeting = old.fleeting)
    (h : ∀ location, new.face? location = old.face? location) : old.Grows new where
  here := hhere
  fleeting := hfleeting
  directory location hlocation := by simpa only [HasDirectory, h] using hlocation
  link location target := by rw [h]

end Grows

/-- A disk that has grown, and on which nothing has changed but what shows at the locations that
were `touched`. -/
structure Confined (touched : Location → Prop) (old new : Disk) : Prop where
  /-- It has grown. -/
  grows : old.Grows new
  /-- Nothing has changed elsewhere. -/
  same : ∀ location, ¬ touched location → new.face? location = old.face? location

namespace Confined

variable {touched : Location → Prop}

lemma refl (disk : Disk) : disk.Confined touched disk := ⟨.refl disk, fun _ _ => rfl⟩

lemma trans (h : old.Confined touched new) (h' : new.Confined touched newer) :
    old.Confined touched newer where
  grows := h.grows.trans h'.grows
  same location hlocation := (h'.same location hlocation).trans (h.same location hlocation)

lemma mono {more : Location → Prop} (h : old.Confined touched new)
    (hmore : ∀ location, touched location → more location) : old.Confined more new where
  grows := h.grows
  same location hlocation := h.same location (mt (hmore location) hlocation)

end Confined

/-- None of some names in a directory stands for a link, and no link lies further down. -/
def LinklessAt (disk : Disk) (place : Location) (names : List Text) : Prop :=
  ∀ name ∈ names, ∀ location, name :: place <:+ location → ¬ disk.HasLink location

lemma LinklessAt.grows {place : Location} {names : List Text} (h : old.LinklessAt place names)
    (hgrows : old.Grows new) : new.LinklessAt place names := by
  intro name hname location hlocation hlink
  exact h name hname location hlocation (hgrows.hasLink_iff.1 hlink)

/-- Nothing lies in an empty directory. -/
lemma linklessAt_of_empty {place : Location} (h : disk.node? place = some (.directory []))
    (names : List Text) : disk.LinklessAt place names := by
  rintro name - _ ⟨inner, rfl⟩ hlink
  obtain ⟨target, htarget⟩ := hasLink_iff.1 hlink
  have hinner : (inner ++ [name]).reverse ≠ [] := by simp
  rw [List.append_cons, node?_append, h, Option.bind_some,
    Node.descend_eq_none (fun _ => rfl) hinner] at htarget
  simp at htarget

/-! ## What putting and removing keep -/

@[simp]
lemma put_here (node : Node) (hnode : node.Sound) : (disk.put location node hnode).here =
    disk.here := by
  cases location with
  | nil => rfl
  | cons name parent =>
    rw [put]
    split <;> rfl

@[simp]
lemma put_fleeting (node : Node) (hnode : node.Sound) :
    (disk.put location node hnode).fleeting = disk.fleeting := by
  cases location with
  | nil => rfl
  | cons name parent =>
    rw [put]
    split <;> rfl

@[simp]
lemma remove_fleeting : (disk.remove location).fleeting = disk.fleeting := by
  cases location <;> rfl

@[simp]
lemma remove_here : (disk.remove location).here = disk.here := by cases location <;> rfl

variable {name : Text} {parent : Location} {node : Node} {hnode : node.Sound}

lemma hasDirectory_put_parent_iff :
    (disk.put (name :: parent) node hnode).HasDirectory parent ↔ disk.HasDirectory parent := by
  by_cases hvalid : validName name
  · rw [HasDirectory, HasDirectory, face?_put_parent hvalid]
    cases disk.face? parent with
    | none => simp
    | some face => cases face <;> simp [Face.adding]
  · rw [put, dif_neg hvalid]

lemma face?_put_parent_eq_link_iff (target : Text) :
    (disk.put (name :: parent) node hnode).face? parent = some (.link target) ↔
      disk.face? parent = some (.link target) := by
  by_cases hvalid : validName name
  · rw [face?_put_parent hvalid]
    cases disk.face? parent with
    | none => simp
    | some face => cases face <;> simp [Face.adding]
  · rw [put, dif_neg hvalid]

/-- Where something was to be put, it shows, or nothing has changed. -/
lemma face?_put_below_or (disk : Disk) (name : Text) (parent : Location) {node : Node}
    (hnode : node.Sound) (inner : Location) :
    (disk.put (name :: parent) node hnode).face? (inner ++ name :: parent) =
        (node.descend inner.reverse).map Node.face ∨
      (disk.put (name :: parent) node hnode).face? (inner ++ name :: parent) =
        disk.face? (inner ++ name :: parent) := by
  by_cases hvalid : validName name
  · by_cases hparent : disk.HasDirectory parent
    · exact .inl (face?_put_below hvalid hparent inner)
    · -- then there was nothing before, and there is nothing now
      have hnothing : ∀ other : Disk, ¬ other.HasDirectory parent →
          other.face? (inner ++ name :: parent) = none := by
        intro other hother
        have h := other.node?_append_eq_none (show inner ++ [name] ≠ [] by simp) hother
        rw [face?_eq_none]
        simpa using h
      rw [hnothing disk hparent, hnothing _ (mt hasDirectory_put_parent_iff.1 hparent)]
      exact .inr rfl
  · rw [put, dif_neg hvalid]
    exact .inr rfl

/-- **A disk grows** if a file or an empty directory is put where there is neither a directory nor a
link. -/
lemma grows_put (hempty : ∀ name, node.child? name = none)
    (hnotLink : ∀ target, node ≠ .link target) (hdirectory : ¬ disk.HasDirectory (name :: parent))
    (hlink : ¬ disk.HasLink (name :: parent)) :
    disk.Grows (disk.put (name :: parent) node hnode) := by
  -- nothing lies below the location, neither before nor afterwards
  have hbelow (inner : Location) (hinner : inner ≠ []) :
      disk.face? (inner ++ name :: parent) = none ∧
        (disk.put (name :: parent) node hnode).face? (inner ++ name :: parent) = none := by
    have hbefore := disk.node?_append_eq_none hinner hdirectory
    refine ⟨face?_eq_none.2 hbefore, ?_⟩
    rcases face?_put_below_or disk name parent hnode inner with h | h
    · rw [h, Node.descend_eq_none hempty (by simpa using hinner), Option.map_none]
    · rw [h, face?_eq_none.2 hbefore]
  refine ⟨put_here node hnode, put_fleeting node hnode, fun location hlocation => ?_,
    fun location target => ?_⟩
  · by_cases hsuffix : name :: parent <:+ location
    · obtain ⟨inner, rfl⟩ := hsuffix
      by_cases hinner : inner = []
      · subst hinner
        exact absurd hlocation hdirectory
      · simp [HasDirectory, (hbelow inner hinner).1] at hlocation
    · by_cases hparent : location = parent
      · subst hparent
        exact hasDirectory_put_parent_iff.2 hlocation
      · simpa only [HasDirectory, face?_put_of_not_suffix hsuffix hparent] using hlocation
  · by_cases hsuffix : name :: parent <:+ location
    · obtain ⟨inner, rfl⟩ := hsuffix
      by_cases hinner : inner = []
      · subst hinner
        refine ⟨fun h => ?_, fun h => absurd ⟨target, h⟩ hlink⟩
        rcases face?_put_below_or disk name parent hnode [] with hput | hput
        · rw [hput] at h
          cases node with
          | link other => exact absurd rfl (hnotLink other)
          | _ => simp [Node.descend, Node.face] at h
        · exact absurd ⟨target, hput ▸ h⟩ hlink
      · rw [(hbelow inner hinner).1, (hbelow inner hinner).2]
    · by_cases hparent : location = parent
      · subst hparent
        exact face?_put_parent_eq_link_iff target
      · rw [face?_put_of_not_suffix hsuffix hparent]

/-- A disk grows if a directory is made where there is nothing. -/
lemma grows_putDirectory (hfree : disk.node? location = none) :
    disk.Grows (disk.putDirectory location) := by
  cases location with
  | nil => exact .refl disk
  | cons name parent =>
    refine grows_put (fun _ => rfl) (by simp) (fun hdirectory => ?_) fun hlink => ?_
    · obtain ⟨entries, hentries⟩ := hasDirectory_iff.1 hdirectory
      simp [hfree] at hentries
    · obtain ⟨target, htarget⟩ := Disk.hasLink_iff.1 hlink
      simp [hfree] at htarget

/-- What is put somewhere shows there, below it and in the directory it lies in. -/
lemma confined_put {touched : Location → Prop}
    (hgrows : disk.Grows (disk.put (name :: parent) node hnode)) (hparent : touched parent)
    (hbelow : ∀ location, name :: parent <:+ location → touched location) :
    disk.Confined touched (disk.put (name :: parent) node hnode) where
  grows := hgrows
  same location hlocation := by
    refine face?_put_of_not_suffix (mt (hbelow location) hlocation) ?_
    rintro rfl
    exact hlocation hparent

/-- What has been removed is no directory any more, and the other directories are left. -/
lemma hasDirectory_remove_iff : (disk.remove (name :: parent)).HasDirectory location ↔
    ¬ name :: parent <:+ location ∧ disk.HasDirectory location := by
  by_cases hsuffix : name :: parent <:+ location
  · obtain ⟨inner, rfl⟩ := hsuffix
    simp [HasDirectory, face?_remove_below]
  · by_cases hparent : location = parent
    · subst hparent
      rw [HasDirectory, HasDirectory, face?_remove_parent]
      cases disk.face? location with
      | none => simp
      | some face => cases face <;> simp [Face.dropping, hsuffix]
    · simp [HasDirectory, face?_remove_of_not_suffix hsuffix hparent, hsuffix]

/-- What has been removed is no link any more, and the other links are left. -/
lemma face?_remove_eq_link_iff (target : Text) :
    (disk.remove (name :: parent)).face? location = some (.link target) ↔
      ¬ name :: parent <:+ location ∧ disk.face? location = some (.link target) := by
  by_cases hsuffix : name :: parent <:+ location
  · obtain ⟨inner, rfl⟩ := hsuffix
    simp [face?_remove_below]
  · by_cases hparent : location = parent
    · subst hparent
      rw [face?_remove_parent]
      cases disk.face? location with
      | none => simp
      | some face => cases face <;> simp [Face.dropping, hsuffix]
    · simp [face?_remove_of_not_suffix hsuffix hparent, hsuffix]

/-! ## Passing additions -/

/-- A disk to which nothing has been added but perhaps a file at one location. -/
structure Adds (name : Text) (parent : Location) (old new : Disk) : Prop where
  /-- The disk has grown. -/
  grows : old.Grows new
  /-- There is no directory at the location. -/
  notDirectory : ¬ new.HasDirectory (name :: parent)
  /-- There is no link at the location. -/
  notLink : ¬ new.HasLink (name :: parent)
  /-- Elsewhere nothing has changed. -/
  same : ∀ location, ¬ name :: parent <:+ location → location ≠ parent →
    new.face? location = old.face? location
  /-- At most the name has been added to the directory. -/
  parent : new.face? parent = old.face? parent ∨
    new.face? parent = (old.face? parent).map (Face.adding name)

namespace Adds

lemma refl (hfree : disk.node? (name :: parent) = none) : disk.Adds name parent disk where
  grows := .refl disk
  notDirectory h := by
    obtain ⟨entries, hentries⟩ := hasDirectory_iff.1 h
    simp [hfree] at hentries
  notLink h := by
    obtain ⟨target, htarget⟩ := Disk.hasLink_iff.1 h
    simp [hfree] at htarget
  same _ _ _ := rfl
  parent := .inl rfl

lemma putFile (h : old.Adds name parent new) (content : Bytes) (stamp : Stamp) :
    old.Adds name parent (new.putFile (name :: parent) content stamp) := by
  have hgrows : new.Grows (new.putFile (name :: parent) content stamp) :=
    grows_put (fun _ => rfl) (by simp) h.notDirectory h.notLink
  have hface : (new.putFile (name :: parent) content stamp).face? (name :: parent) =
      some (.file content stamp) ∨
        (new.putFile (name :: parent) content stamp).face? (name :: parent) =
          new.face? (name :: parent) := face?_put_below_or new name parent _ []
  refine ⟨h.grows.trans hgrows, ?_, mt hgrows.hasLink_iff.1 h.notLink, fun l hl hne => ?_, ?_⟩
  · rintro ⟨names, hnames⟩
    rcases hface with hface | hface
    · rw [hnames] at hface
      simp at hface
    · exact h.notDirectory ⟨names, hface ▸ hnames⟩
  · rw [← h.same l hl hne]
    exact face?_put_of_not_suffix hl hne
  · by_cases hvalid : validName name
    · refine .inr ((face?_put_parent hvalid).trans ?_)
      rcases h.parent with hparent | hparent
      · rw [hparent]
      · rw [hparent, Option.map_map]
        refine congrArg (Option.map · _) (funext fun face => ?_)
        simp
    · rw [Disk.putFile, put, dif_neg hvalid]
      exact h.parent

/-- **No trace.**  After what has been added is removed, everything shows as it did before. -/
lemma face?_remove (h : old.Adds name parent new) (hfree : old.node? (name :: parent) = none)
    (location : Location) :
    (new.remove (name :: parent)).face? location = old.face? location := by
  by_cases hsuffix : name :: parent <:+ location
  · obtain ⟨inner, rfl⟩ := hsuffix
    have hnothing : old.face? (inner ++ name :: parent) = none := by
      rw [face?_eq_none, node?_append, hfree, Option.bind_none]
    rw [face?_remove_below, hnothing]
  · by_cases hparent : location = parent
    · subst hparent
      rw [face?_remove_parent]
      -- the name was not there before
      have hdropping : ∀ face, old.face? location = some face →
          face.dropping name = face ∧ (face.adding name).dropping name = face := by
        intro face hface
        cases face with
        | directory names =>
          have hname : name ∉ names.map (·.1) := fun hmem =>
            (node?_cons_ne_none_iff hface).2 hmem hfree
          exact ⟨Face.dropping_of_not_mem hname, Face.dropping_adding hname⟩
        | _ => exact ⟨rfl, rfl⟩
      cases hface : old.face? location with
      | none => rcases h.parent with hnew | hnew <;> simp [hnew, hface]
      | some face =>
        obtain ⟨hsame, hadded⟩ := hdropping face hface
        rcases h.parent with hnew | hnew <;> simp [hnew, hface, hsame, hadded]
    · rw [face?_remove_of_not_suffix hsuffix hparent, h.same location hsuffix hparent]

end Adds

end Disk

end Storage

end OnePage
