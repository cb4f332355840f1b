import OnePage.Proofs.Storage.AtomicWrite

/-!
# What making a directory leaves

Making a directory with all that it lies in may fail half way, and then some of the directories are
there and some are not.  Nothing else has changed.

* `OnlyMade` — the only difference between two disks are directories that were made on the way to a
  path.  Every location shows what it showed, or has become such a directory, or has got new names.
* `OnlyMade.file_iff` — no file has come or gone or changed.
* **`ensures_ensureDirectory_onlyMade`** — that is all that making a directory does, whether it
  succeeds or fails.
-/

namespace OnePage

namespace Storage

open Disk

variable {p : Path} {old disk new : Disk} {l : Location} {chain : Nat}

/-- What may have come of a location when directories are made on the way to a path. -/
inductive Outcome (p : Path) (old new : Disk) (l : Location) : Prop where
  /-- It shows what it showed. -/
  | same (hface : new.face? l = old.face? l)
  /-- It was a directory and has got new names behind the ones it had. -/
  | named (names more : List (Text × Option Nat)) (hold : old.face? l = some (.directory names))
      (hnew : new.face? l = some (.directory (names ++ more)))
  /-- There was nothing, and now there is a directory that the path, or a first part of it, leads
  to. -/
  | made (parts : List Text) (hfree : old.node? l = none) (hdirectory : new.HasDirectory l)
      (hparts : parts <+: p.parts) (hlocate : new.locate ⟨p.anchor, parts⟩ = .ok l)

/-- **Only directories were made**, all of them on the way to a path. -/
structure OnlyMade (p : Path) (old new : Disk) : Prop where
  /-- The working directory is the same. -/
  here : new.here = old.here
  /-- The same directories are fleeting. -/
  fleeting : new.fleeting = old.fleeting
  /-- What has come of each location. -/
  outcome : ∀ l, Outcome p old new l

/-- A location that has not changed since is what it was then. -/
lemma Outcome.grows (h : Outcome p old disk l) (hgrows : disk.Grows new)
    (hsame : new.face? l = disk.face? l) : Outcome p old new l := by
  cases h with
  | same hface => exact .same (hsame.trans hface)
  | named names more hold hnew => exact .named names more hold (hsame.trans hnew)
  | made parts hfree hdirectory hparts hlocate =>
    exact .made parts hfree (hgrows.directory l hdirectory) hparts (locate_grows hlocate hgrows)

/-- A directory that has got one more name since. -/
lemma Outcome.adding {names : List (Text × Option Nat)} {name : Text} (h : Outcome p old disk l)
    (hgrows : disk.Grows new) (hdisk : disk.face? l = some (.directory names))
    (hnew : new.face? l = some (.directory (names ++ [(name, none)]))) : Outcome p old new l := by
  cases h with
  | same hface => exact .named names [(name, none)] (hface ▸ hdisk) hnew
  | named first more hold hnow =>
    obtain rfl : names = first ++ more :=
      Face.directory.inj (Option.some.inj (hdisk.symm.trans hnow))
    exact .named first (more ++ [(name, none)]) hold (by rw [hnew, List.append_assoc])
  | made parts hfree hdirectory hparts hlocate =>
    exact .made parts hfree ⟨_, hnew⟩ hparts (locate_grows hlocate hgrows)

namespace OnlyMade

lemma refl (p : Path) (disk : Disk) : OnlyMade p disk disk := ⟨rfl, rfl, fun _ => .same rfl⟩

/-- A disk on which the same shows everywhere is as good. -/
lemma of_face? (h : OnlyMade p old disk) (hhere : new.here = disk.here)
    (hfleeting : new.fleeting = disk.fleeting) (hface : ∀ l, new.face? l = disk.face? l) :
    OnlyMade p old new where
  here := hhere.trans h.here
  fleeting := hfleeting.trans h.fleeting
  outcome l := (h.outcome l).grows (.of_face? hhere hfleeting hface) (hface l)

/-- No file has come or gone or changed. -/
lemma file_iff (h : OnlyMade p old new) (l : Location) (content : Bytes) (stamp : Stamp) :
    new.face? l = some (.file content stamp) ↔ old.face? l = some (.file content stamp) := by
  cases h.outcome l with
  | same hface => rw [hface]
  | named names more hold hnew => simp [hold, hnew]
  | made parts hfree hdirectory hparts hlocate =>
    obtain ⟨names, hnames⟩ := hdirectory
    simp [face?_eq_none.2 hfree, hnames]

/-- No link has come or gone or changed. -/
lemma link_iff (h : OnlyMade p old new) (l : Location) (target : Text) :
    new.face? l = some (.link target) ↔ old.face? l = some (.link target) := by
  cases h.outcome l with
  | same hface => rw [hface]
  | named names more hold hnew => simp [hold, hnew]
  | made parts hfree hdirectory hparts hlocate =>
    obtain ⟨names, hnames⟩ := hdirectory
    simp [face?_eq_none.2 hfree, hnames]

/-- **One more directory** on the way to the path. -/
lemma putDirectory (h : OnlyMade p old disk) {parts : List Text} (hparts : parts <+: p.parts)
    (hplace : disk.entryPlace ⟨p.anchor, parts⟩ = .ok (some l)) (hfree : disk.node? l = none) :
    OnlyMade p old (disk.putDirectory l) := by
  have hgrows := grows_putDirectory hfree
  obtain ⟨part, parent, rfl, hentry⟩ := entryPlace_eq_some hplace
  have hmade := fun hvalid => hentry.locate_putDirectory hvalid hgrows
  generalize entryName part = name at *
  refine ⟨hgrows.here.trans h.here, hgrows.fleeting.trans h.fleeting, fun l => ?_⟩
  by_cases hvalid : validName name
  · by_cases hsuffix : name :: parent <:+ l
    · obtain ⟨inner, rfl⟩ := hsuffix
      have hnothing : disk.face? (inner ++ name :: parent) = none := by
        rw [face?_eq_none, node?_append, hfree, Option.bind_none]
      cases inner with
      | nil =>
        obtain ⟨hlocate, hdirectory⟩ := hmade hvalid
        refine .made parts ?_ hdirectory hparts hlocate
        -- there was nothing at first, because there was nothing before
        cases h.outcome (name :: parent) with
        | same hface => exact face?_eq_none.1 (hface ▸ hnothing)
        | named names more hold hnew => simp [hnew] at hnothing
        | made parts hfree hdirectory hparts hlocate => exact hfree
      | cons other inner =>
        refine (h.outcome _).grows hgrows ?_
        rw [hnothing, Disk.putDirectory, face?_put_below hvalid hentry.directory,
          Node.descend_eq_none (fun _ => rfl) (by simp), Option.map_none]
    · by_cases hparent : l = parent
      · subst hparent
        obtain ⟨names, hnames⟩ := hentry.directory
        have hname : name ∉ names.map (·.1) := fun hmem =>
          (node?_cons_ne_none_iff hnames).2 hmem hfree
        have hnew : (disk.putDirectory (name :: l)).face? l =
            some (.directory (names ++ [(name, none)])) := by
          rw [List.mem_map] at hname
          rw [Disk.putDirectory, face?_put_parent hvalid, hnames, Option.map_some, Face.adding,
            if_neg hname]
        exact (h.outcome l).adding hgrows hnames hnew
      · exact (h.outcome l).grows hgrows (face?_put_of_not_suffix hsuffix hparent)
  · refine (h.outcome l).grows hgrows ?_
    rw [Disk.putDirectory, put, dif_neg hvalid]

end OnlyMade

/-- **Making a directory only makes directories**, the ones on the way to it. -/
lemma ensures_ensureDirectory_onlyMade : Ensures (OnlyMade p old) (ensureDirectory chain p)
    fun _ => True :=
  ensures_ensureDirectory fun _ hparts => ensures_makeDirectory fun _ _ honly hplace hfree =>
    honly.putDirectory hparts hplace hfree

lemma onlyMade_of_ensureDirectory (h : ensureDirectory chain p old = .ok () new) :
    OnlyMade p old new :=
  (ensures_ensureDirectory_onlyMade.of_ok (.refl p old) h).1

end Storage

end OnePage
