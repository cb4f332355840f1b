import OnePage.Proofs.Storage.Keep
import OnePage.Proofs.Storage.Names

/-!
# Working below a directory

A build makes everything it makes below one directory.  As long as it finds no links at the names
it makes there, it cannot reach anything else, and this file says so operation by operation.

* `Disk.OpensAt` — a path leads to a directory where there are no links at certain names.
* `Branch` — the locations in a directory that one of its names leads to, and the directory itself.
* `ensures_makeDirectory_grows` — making a directory lets a disk grow, whatever links there are.
* `ensureDirectory_of_isDirectory` — a directory that is there already is not made.
* **`ensures_copyTree_branch`** — copying a tree to a name below the directory changes nothing
  outside the branch of that name.
-/

namespace OnePage

namespace Storage

namespace Disk

/-- **A path leads to a directory, and no link lies at or below some names in it.** -/
structure OpensAt (disk : Disk) (p : Path) (place : Location) (names : List Text) : Prop where
  /-- The path leads there. -/
  leads : disk.locate p = .ok place
  /-- There is a directory. -/
  directory : disk.HasDirectory place
  /-- No link lies at or below one of the names. -/
  linkless : disk.LinklessAt place names

variable {disk old new : Disk} {p : Path} {place l : Location} {names inner : List Text}

/-- Names that go on from a location lead below the first of them. -/
lemma suffix_reverse_cons_append (name : Text) (rest : List Text) (place : Location) :
    name :: place <:+ (name :: rest).reverse ++ place := by
  rw [List.reverse_cons, List.append_assoc]
  exact List.suffix_append _ _

namespace OpensAt

lemma grows (h : old.OpensAt p place names) (hgrows : old.Grows new) :
    new.OpensAt p place names where
  leads := locate_grows h.leads hgrows
  directory := hgrows.directory place h.directory
  linkless := h.linkless.grows hgrows

lemma mono (h : disk.OpensAt p place names) (hinner : ∀ name ∈ inner, name ∈ names) :
    disk.OpensAt p place inner where
  leads := h.leads
  directory := h.directory
  linkless name hname := h.linkless name (hinner name hname)

lemma isDirectory (h : disk.OpensAt p place names) : disk.isDirectory p = .ok true :=
  isDirectory_eq_true_iff.2 ⟨place, h.leads, h.directory⟩

/-- The path leads to the directory also after a file in it has been removed, or a link that the
path bypasses. -/
lemma remove {name : Text} (h : disk.OpensAt p place names)
    (hbypasses : disk.Bypasses p (name :: place)) (hfree : ¬ disk.HasDirectory (name :: place)) :
    (disk.remove (name :: place)).OpensAt p place names where
  leads := hbypasses.locate_remove h.leads h.directory hfree
  directory := by
    refine hasDirectory_remove_iff.2 ⟨fun hsuffix => ?_, h.directory⟩
    exact absurd hsuffix.length_le (by simp)
  linkless := by
    rintro other hother l hl ⟨target, htarget⟩
    exact h.linkless other hother l hl ⟨target, ((face?_remove_eq_link_iff target).1 htarget).2⟩

/-- Names that go on from the path, by one at which there are no links, lead where they say. -/
lemma leads_names {making : Bool} {m : Nat} (h : disk.OpensAt p place names)
    (hfirst : ∀ first ∈ inner.head?, first ∈ names) (hinner : ∀ name ∈ inner, validName name)
    (hne : making = true → inner ≠ [])
    (hleads : disk.Leads making linkLimit (disk.origin p) (p.parts ++ inner) m l) :
    l = inner.reverse ++ place := by
  obtain ⟨-, m', hp⟩ := locate_eq_ok_iff.1 h.leads
  have hmaking : making = true → inner ≠ [] ∧ inner ≠ [[]] := by
    refine fun hmade => ⟨hne hmade, ?_⟩
    rintro rfl
    exact (isProper_of_validName (hinner [] (by simp))).2 (.inr rfl)
  obtain ⟨n, l', hbefore, hbelow⟩ := (Leads.append hmaking).1 hleads
  obtain rfl : l' = place := hbefore.unique hp
  refine (hbelow.names (fun front hfront hne => ?_) hinner).2
  obtain ⟨first, more, rfl⟩ := List.exists_cons_of_ne_nil hne
  obtain ⟨rest, rfl⟩ := hfront
  exact h.linkless first (hfirst first (by simp)) _ (suffix_reverse_cons_append first more _)

/-- The place of an entry below the path is where its names say. -/
lemma entryPlace_names {last : Text} (h : disk.OpensAt p place names)
    (hfirst : ∀ first ∈ inner.head?, first ∈ names) (hinner : ∀ name ∈ inner, validName name)
    (hlast : validName last)
    (hplace : disk.entryPlace ⟨p.anchor, p.parts ++ (inner ++ [last])⟩ = .ok (some l)) :
    l = last :: (inner.reverse ++ place) := by
  obtain ⟨name, parent, rfl, hentry⟩ := entryPlace_eq_some hplace
  obtain ⟨m, hleads⟩ := hentry.leads
  have hparts := hentry.parts
  dsimp only at hparts hleads
  rw [← List.append_assoc, List.dropLast_concat] at hparts hleads
  obtain rfl : last = name := by simpa using hparts
  rw [h.leads_names hfirst hinner (by simp) hleads, entryName_of_validName hlast]

end OpensAt

section Child

variable {name : Text} (hplace : disk.locate p = .ok place) (hdirectory : disk.HasDirectory place)

include hplace hdirectory

/-- A part of a path that stands for a name in a directory is that of an entry there. -/
lemma entryPlace_part (hfault : (p.child name).fault? = none)
    (hvalid : validName (entryName name)) :
    disk.entryPlace (p.child name) = .ok (some (entryName name :: place)) := by
  obtain ⟨-, m, hleads⟩ := locate_eq_ok_iff.1 hplace
  obtain ⟨entries, hentries⟩ := hasDirectory_iff.1 hdirectory
  have hlast : (p.child name).parts.getLast? = some name := by simp [Path.child]
  have hfront : (p.child name).parts.dropLast = p.parts := by simp [Path.child]
  have hfollow := follow_eq_ok_iff.2 ⟨hfault, m, place, hleads, rfl⟩
  have hup := (isProper_of_validName_entryName hvalid).1
  have hshort : ¬ nameLimit < byteLength name := by
    simpa using byteLength_le_of_validName hvalid
  simp only [entryPlace, hlast, hfront, hfollow, node?_trail, hentries, location_trail, if_neg hup,
    if_neg hshort]

lemma entryPlace_child (hfault : (p.child name).fault? = none) (hvalid : validName name) :
    disk.entryPlace (p.child name) = .ok (some (name :: place)) := by
  have hname := entryName_of_validName hvalid
  have hentry := entryPlace_part hplace hdirectory hfault (by rwa [hname])
  rwa [hname] at hentry

/-- It leads to the entry, if that is no link. -/
lemma locate_part (hlink : ¬ disk.HasLink (entryName name :: place))
    (hfault : (p.child name).fault? = none) (hvalid : validName (entryName name)) :
    disk.locate (p.child name) = .ok (entryName name :: place) := by
  obtain ⟨-, m, hp⟩ := locate_eq_ok_iff.1 hplace
  obtain ⟨hup, hhere⟩ := isProper_of_validName_entryName hvalid
  have hshort : ¬ nameLimit < byteLength name := by
    simpa using byteLength_le_of_validName hvalid
  refine locate_eq_ok_iff.2 ⟨hfault, m, (Leads.append (by simp)).2 ⟨m, place, hp, ?_⟩⟩
  exact .enter hdirectory ⟨hup, hhere, by simp, hshort⟩ hlink (.done m _)

/-- A name in a directory leads where it says, if it does not stand for a link. -/
lemma locate_child (hlink : ¬ disk.HasLink (name :: place))
    (hfault : (p.child name).fault? = none) (hvalid : validName name) :
    disk.locate (p.child name) = .ok (name :: place) := by
  have hname := entryName_of_validName hvalid
  have hlocate := locate_part hplace hdirectory (by rwa [hname]) hfault (by rwa [hname])
  rwa [hname] at hlocate

end Child

lemma OpensAt.locate_child {name : Text} (h : disk.OpensAt p place names) (hname : name ∈ names)
    (hfault : (p.child name).fault? = none) (hvalid : validName name) :
    disk.locate (p.child name) = .ok (name :: place) :=
  Disk.locate_child h.leads h.directory (h.linkless name hname _ (List.suffix_refl _)) hfault hvalid

lemma read_eq_ok_iff {content : Bytes} : disk.read p = .ok content ↔
    ∃ place stamp, disk.locate p = .ok place ∧ disk.face? place = some (.file content stamp) := by
  have hfind : disk.read p = .ok content ↔ ∃ stamp, disk.find p = .ok (.file content stamp) := by
    rw [read]
    cases disk.find p with
    | error fault => simp
    | ok node => cases node <;> simp
  simp only [hfind, find_eq_ok_iff, face?_eq_file]
  exact ⟨fun ⟨stamp, place, h⟩ => ⟨place, stamp, h⟩, fun ⟨place, stamp, h⟩ => ⟨stamp, place, h⟩⟩

/-- On the way to a directory nothing can be made. -/
lemma putDirectory_on_way {parts : List Text} (hp : disk.isDirectory p = .ok true)
    (hparts : parts <+: p.parts) (hplace : disk.entryPlace ⟨p.anchor, parts⟩ = .ok (some l))
    (hfree : disk.node? l = none) : disk.putDirectory l = disk := by
  obtain ⟨name, parent, rfl, hentry⟩ := entryPlace_eq_some hplace
  obtain ⟨m, hleads⟩ := hentry.leads
  have hname := hentry.parts
  dsimp only at hname hleads
  obtain ⟨rest, hrest⟩ := hparts
  by_cases hproper : IsProper name
  · obtain ⟨place, hlocate, hdirectory⟩ := isDirectory_eq_true_iff.1 hp
    obtain ⟨-, m', hway⟩ := locate_eq_ok_iff.1 hlocate
    rw [← hrest, hname, List.append_assoc] at hway
    obtain ⟨n, l', hfirst, hsecond⟩ := (Leads.append (by simp)).1 hway
    obtain rfl : l' = parent := hfirst.unique hleads
    exact absurd hfree (hsecond.node?_ne_none hdirectory hproper)
  · have hvalid : ¬ validName (entryName name) = true :=
      mt isProper_of_validName_entryName hproper
    rw [putDirectory, put, dif_neg hvalid]

end Disk

open Disk

variable {keeps : Disk → Prop} {p : Path} {place : Location} {disk old : Disk} {chain : Nat}

/-! ## Making directories -/

/-- Making a directory lets a disk grow. -/
lemma ensures_makeDirectory_grows : Ensures (fun disk => old.Grows disk) (makeDirectory p)
    fun _ => True :=
  ensures_makeDirectory fun _ _ hgrows _ hfree => hgrows.trans (grows_putDirectory hfree)

lemma ensures_ensureDirectory_grows : Ensures (fun disk => old.Grows disk) (ensureDirectory chain p)
    fun _ => True :=
  ensures_ensureDirectory fun _ _ => ensures_makeDirectory_grows

lemma grows_of_ensureDirectory {after : Disk} (h : ensureDirectory chain p disk = .ok () after) :
    disk.Grows after :=
  (ensures_ensureDirectory_grows.of_ok (.refl disk) h).1

/-- Whatever keeps a directory that is there from being made, it is not missing. -/
lemma entryPlace_of_isDirectory {fault : Fault} (h : disk.isDirectory p = .ok true)
    (hentry : disk.entryPlace p = .error fault) :
    ∃ errno, fault = .system errno p none ∧ errno ≠ .noEntry := by
  obtain ⟨place, hplace, hdirectory⟩ := isDirectory_eq_true_iff.1 h
  obtain ⟨hfault, m, hleads⟩ := locate_eq_ok_iff.1 hplace
  rw [entryPlace] at hentry
  cases hlast : p.parts.getLast? with
  | none => simp [hlast, hfault] at hentry
  | some name =>
    -- what the last part lies in is there too, so only this part itself can be refused
    rw [← List.dropLast_append_getLast? name hlast] at hleads
    obtain ⟨n, l, hfirst, hsecond⟩ := (Leads.append (by simp)).1 hleads
    obtain ⟨entries, hentries⟩ := hasDirectory_iff.1 hsecond.hasDirectory
    have hfollow := follow_eq_ok_iff.2 ⟨hfault, n, l, hfirst, rfl⟩
    simp only [hlast, hfollow, node?_trail, hentries] at hentry
    split_ifs at hentry
    exact ⟨.nameTooLong, (Except.error.inj hentry).symm, by simp⟩

/-- A directory that is there already is not made. -/
lemma makeUnlessThere_of_isDirectory (h : disk.isDirectory p = .ok true) :
    makeUnlessThere p disk = .ok () disk := by
  rw [makeUnlessThere]
  rcases makeDirectory_cases p disk with ⟨fault, hresult, hwhy⟩ | ⟨place, hplace, hfree, hresult⟩
  · obtain ⟨errno, rfl, herrno⟩ : ∃ errno, fault = .system errno p none ∧ errno ≠ .noEntry := by
      rcases hwhy with hentry | rfl
      · exact entryPlace_of_isDirectory h hentry
      · exact ⟨.alreadyThere, rfl, by simp⟩
    rw [hresult]
    cases errno <;> first | exact absurd rfl herrno | simp [h]
  · rw [hresult, putDirectory_on_way h (List.prefix_refl _) hplace hfree]

lemma ensureParts_of_isDirectory {anchor : Anchor} {inner : List Text}
    (h : disk.isDirectory ⟨anchor, inner.reverse⟩ = .ok true) (room : Nat) :
    ensureParts anchor (room + 1) inner disk = .ok () disk := by
  have hmade := makeUnlessThere_of_isDirectory h
  cases inner with
  | nil => exact hmade
  | cons name outer =>
    rw [ensureParts]
    simp only [hmade]

lemma ensureDirectory_of_isDirectory (h : disk.isDirectory p = .ok true) :
    ensureDirectory chain p disk = .ok () disk :=
  ensureParts_of_isDirectory (by rwa [List.reverse_reverse]) chain

/-- A path leads to the directory that has been made for it. -/
lemma Disk.EntryAt.locate_putDirectory {name : Text} {parent : Location}
    (h : disk.EntryAt p name parent) (hvalid : validName (entryName name))
    (hgrows : disk.Grows (disk.putDirectory (entryName name :: parent))) :
    (disk.putDirectory (entryName name :: parent)).locate p = .ok (entryName name :: parent) ∧
      (disk.putDirectory (entryName name :: parent)).HasDirectory (entryName name :: parent) := by
  obtain ⟨m, hleads⟩ := h.leads
  have hway := hleads.grows hgrows
  rw [← hgrows.origin] at hway
  have hnew :
      (disk.putDirectory (entryName name :: parent)).HasDirectory (entryName name :: parent) :=
    ⟨[], face?_put hvalid h.directory⟩
  refine ⟨locate_eq_ok_iff.2 ⟨h.fault, m, ?_⟩, hnew⟩
  rw [h.parts]
  refine (Leads.append (by simp)).2 ⟨m, parent, hway,
    .enter (hgrows.directory parent h.directory) ?_ hnew.not_hasLink (.done m _)⟩
  exact ⟨h.notUp, (isProper_of_validName_entryName hvalid).2, by simp, h.short⟩

/-- A path leads to the directory that has been made at its end, also if it only stays there. -/
lemma isDirectory_putDirectory (hclean : p.IsClean) (hplace : disk.entryPlace p = .ok (some place))
    (hfree : disk.node? place = none) : (disk.putDirectory place).isDirectory p = .ok true := by
  have hgrows := grows_putDirectory hfree
  obtain ⟨name, parent, rfl, hentry⟩ := entryPlace_eq_some hplace
  rw [isDirectory_eq_true_iff]
  by_cases hhere : name = dot ∨ name = []
  · obtain ⟨m, hleads⟩ := hentry.leads
    have hway := hleads.grows hgrows
    rw [← hgrows.origin] at hway
    have hparent := hgrows.directory parent hentry.directory
    refine ⟨parent, locate_eq_ok_iff.2 ⟨hentry.fault, m, ?_⟩, hparent⟩
    rw [hentry.parts]
    exact (Leads.append (by simp)).2 ⟨m, parent, hway, .stay hparent hhere (.done m parent)⟩
  · have hvalid := Path.validName_of_mem hclean hentry.fault
      (by rw [hentry.parts]; simp) ⟨hentry.notUp, hhere⟩ hentry.short
    exact ⟨_, hentry.locate_putDirectory hvalid hgrows⟩

/-- A directory is there after it has been made. -/
lemma isDirectory_of_makeUnlessThere {after : Disk} (hclean : p.IsClean)
    (h : makeUnlessThere p disk = .ok () after) : after.isDirectory p = .ok true := by
  rw [makeUnlessThere] at h
  rcases makeDirectory_cases p disk with ⟨fault, hresult, -⟩ | ⟨place, hplace, hfree, hresult⟩
  · rw [hresult] at h
    split at h
    · simp at h
    · split at h
      · next hthere =>
        obtain ⟨-, rfl⟩ := EStateM.Result.ok.inj h
        simp_all
      · simp at h
      · simp at h
    · next hother =>
      exact absurd h (by simp)
  · rw [hresult] at h
    obtain ⟨-, rfl⟩ := EStateM.Result.ok.inj h
    exact isDirectory_putDirectory hclean hplace hfree

lemma isDirectory_of_ensureDirectory {after : Disk} (hclean : p.IsClean)
    (h : ensureDirectory chain p disk = .ok () after) : after.isDirectory p = .ok true := by
  rw [ensureDirectory] at h
  -- in any case the directory itself is made last
  obtain ⟨before, hlast⟩ : ∃ before,
      makeUnlessThere ⟨p.anchor, p.parts.reverse.reverse⟩ before = .ok () after := by
    generalize p.parts.reverse = inner at h
    cases inner with
    | nil => exact ⟨disk, h⟩
    | cons name outer =>
      rw [ensureParts] at h
      dsimp only at h
      split at h
      · split at h
        · exact ⟨_, h⟩
        · simp at h
      · exact ⟨disk, h⟩
  rw [List.reverse_reverse] at hlast
  exact isDirectory_of_makeUnlessThere hclean hlast

/-- What is on the way to a directory stays as it is when directories further down are made. -/
lemma ensures_ensureDirectory_below {names : List Text}
    (hkeeps : ∀ disk, keeps disk → disk.isDirectory p = .ok true)
    (h : ∀ more, more ≠ [] → more <+: names →
      Ensures keeps (makeDirectory ⟨p.anchor, p.parts ++ more⟩) fun _ => True) :
    Ensures keeps (ensureDirectory chain ⟨p.anchor, p.parts ++ names⟩) fun _ => True := by
  refine ensures_ensureDirectory fun parts hparts => ?_
  have hbegins (hp : parts <+: p.parts) :
      Ensures keeps (makeDirectory ⟨p.anchor, parts⟩) fun _ => True := by
    refine ensures_makeDirectory fun disk place hdisk hplace hfree => ?_
    rw [putDirectory_on_way (hkeeps disk hdisk) hp hplace hfree]
    exact hdisk
  rcases List.prefix_or_prefix_of_prefix hparts (List.prefix_append p.parts names) with hp | hp
  · exact hbegins hp
  · obtain ⟨more, rfl⟩ := hp
    by_cases hmore : more = []
    · subst hmore
      exact hbegins (by simp)
    · exact h more hmore ((List.prefix_append_right_inj p.parts).1 hparts)

/-! ## One branch of a directory -/

/-- What an operation changes on any disk that has been reached, it changes in the end. -/
lemma ensures_confined {α : Type} {operation : Operation α} {less touched : Location → Prop}
    (hless : ∀ location, less location → touched location)
    (h : ∀ disk, old.Confined touched disk → Ensures (disk.Confined less) operation fun _ => True) :
    Ensures (old.Confined touched) operation fun _ => True := by
  intro disk hdisk
  have hresult := h disk hdisk disk (.refl disk)
  split at hresult
  · exact ⟨hdisk.trans (hresult.1.mono hless), trivial⟩
  · exact hdisk.trans (hresult.mono hless)

/-- **A branch**: the locations that a name in a directory leads to, and the directory itself, whose
names may change. -/
def Branch (place : Location) (name : Text) (l : Location) : Prop :=
  l = place ∨ name :: place <:+ l

/-- What lies below one name of a directory is in no branch of another. -/
lemma not_branch_of_ne {name other : Text} (hne : other ≠ name) (hl : name :: place <:+ l) :
    ¬ Branch place other l := by
  rintro (rfl | hother)
  · simpa using hl.length_le
  · have hsuffix := List.suffix_of_suffix_length_le hother hl (by simp)
    exact hne (List.cons.inj (hsuffix.eq_of_length (by simp))).1

/-- A path goes on from another one with a name and further ones. -/
def IsBelow (p : Path) (name : Text) (q : Path) : Prop :=
  ∃ rest : List Text, (∀ other ∈ rest, validName other) ∧ q = ⟨p.anchor, p.parts ++ name :: rest⟩

section Branch

variable {name : Text} {rest : List Text}

lemma branch_of_suffix {l : Location} (h : (name :: rest).reverse ++ place <:+ l) :
    Branch place name l := by
  exact .inr ((suffix_reverse_cons_append name rest place).trans h)

variable {names : List Text} (hopens : old.OpensAt p place names) (hmem : name ∈ names)

include hopens hmem

/-- Whatever is put at a name of a branch, or further down, shows in that branch only. -/
lemma confined_put_branch {disk : Disk} {node : Node} {hnode : node.Sound} {l : Location}
    (hdisk : old.Confined (Branch place name) disk) (hl : l = (name :: rest).reverse ++ place)
    (hempty : ∀ name, node.child? name = none) (hnotLink : ∀ target, node ≠ .link target)
    (hdirectory : ¬ disk.HasDirectory l) :
    old.Confined (Branch place name) (disk.put l node hnode) := by
  refine hdisk.trans ?_
  have hlink : ¬ disk.HasLink l :=
    (hopens.grows hdisk.grows).linkless name hmem l
      (hl ▸ suffix_reverse_cons_append name rest place)
  obtain ⟨last, parent, rfl⟩ : ∃ last parent, l = last :: parent := by
    rcases List.eq_nil_or_concat (name :: rest) with h | ⟨init, last, h⟩
    · simp at h
    · exact ⟨last, init.reverse ++ place, by rw [hl, h]; simp⟩
  refine confined_put (grows_put hempty hnotLink hdirectory hlink) ?_ fun l hsuffix =>
    branch_of_suffix (hl ▸ hsuffix)
  -- the directory it lies in is the place itself or lies in the branch too
  rcases List.eq_nil_or_concat rest with rfl | ⟨init, other, rfl⟩
  · obtain ⟨-, rfl⟩ : last = name ∧ parent = place := by simpa using hl
    exact .inl rfl
  · have hparent : parent = (name :: init).reverse ++ place := by
      rw [List.concat_eq_append, ← List.cons_append, List.reverse_append] at hl
      simpa using (List.cons.inj hl).2
    rw [hparent]
    exact branch_of_suffix (List.suffix_refl _)

variable (hname : validName name) (hrest : ∀ other ∈ rest, validName other)

include hname hrest

lemma ensures_makeDirectory_branch : Ensures (old.Confined (Branch place name))
    (makeDirectory ⟨p.anchor, p.parts ++ name :: rest⟩) fun _ => True := by
  refine ensures_makeDirectory fun disk l hdisk hplace hfree => ?_
  have hl : l = (name :: rest).reverse ++ place := by
    rcases List.eq_nil_or_concat (name :: rest) with h | ⟨init, last, h⟩
    · simp at h
    · rw [List.concat_eq_append] at h
      have hvalid : ∀ other ∈ init ++ [last], validName other := by
        rw [← h]
        exact List.forall_mem_cons.2 ⟨hname, hrest⟩
      have hfirst : ∀ first ∈ init.head?, first ∈ names := by
        intro first hhead
        obtain ⟨more, rfl⟩ : ∃ more, init = first :: more := List.head?_eq_some_iff.1 hhead
        obtain ⟨rfl, -⟩ := List.cons.inj h
        exact hmem
      rw [h] at hplace ⊢
      rw [(hopens.grows hdisk.grows).entryPlace_names hfirst
        (fun other hother => hvalid other (by simp [hother])) (hvalid last (by simp)) hplace]
      simp
  refine confined_put_branch hopens hmem hdisk hl (fun _ => rfl) (by simp) ?_
  intro hdirectory
  obtain ⟨entries, hentries⟩ := hasDirectory_iff.1 hdirectory
  simp [hfree] at hentries

lemma ensures_ensureDirectory_branch : Ensures (old.Confined (Branch place name))
    (ensureDirectory chain ⟨p.anchor, p.parts ++ name :: rest⟩) fun _ => True := by
  refine ensures_ensureDirectory_below
    (fun disk hdisk => (hopens.grows hdisk.grows).isDirectory) fun more hne hmore => ?_
  obtain ⟨first, more, rfl⟩ := List.exists_cons_of_ne_nil hne
  obtain ⟨rfl, hbegins⟩ := List.cons_prefix_cons.1 hmore
  exact ensures_makeDirectory_branch hopens hmem hname fun other hother =>
    hrest other (hbegins.subset hother)

lemma ensures_write_branch {content : Bytes} : Ensures (old.Confined (Branch place name))
    (write ⟨p.anchor, p.parts ++ name :: rest⟩ content) fun _ => True := by
  refine ensures_write fun disk l hdisk hplace hdirectory => ?_
  obtain ⟨-, m, hleads⟩ := locateNew_eq_ok_iff.1 hplace
  have hvalid : ∀ other ∈ name :: rest, validName other :=
    List.forall_mem_cons.2 ⟨hname, hrest⟩
  exact confined_put_branch hopens hmem hdisk
    ((hopens.grows hdisk.grows).leads_names (by simpa using hmem) hvalid (by simp) hleads)
    (fun _ => rfl) (by simp) hdirectory

omit hrest

/-- **Copying a tree to a name below a directory** changes nothing outside the branch of that
name. -/
lemma ensures_copyTree_branch {source : Path} : Ensures (old.Confined (Branch place name))
    (copyTree chain source (p.child name)) fun _ => True := by
  have hchild : ∀ q other, IsBelow p name q → validName other → IsBelow p name (q.child other) := by
    rintro _ other ⟨rest, hrest, rfl⟩ hother
    refine ⟨rest ++ [other], fun more hmore => ?_, by simp [Path.child]⟩
    rcases List.mem_append.1 hmore with hmore | hmore
    · exact hrest more hmore
    · exact List.mem_singleton.1 hmore ▸ hother
  refine ensures_copyTree hchild ?_ ?_ ⟨[], by simp, rfl⟩
  · rintro _ ⟨rest, hrest, rfl⟩
    exact ensures_ensureDirectory_branch hopens hmem hname hrest
  · rintro _ content ⟨rest, hrest, rfl⟩
    exact ensures_write_branch hopens hmem hname hrest

end Branch

end Storage

end OnePage
