import OnePage.Proofs.Storage.Paved
import OnePage.Proofs.Storage.Proceed

/-!
# Laying one tree over another

Copying a tree goes through directories in the order in which they are listed, and it changes the
disk while it does so.  What it leaves does not depend on that order: every file and directory of
the source is laid over what was at the same place of the target, and nothing else changes.

* `Yields` — what is the case after an operation has succeeded, and what if it has failed.
* `Lays` — what a part of a copy may do to a disk; `Lays.trans` puts parts together.
* `Settled` and `Copied` — the counterpart of a location holds what it should, also with all below
  it.  `Settled.lays` says that it does so for good.
* `Obstructed` — the reasons for which a tree cannot be laid over another.
* `copyEntries_yields` and `copyPairs_yields` — one directory, and a list of directories with all
  below them.
* **`copyLevels_yields`** — a whole tree is copied, or it was obstructed, and
  `Copied.not_obstructed` — not both.
-/

namespace OnePage

namespace Storage

open Disk

variable {α β : Type} {base disk after newer : Disk} {source target p q : Path}
  {s d inner l : Location} {name : Text} {names : List Text} {bytes : Bytes} {chain : Nat}

/-! ## Success and failure -/

/-- **Yielding.**  An operation succeeds, and then a condition holds of what it returns and leaves;
or it fails, and then something is the case. -/
def Yields (operation : Operation α) (disk : Disk) (post : α → Disk → Prop) (failed : Prop) :
    Prop :=
  match operation disk with
  | .ok a after => post a after
  | .error _ _ => failed

section Rules

variable {operation : Operation α} {post : α → Disk → Prop} {failed : Prop}

lemma yields_pure {a : α} (h : post a disk) : Yields (pure a) disk post failed := h

lemma yields_bind {next : α → Operation β} {post' : β → Disk → Prop}
    (h : Yields operation disk post failed)
    (hnext : ∀ a after, post a after → Yields (next a) after post' failed) :
    Yields (operation >>= next) disk post' failed := by
  simp only [Yields, bind, EStateM.bind] at h ⊢
  cases hresult : operation disk with
  | ok a after =>
    rw [hresult] at h
    exact hnext a after h
  | error fault after =>
    rw [hresult] at h
    exact h

lemma yields_query {look : Disk → Except Fault α}
    (h : ∀ fault, look disk = .error fault → failed) :
    Yields (query look) disk (fun a after => look disk = .ok a ∧ after = disk) failed := by
  rw [Yields, query]
  cases hlook : look disk with
  | ok a => exact ⟨rfl, rfl⟩
  | error fault => exact h fault hlook

lemma Yields.mono {post' : α → Disk → Prop} {failed' : Prop} (h : Yields operation disk post failed)
    (hpost : ∀ a after, post a after → post' a after) (hfailed : failed → failed') :
    Yields operation disk post' failed' := by
  rw [Yields] at h ⊢
  cases hresult : operation disk with
  | ok a after => exact hpost a after (by simpa [hresult] using h)
  | error fault after => exact hfailed (by simpa [hresult] using h)

lemma Yields.and {post' : α → Disk → Prop} (h : Yields operation disk post failed)
    (h' : Yields operation disk post' failed) :
    Yields operation disk (fun a after => post a after ∧ post' a after) failed := by
  rw [Yields] at *
  cases hresult : operation disk with
  | ok a after =>
    rw [hresult] at h h'
    exact ⟨h, h'⟩
  | error fault after =>
    rw [hresult] at h
    exact h

/-- What an operation keeps, it yields. -/
lemma Ensures.yields {keeps : Disk → Prop} {post' : α → Prop} (h : Ensures keeps operation post')
    (hdisk : keeps disk) : Yields operation disk (fun a after => keeps after ∧ post' a) True := by
  have hresult := h disk hdisk
  rw [Yields]
  generalize operation disk = result at hresult ⊢
  cases result with
  | ok a after => exact hresult
  | error fault after => trivial

end Rules

/-! ## Entries of a directory -/

section Child

variable (hp : disk.locate p = .ok l) (hl : disk.HasDirectory l) (hvalid : validName name)

include hp hl hvalid

lemma locateNew_child (hfault : (p.child name).fault? = none) (hlink : ¬ disk.HasLink (name :: l)) :
    disk.locateNew (p.child name) = .ok (name :: l) := by
  obtain ⟨-, m, hleads⟩ := locate_eq_ok_iff.1 hp
  obtain ⟨hup, hhere⟩ := isProper_of_validName hvalid
  have hshort : ¬ nameLimit < byteLength name :=
    Nat.not_lt.2 (byteLength_le_of_validName hvalid)
  have hslash : [name] ≠ [[]] := fun h => hhere (.inr (List.cons.inj h).1)
  refine locateNew_eq_ok_iff.2 ⟨hfault, m, (Leads.append fun _ => ⟨by simp, hslash⟩).2
    ⟨m, l, hleads, ?_⟩⟩
  have hname := entryName_of_validName hvalid
  exact .enter hl ⟨hup, hhere, by simp, hshort⟩ (by rwa [hname]) (by rw [hname]; exact .done m _)

/-- Whether an entry is a directory can be told if its path can be followed. -/
lemma isDirectory_child (hlinkless : disk.Linkless) :
    ((p.child name).fault? ≠ none ∧ ∃ fault, disk.isDirectory (p.child name) = .error fault) ∨
    ((p.child name).fault? = none ∧ disk.locate (p.child name) = .ok (name :: l) ∧
      disk.isDirectory (p.child name) =
        .ok (decide (disk.content? (name :: l) = some .directory))) := by
  cases hfault : (p.child name).fault? with
  | some fault =>
    have hplain : (p.child name).IsPlain :=
      (Path.isPlain_iff.2 (.inl (locate_eq_ok_iff.1 hp).1)).child hvalid
    rcases Path.isPlain_iff.1 hplain with hnone | hlong
    · simp [hnone] at hfault
    · refine .inl ⟨by simp, .system .nameTooLong (p.child name) none, ?_⟩
      simp [isDirectory_eq, locate, follow, hlong, Except.map, Fault.meansAbsent]
  | none =>
    have hplace := locate_child hp hl (hlinkless _) hfault hvalid
    refine .inr ⟨rfl, hplace, ?_⟩
    rw [isDirectory_eq, hplace]

/-- **A directory in a directory** is made or there already, unless something else is. -/
lemma ensureDirectory_child_yields (hlinkless : disk.Linkless) (chain : Nat) :
    Yields (ensureDirectory chain (p.child name)) disk
      (fun _ after => (p.child name).fault? = none ∧
        (disk.HasDirectory (name :: l) ∧ after = disk ∨
          disk.node? (name :: l) = none ∧ after = disk.putDirectory (name :: l)))
      ((p.child name).fault? ≠ none ∨
        disk.node? (name :: l) ≠ none ∧ ¬ disk.HasDirectory (name :: l)) := by
  rw [Yields, ensureDirectory_child (isDirectory_eq_true_iff.2 ⟨l, hp, hl⟩) hvalid]
  cases hfault : (p.child name).fault? with
  | some fault =>
    obtain ⟨other, hother, -⟩ := makeUnlessThere_of_fault? disk hfault
    rw [hother]
    exact .inl (by simp)
  | none =>
    have hchild := locate_child hp hl (hlinkless _) hfault hvalid
    have hplace := entryPlace_child hp hl hfault hvalid
    by_cases hthere : disk.HasDirectory (name :: l)
    · rw [makeUnlessThere_of_isDirectory (isDirectory_eq_true_iff.2 ⟨_, hchild, hthere⟩)]
      exact ⟨rfl, .inl ⟨hthere, rfl⟩⟩
    · cases hnode : disk.node? (name :: l) with
      | none =>
        have hmade : makeUnlessThere (p.child name) disk =
            .ok () (disk.putDirectory (name :: l)) := by
          simp only [makeUnlessThere, makeDirectory, hplace, hnode]
        rw [hmade]
        exact ⟨rfl, .inr ⟨rfl, rfl⟩⟩
      | some node =>
        have hmade : makeDirectory (p.child name) disk =
            .error (.system .alreadyThere (p.child name) none) disk := by
          simp only [makeDirectory, hplace, hnode]
        have hnot : disk.isDirectory (p.child name) ≠ .ok true := fun h => hthere (by
          obtain ⟨place, hplace, hdirectory⟩ := isDirectory_eq_true_iff.1 h
          exact Except.ok.inj (hchild.symm.trans hplace) ▸ hdirectory)
        obtain ⟨fault, hfails, -⟩ := makeUnlessThere_of_error hmade (by decide) hnot
        rw [hfails]
        exact .inr ⟨by simp, hthere⟩

omit hp hl hvalid in
/-- A file that has been copied could be read, and the target could be written to. -/
lemma copyFile_ok {u : Unit} (h : copyFile p q disk = .ok u after) :
    ∃ bytes place, disk.read p = .ok bytes ∧ disk.locateNew q = .ok place ∧
      ¬ disk.HasDirectory place ∧ after = disk.putFile place bytes disk.nextStamp := by
  rw [copyFile] at h
  split at h
  · simp at h
  · simp at h
  · dsimp only at h
    split_ifs at h
    cases hread : disk.read p with
    | error fault => simp [hread] at h
    | ok bytes =>
      simp only [hread, writeOnto] at h
      rcases write_cases q bytes disk with ⟨fault, hresult⟩ | ⟨place, hplace, hnot, hresult⟩
      · rw [hresult] at h
        split at h
        · split at h <;> simp at h
        · simp at h
      · rw [hresult] at h
        exact ⟨bytes, place, rfl, hplace, hnot, (EStateM.Result.ok.inj h).2.symm⟩

/-- **A file is copied into a directory** unless its name there stands for a directory. -/
lemma copyFile_child_yields (hlinkless : disk.Linkless)
    (hq : q.fault? = none → ∃ place, disk.locate q = .ok place ∧ place ≠ name :: l ∧
      disk.content? place = some (.file bytes)) :
    Yields (copyFile q (p.child name)) disk
      (fun _ after => q.fault? = none ∧ (p.child name).fault? = none ∧
        ¬ disk.HasDirectory (name :: l) ∧
        after = disk.putFile (name :: l) bytes disk.nextStamp)
      (q.fault? ≠ none ∨ (p.child name).fault? ≠ none ∨ disk.HasDirectory (name :: l)) := by
  have hnew (hfault : (p.child name).fault? = none) :=
    locateNew_child hp hl hvalid hfault (hlinkless _)
  rw [Yields]
  cases hresult : copyFile q (p.child name) disk with
  | ok u after =>
    obtain ⟨content, place, hread, hplace, hnot, rfl⟩ := copyFile_ok hresult
    obtain ⟨from', stamp, hfrom, hface⟩ := read_eq_ok_iff.1 hread
    have hfault := (locate_eq_ok_iff.1 hfrom).1
    have hchild := (locateNew_eq_ok_iff.1 hplace).1
    obtain ⟨place', hplace', -, hcontent⟩ := hq hfault
    obtain rfl : from' = place' := Except.ok.inj (hfrom.symm.trans hplace')
    obtain rfl : place = name :: l := Except.ok.inj (hplace.symm.trans (hnew hchild))
    have hsame : content = bytes := by
      rw [content?_eq_file_iff.2 ⟨stamp, hface⟩] at hcontent
      exact Content.file.inj (Option.some.inj hcontent)
    exact ⟨hfault, hchild, hnot, by rw [hsame]⟩
  | error fault after =>
    by_contra! hnone
    obtain ⟨hfault, hchild, hnot⟩ := hnone
    obtain ⟨place, hplace, hne, hcontent⟩ := hq hfault
    obtain ⟨stamp, hface⟩ := content?_eq_file_iff.1 hcontent
    have hread : disk.read q = .ok bytes := read_eq_ok_iff.2 ⟨place, stamp, hplace, hface⟩
    have hwrite : write (p.child name) bytes disk =
        .ok () (disk.putFile (name :: l) bytes disk.nextStamp) := by
      rw [write, hnew hchild]
      dsimp only
      split
      · next entries hentries => exact absurd (hasDirectory_iff.2 ⟨entries, hentries⟩) hnot
      · rfl
    rw [copyFile, hfault, hchild] at hresult
    simp [hplace, locate_child hp hl (hlinkless _) hchild hvalid, hne, hread, writeOnto,
      hwrite] at hresult

end Child

/-! ## Parts of a copy -/

/-- The path that goes on with the names that lead to a location. -/
def Path.under (p : Path) (inner : Location) : Path := ⟨p.anchor, p.parts ++ inner.reverse⟩

@[simp]
lemma Path.under_nil (p : Path) : p.under [] = p := by simp [under]

lemma Path.child_under (p : Path) (inner : Location) (name : Text) :
    (p.under inner).child name = p.under (name :: inner) := by
  simp [under, child]

/-- A location below `d` to which there is something below `s`. -/
def IsCounterpart (base : Disk) (s d : Location) (l : Location) : Prop :=
  ∃ inner, l = inner ++ d ∧ base.content? (inner ++ s) ≠ none

/-- **Laying** what the base disk holds below `s` over what lies below `d`: a location holds what it
held before or what it should hold in the end, and nothing but a directory becomes one. -/
structure Lays (base : Disk) (s d : Location) (old new : Disk) : Prop where
  /-- Nothing shows differently but at counterparts. -/
  confined : old.Confined (IsCounterpart base s d) new
  /-- What has changed is what it should be. -/
  held : ∀ l, new.content? l = old.content? l ∨ ∃ inner, l = inner ++ d ∧
    base.content? (inner ++ s) ≠ none ∧ new.content? l = base.content? (inner ++ s)
  /-- What was there and is a directory now was one. -/
  kind : ∀ l, old.content? l ≠ none → new.HasDirectory l → old.HasDirectory l

namespace Lays

lemma refl (disk : Disk) : Lays base s d disk disk :=
  ⟨.refl disk, fun _ => .inl rfl, fun _ _ => id⟩

lemma trans (h : Lays base s d disk after) (h' : Lays base s d after newer) :
    Lays base s d disk newer where
  confined := h.confined.trans h'.confined
  held l := by
    rcases h'.held l with hsame | hlaid
    · rw [hsame]
      exact h.held l
    · exact .inr hlaid
  kind l hthere hdirectory := by
    refine h.kind l hthere (h'.kind l (fun hnone => ?_) hdirectory)
    rcases h.held l with hsame | ⟨inner, -, hbase, hlaid⟩
    · exact hthere (hsame ▸ hnone)
    · exact hbase (hlaid ▸ hnone)

/-- What a location holds is what it held at the beginning or what it should hold. -/
lemma counterpart (h : Lays base s d disk after) (inner : Location) :
    after.content? (inner ++ d) = disk.content? (inner ++ d) ∨
      base.content? (inner ++ s) ≠ none ∧
        after.content? (inner ++ d) = base.content? (inner ++ s) := by
  rcases h.held (inner ++ d) with hsame | ⟨inner', heq, hbase, hlaid⟩
  · exact .inl hsame
  · obtain rfl : inner = inner' := List.append_cancel_right heq
    exact .inr ⟨hbase, hlaid⟩

/-- **One more thing** is put in its place. -/
lemma put {node : Node} {hnode : node.Sound} (hvalid : validName name)
    (hparent : disk.HasDirectory (inner ++ d)) (hbase : base.HasDirectory (inner ++ s))
    (hnode' : base.content? (name :: (inner ++ s)) = some node.face.content)
    (hfree : ¬ disk.HasDirectory (name :: (inner ++ d)))
    (hlink : ¬ disk.HasLink (name :: (inner ++ d)))
    (hkind : node.face.content = .directory → disk.content? (name :: (inner ++ d)) = none)
    (hempty : ∀ name, node.child? name = none) (hnotLink : ∀ target, node ≠ .link target) :
    Lays base s d disk (disk.put (name :: (inner ++ d)) node hnode) := by
  have hcontent (l : Location) : (disk.put (name :: (inner ++ d)) node hnode).content? l = _ :=
    content?_put hvalid hparent hfree hempty l
  refine ⟨⟨grows_put hempty hnotLink hfree hlink, fun l hl => ?_⟩, fun l => ?_,
    fun l hthere hdirectory => ?_⟩
  · refine face?_put_of_ne hvalid hparent hfree hempty ?_ ?_
    · rintro rfl
      exact hl ⟨name :: inner, rfl, by simp [hnode']⟩
    · rintro rfl
      exact hl ⟨inner, rfl, by simp [content?_eq_directory_iff.2 hbase]⟩
  · rw [hcontent]
    split
    · next heq => exact .inr ⟨name :: inner, heq, by simp [hnode'], hnode'.symm⟩
    · exact .inl rfl
  · rw [← content?_eq_directory_iff, hcontent] at hdirectory
    split at hdirectory
    · next heq =>
      rw [heq, hkind (Option.some.inj hdirectory)] at hthere
      exact absurd rfl hthere
    · exact content?_eq_directory_iff.1 hdirectory

end Lays

/-! ## What has been copied -/

/-- The counterpart of a location holds what the location held on the base disk, and both could be
reached. -/
structure Settled (base : Disk) (source target : Path) (s d : Location) (disk : Disk)
    (inner : Location) : Prop where
  /-- It holds the same. -/
  held : disk.content? (inner ++ d) = base.content? (inner ++ s)
  /-- The path to the location can be followed. -/
  source : (source.under inner).fault? = none
  /-- The path to the counterpart can be followed. -/
  target : (target.under inner).fault? = none

/-- What has been settled remains so. -/
lemma Settled.lays (h : Settled base source target s d disk inner)
    (hlays : Lays base s d disk after) : Settled base source target s d after inner where
  held := (hlays.counterpart inner).elim (·.trans h.held) (·.2)
  source := h.source
  target := h.target

/-- **Copied.**  Everything at a location and below it has been settled, and its directories could
be listed. -/
structure Copied (base : Disk) (source target : Path) (s d : Location) (disk : Disk)
    (inner : Location) : Prop where
  /-- All of it has been settled. -/
  settled : ∀ more, base.content? (more ++ (inner ++ s)) ≠ none →
    Settled base source target s d disk (more ++ inner)
  /-- Its directories could be listed. -/
  listable : ∀ more, base.HasDirectory (more ++ (inner ++ s)) →
    more ++ (inner ++ s) ∉ base.fleeting

lemma Copied.lays (h : Copied base source target s d disk inner)
    (hlays : Lays base s d disk after) : Copied base source target s d after inner :=
  ⟨fun more hmore => (h.settled more hmore).lays hlays, h.listable⟩

/-- **Obstructed.**  Why a tree cannot be laid over another. -/
inductive Obstructed (base : Disk) (source target : Path) (s d : Location) : Prop where
  /-- A directory is to be laid over something else. -/
  | clash (inner : Location) (hdirectory : base.HasDirectory (inner ++ s))
      (hthere : base.content? (inner ++ d) ≠ none) (hnot : ¬ base.HasDirectory (inner ++ d))
  /-- A file is to be laid over a directory. -/
  | covered (inner : Location) (bytes : Bytes)
      (hfile : base.content? (inner ++ s) = some (.file bytes))
      (hdirectory : base.HasDirectory (inner ++ d))
  /-- A path cannot be followed. -/
  | fault (inner : Location) (hthere : base.content? (inner ++ s) ≠ none)
      (hfault : (source.under inner).fault? ≠ none ∨ (target.under inner).fault? ≠ none)
  /-- A directory cannot be listed. -/
  | unlistable (inner : Location) (hdirectory : base.HasDirectory (inner ++ s))
      (hfleeting : inner ++ s ∈ base.fleeting)

/-- A tree that has been laid over another was not obstructed. -/
lemma Copied.not_obstructed (h : Copied base source target s d after [])
    (hlays : Lays base s d base after) : ¬ Obstructed base source target s d := by
  have hsettled (inner : Location) (hthere : base.content? (inner ++ s) ≠ none) :
      Settled base source target s d after inner := by
    simpa using h.settled inner hthere
  rintro (⟨inner, hdirectory, hthere, hnot⟩ | ⟨inner, bytes, hfile, hdirectory⟩ |
    ⟨inner, hthere, hfault⟩ | ⟨inner, hdirectory, hfleeting⟩)
  · have hcontent := content?_eq_directory_iff.2 hdirectory
    have hheld := (hsettled inner (by simp [hcontent])).held
    exact hnot (hlays.kind _ hthere (content?_eq_directory_iff.1 (hheld.trans hcontent)))
  · have hheld := (hsettled inner (by simp [hfile])).held
    have hstill := content?_eq_directory_iff.2 (hlays.confined.grows.directory _ hdirectory)
    simp [hheld, hfile] at hstill
  · rcases hfault with hfault | hfault
    · exact hfault (hsettled inner hthere).source
    · exact hfault (hsettled inner hthere).target
  · exact h.listable inner hdirectory hfleeting

/-! ## One directory -/

/-- A directory is being copied: its path and that of its counterpart lead where they should. -/
structure Matched (base : Disk) (source target : Path) (s d : Location) (disk : Disk)
    (inner : Location) : Prop where
  /-- It is a directory. -/
  directory : base.HasDirectory (inner ++ s)
  /-- Its path leads there. -/
  source : disk.locate (source.under inner) = .ok (inner ++ s)
  /-- The path of the counterpart leads there. -/
  target : disk.locate (target.under inner) = .ok (inner ++ d)
  /-- The counterpart has been made. -/
  counterpart : disk.HasDirectory (inner ++ d)

namespace Matched

lemma lays (h : Matched base source target s d disk inner) (hlays : Lays base s d disk after) :
    Matched base source target s d after inner where
  directory := h.directory
  source := locate_grows h.source hlays.confined.grows
  target := locate_grows h.target hlays.confined.grows
  counterpart := hlays.confined.grows.directory _ h.counterpart

lemma settled (h : Matched base source target s d disk inner) :
    Settled base source target s d disk inner where
  held := by
    rw [content?_eq_directory_iff.2 h.directory, content?_eq_directory_iff.2 h.counterpart]
  source := (locate_eq_ok_iff.1 h.source).1
  target := (locate_eq_ok_iff.1 h.target).1

end Matched

section Copying

variable (hlinkless : base.Linkless) (habove : ¬ s <:+ d) (hbelow : ¬ d <:+ s)
  (hlays : Lays base s d base disk)

include habove hbelow in
/-- Nothing below `s` is a counterpart. -/
lemma not_isCounterpart (inner : Location) : ¬ IsCounterpart base s d (inner ++ s) := by
  rintro ⟨inner', heq, -⟩
  have hd : d <:+ inner ++ s := heq ▸ List.suffix_append inner' d
  rcases List.suffix_or_suffix_of_suffix (List.suffix_append inner s) hd with h | h
  · exact habove h
  · exact hbelow h

include habove hbelow hlays in
/-- Below `s` the same shows as at the beginning. -/
lemma Lays.face?_source (inner : Location) : disk.face? (inner ++ s) = base.face? (inner ++ s) :=
  hlays.confined.same _ (not_isCounterpart habove hbelow inner)

include hlinkless hlays

lemma Lays.linkless : disk.Linkless := hlinkless.grows hlays.confined.grows

variable (hmatched : Matched base source target s d disk inner)
  (hthere : base.content? (name :: (inner ++ s)) ≠ none)

include hmatched hthere

omit hlays hmatched hlinkless in
lemma validName_of_there : validName name :=
  base.validName_of_mem_location (mt content?_eq_none_iff.2 hthere) (by simp)

include habove hbelow

/-- Whether an entry is a directory is told as it was at the beginning, if its path can be
followed. -/
lemma isDirectory_entry :
    ((source.under (name :: inner)).fault? ≠ none ∧
      ∃ fault, disk.isDirectory (source.under (name :: inner)) = .error fault) ∨
    ((source.under (name :: inner)).fault? = none ∧
      disk.locate (source.under (name :: inner)) = .ok (name :: (inner ++ s)) ∧
      disk.isDirectory (source.under (name :: inner)) =
        .ok (decide (base.content? (name :: (inner ++ s)) = some .directory))) := by
  have hsame : disk.content? (name :: (inner ++ s)) = base.content? (name :: (inner ++ s)) :=
    content?_of_face? (hlays.face?_source habove hbelow (name :: inner))
  rw [← Path.child_under, ← hsame]
  exact isDirectory_child hmatched.source (hlays.confined.grows.directory _ hmatched.directory)
    (validName_of_there hthere) (hlays.linkless hlinkless)

omit habove hbelow in
/-- **A subdirectory** gets its counterpart. -/
lemma makeEntry_yields (hsource : (source.under (name :: inner)).fault? = none)
    (hdirectory : base.content? (name :: (inner ++ s)) = some .directory) :
    Yields (ensureDirectory chain (target.under (name :: inner))) disk
      (fun _ after => Lays base s d disk after ∧
        Settled base source target s d after (name :: inner))
      (Obstructed base source target s d) := by
  have hvalid := validName_of_there hthere
  have hstill := hlays.linkless hlinkless
  have hmade := ensureDirectory_child_yields hmatched.target hmatched.counterpart hvalid hstill
    chain
  rw [Path.child_under] at hmade
  refine hmade.mono (fun _ after hpost => ?_) fun hfailed => ?_
  · obtain ⟨htarget, ⟨hdone, rfl⟩ | ⟨hfree, rfl⟩⟩ := hpost
    · refine ⟨.refl _, ?_, hsource, htarget⟩
      exact (content?_eq_directory_iff.2 hdone).trans hdirectory.symm
    · have hnot : ¬ disk.HasDirectory (name :: (inner ++ d)) := by
        rw [← content?_eq_directory_iff, content?_eq_none_iff.2 hfree]
        simp
      refine ⟨.put hvalid hmatched.counterpart hmatched.directory hdirectory hnot (hstill _)
        (fun _ => content?_eq_none_iff.2 hfree) (fun _ => rfl) (by simp), ?_, hsource, htarget⟩
      rw [putDirectory, List.cons_append,
        content?_put hvalid hmatched.counterpart hnot fun _ => rfl, if_pos rfl]
      exact hdirectory.symm
  · rcases hfailed with hfault | ⟨hsome, hnot⟩
    · exact .fault (name :: inner) hthere (.inr hfault)
    · -- what is in the way was there at the beginning
      rcases hlays.counterpart (name :: inner) with hsame | ⟨-, hlaid⟩
      · refine .clash (name :: inner) (content?_eq_directory_iff.1 hdirectory) ?_ ?_
        · exact fun hnone => hsome (content?_eq_none_iff.1 (hsame.trans hnone))
        · exact fun hbefore => hnot (content?_eq_directory_iff.1
            (hsame.trans (content?_eq_directory_iff.2 hbefore)))
      · exact absurd (content?_eq_directory_iff.1 (hlaid.trans hdirectory)) hnot

/-- **A file** is copied to its counterpart. -/
lemma copyEntry_yields (hsource : (source.under (name :: inner)).fault? = none)
    (hplace : disk.locate (source.under (name :: inner)) = .ok (name :: (inner ++ s)))
    (hfile : base.content? (name :: (inner ++ s)) = some (.file bytes)) :
    Yields (copyFile (source.under (name :: inner)) (target.under (name :: inner))) disk
      (fun _ after => Lays base s d disk after ∧
        Settled base source target s d after (name :: inner))
      (Obstructed base source target s d) := by
  have hvalid := validName_of_there hthere
  have hstill := hlays.linkless hlinkless
  have hne : name :: (inner ++ s) ≠ name :: (inner ++ d) := by
    intro heq
    obtain rfl : s = d := List.append_cancel_left (List.cons.inj heq).2
    exact habove (List.suffix_refl _)
  have hnow : disk.content? (name :: (inner ++ s)) = some (.file bytes) := by
    rw [← hfile]
    exact content?_of_face? (hlays.face?_source habove hbelow (name :: inner))
  have hcopied := copyFile_child_yields (q := source.under (name :: inner)) hmatched.target
    hmatched.counterpart hvalid hstill fun _ => ⟨_, hplace, hne, hnow⟩
  rw [Path.child_under] at hcopied
  refine hcopied.mono (fun _ after hpost => ?_) fun hfailed => ?_
  · obtain ⟨-, htarget, hnot, rfl⟩ := hpost
    refine ⟨.put hvalid hmatched.counterpart hmatched.directory hfile hnot (hstill _)
      (by simp [Node.face, Face.content]) (fun _ => rfl) (by simp), ?_, hsource, htarget⟩
    rw [putFile, List.cons_append, content?_put hvalid hmatched.counterpart hnot fun _ => rfl,
      if_pos rfl]
    exact hfile.symm
  · rcases hfailed with hfault | hfault | hdirectory
    · exact absurd hsource hfault
    · exact .fault (name :: inner) hthere (.inr hfault)
    · rw [← content?_eq_directory_iff] at hdirectory
      rcases hlays.counterpart (name :: inner) with hsame | ⟨-, hlaid⟩
      · exact .covered (name :: inner) bytes hfile
          (content?_eq_directory_iff.1 (hsame.symm.trans hdirectory))
      · have heq := hlaid.symm.trans hdirectory
        simp [hfile] at heq

omit hthere

/-- The paths of a location and of its counterpart. -/
def pairAt (source target : Path) (inner : Location) : Path × Path :=
  (source.under inner, target.under inner)

/-- **The entries of one directory.**  The files are copied and the directories made, unless
something is obstructed; the directories are left for later. -/
lemma copyEntries_yields
    (hnames : ∀ name ∈ names, base.content? (name :: (inner ++ s)) ≠ none) :
    Yields (copyEntries chain (source.under inner) (target.under inner) names) disk
      (fun result after =>
        result = (names.countP fun name => base.content? (name :: (inner ++ s)) ≠ some .directory,
          ((names.filter fun name => base.content? (name :: (inner ++ s)) = some .directory).map
            (· :: inner)).map (pairAt source target)) ∧
        Lays base s d disk after ∧
        ∀ name ∈ names, Settled base source target s d after (name :: inner))
      (Obstructed base source target s d) := by
  induction names generalizing disk with
  | nil => exact yields_pure ⟨rfl, .refl disk, by simp⟩
  | cons name names ih =>
    have hthere := hnames name (by simp)
    -- the other entries, on a disk on which this one has been settled
    have hrest {after : Disk} (hafter : Lays base s d disk after)
        (hsettled : Settled base source target s d after (name :: inner)) :
        Yields (copyEntries chain (source.under inner) (target.under inner) names) after
          (fun result final =>
            result = (names.countP fun name =>
                base.content? (name :: (inner ++ s)) ≠ some .directory,
              ((names.filter fun name =>
                base.content? (name :: (inner ++ s)) = some .directory).map
                  (· :: inner)).map (pairAt source target)) ∧
            Lays base s d disk final ∧
            ∀ other ∈ name :: names, Settled base source target s d final (other :: inner))
          (Obstructed base source target s d) := by
      refine (ih (hlays.trans hafter) (hmatched.lays hafter) fun other hother =>
        hnames other (by simp [hother])).mono ?_ id
      rintro result final ⟨heq, hfinal, hall⟩
      refine ⟨heq, hafter.trans hfinal, fun other hother => ?_⟩
      rcases List.mem_cons.1 hother with rfl | hother
      · exact hsettled.lays hfinal
      · exact hall other hother
    rw [copyEntries]
    simp only [Path.child_under]
    rcases isDirectory_entry hlinkless habove hbelow hlays hmatched hthere with
      ⟨hfault, fault, hanswer⟩ | ⟨hfault, hplace, hanswer⟩
    · refine yields_bind (yields_query fun _ _ => .fault (name :: inner) hthere (.inl hfault)) ?_
      rintro is _ ⟨his, rfl⟩
      simp [hanswer] at his
    · refine yields_bind (yields_query fun fault herror => by simp [hanswer] at herror) ?_
      rintro is _ ⟨his, rfl⟩
      obtain rfl := Except.ok.inj (hanswer.symm.trans his)
      by_cases hdirectory : base.content? (name :: (inner ++ s)) = some .directory
      · rw [if_pos (by simpa using hdirectory)]
        refine yields_bind
          (makeEntry_yields hlinkless hlays hmatched hthere hfault hdirectory) ?_
        rintro _ made ⟨hmade, hsettled⟩
        refine yields_bind (hrest hmade hsettled) ?_
        rintro result final ⟨rfl, hfinal, hall⟩
        refine yields_pure ⟨?_, hfinal, hall⟩
        simp [hdirectory, pairAt]
      · obtain ⟨bytes, hfile⟩ :=
          ((hlinkless.content?_cases _).resolve_left hthere).resolve_left hdirectory
        rw [if_neg (by simpa using hdirectory)]
        refine yields_bind
          (copyEntry_yields hlinkless habove hbelow hlays hmatched hthere hfault hplace hfile) ?_
        rintro _ copied ⟨hcopied, hsettled⟩
        refine yields_bind (hrest hcopied hsettled) ?_
        rintro result final ⟨rfl, hfinal, hall⟩
        refine yields_pure ⟨?_, hfinal, hall⟩
        simp [hfile]

end Copying

/-! ## Directories with all below them -/

/-- A directory has been copied if all its entries have, those that are directories with all below
them. -/
lemma Copied.of_names (hself : Settled base source target s d disk inner)
    (hlistable : inner ++ s ∉ base.fleeting)
    (hnames : ∀ name, base.content? (name :: (inner ++ s)) ≠ none →
      Settled base source target s d disk (name :: inner) ∧
        (base.HasDirectory (name :: (inner ++ s)) →
          Copied base source target s d disk (name :: inner))) :
    Copied base source target s d disk inner := by
  -- what is further down lies below an entry
  have hentry (more : Location) (name : Text)
      (h : base.content? (more ++ name :: (inner ++ s)) ≠ none) :
      base.content? (name :: (inner ++ s)) ≠ none ∧
        (more ≠ [] → base.HasDirectory (name :: (inner ++ s))) := by
    have hdirectory (hmore : more ≠ []) := hasDirectory_of_content?_append hmore h
    refine ⟨fun hnone => ?_, hdirectory⟩
    by_cases hmore : more = []
    · exact h (by simpa [hmore] using hnone)
    · simp [content?_eq_directory_iff.2 (hdirectory hmore)] at hnone
  constructor
  · intro more hmore
    rcases List.eq_nil_or_concat more with rfl | ⟨more, name, rfl⟩
    · exact hself
    · rw [List.concat_eq_append, List.append_assoc, List.singleton_append] at hmore ⊢
      obtain ⟨hthere, hdirectory⟩ := hentry more name hmore
      obtain ⟨hsettled, hcopied⟩ := hnames name hthere
      by_cases hnil : more = []
      · rw [hnil]
        exact hsettled
      · exact (hcopied (hdirectory hnil)).settled more hmore
  · intro more hmore
    rcases List.eq_nil_or_concat more with rfl | ⟨more, name, rfl⟩
    · exact hlistable
    · rw [List.concat_eq_append, List.append_assoc, List.singleton_append] at hmore ⊢
      obtain ⟨hthere, hdirectory⟩ :=
        hentry more name (by simp [content?_eq_directory_iff.2 hmore])
      have hbelow : base.HasDirectory (name :: (inner ++ s)) := by
        by_cases hnil : more = []
        · simpa [hnil] using hmore
        · exact hdirectory hnil
      exact ((hnames name hthere).2 hbelow).listable more hmore

/-- The files in a directory: those at its names, and those below the names of directories. -/
lemma fileCount_of_listing (hlinkless : base.Linkless) (hl : base.HasDirectory l)
    (hdistinct : names.Nodup) (hnames : ∀ name, name ∈ names ↔ base.content? (name :: l) ≠ none) :
    base.fileCount l =
      (names.countP fun name => base.content? (name :: l) ≠ some .directory : ℕ) +
        ((names.filter fun name => base.content? (name :: l) = some .directory).map
          fun name => base.fileCount (name :: l)).sum := by
  rw [fileCount_of_names hl hdistinct fun name => (hnames name).2]
  have hthere : ∀ name ∈ names, base.content? (name :: l) ≠ none := fun name => (hnames name).1
  clear hdistinct hnames
  induction names with
  | nil => simp
  | cons name names ih =>
    have hrest := ih fun other hother => hthere other (by simp [hother])
    by_cases hdirectory : base.content? (name :: l) = some .directory
    · simp only [List.map_cons, List.sum_cons, hrest, hdirectory, ne_eq, not_true_eq_false,
        decide_false, Bool.false_eq_true, not_false_eq_true, List.countP_cons_of_neg, decide_true,
        List.filter_cons_of_pos]
      ring
    · obtain ⟨bytes, hfile⟩ := ((hlinkless.content?_cases (name :: l)).resolve_left
        (hthere name (by simp))).resolve_left hdirectory
      simp only [List.map_cons, List.sum_cons, hrest, fileCount_of_file hfile, hfile, ne_eq,
        Option.some.injEq, reduceCtorEq, not_false_eq_true, decide_true, List.countP_cons_of_pos,
        decide_false, Bool.false_eq_true, List.filter_cons_of_neg, Nat.cast_add, Nat.cast_one]
      ring

/-- **Copying all of some directories** that lie deep enough, each with all below it. -/
def CopiesAll (base : Disk) (source target : Path) (s d : Location) (depth : Nat)
    (operation : List (Path × Path) → Operation Nat) : Prop :=
  ∀ (inners : List Location) (disk : Disk), Lays base s d base disk →
    (∀ inner ∈ inners, Matched base source target s d disk inner ∧ depth ≤ inner.length) →
    Yields (operation (inners.map (pairAt source target))) disk
      (fun n after => (n : ℕ∞) = (inners.map fun inner => base.fileCount (inner ++ s)).sum ∧
        Lays base s d disk after ∧ ∀ inner ∈ inners, Copied base source target s d after inner)
      (Obstructed base source target s d)

section Copying

variable (hlinkless : base.Linkless) (habove : ¬ s <:+ d) (hbelow : ¬ d <:+ s)

include hlinkless habove hbelow

lemma copyPairs_yields {depth : Nat} {deeper : List (Path × Path) → Operation Nat}
    (hdeeper : CopiesAll base source target s d (depth + 1) deeper) :
    CopiesAll base source target s d depth (copyPairs chain deeper) := by
  intro inners disk hlays hinners
  induction inners generalizing disk with
  | nil => exact yields_pure ⟨by simp, .refl disk, by simp⟩
  | cons inner inners ih =>
    obtain ⟨hmatched, hdepth⟩ := hinners inner (by simp)
    have hface := hlays.face?_source habove hbelow
    have hlist := list_of_hasDirectory hmatched.source
      (hlays.confined.grows.directory _ hmatched.directory)
    rw [hlays.confined.grows.fleeting] at hlist
    have hchildren (name : Text) : name ∈ disk.children (inner ++ s) ↔
        base.content? (name :: (inner ++ s)) ≠ none := by
      rw [mem_children_iff, ← List.cons_append, content?_of_face? (hface (name :: inner))]
    simp only [List.map_cons, pairAt, copyPairs]
    by_cases hfleeting : inner ++ s ∈ base.fleeting
    · refine yields_bind (yields_query fun _ _ =>
        .unlistable inner hmatched.directory hfleeting) ?_
      rintro names _ ⟨hnames, rfl⟩
      simp [hlist, hfleeting] at hnames
    rw [if_neg hfleeting] at hlist
    refine yields_bind (yields_query fun fault herror => by simp [hlist] at herror) ?_
    rintro names _ ⟨hnames, rfl⟩
    obtain rfl := Except.ok.inj (hlist.symm.trans hnames)
    -- the entries of the directory
    refine yields_bind (copyEntries_yields hlinkless habove hbelow hlays hmatched fun name =>
      (hchildren name).1) ?_
    rintro result made ⟨rfl, hmade, hsettled⟩
    have hmatched' := hmatched.lays hmade
    -- what lies below its directories
    rw [← List.map_reverse, ← List.map_reverse]
    refine yields_bind (hdeeper _ made (hlays.trans hmade) fun child hchild => ?_) ?_
    · simp only [List.mem_map, List.mem_reverse, List.mem_filter, decide_eq_true_eq] at hchild
      obtain ⟨name, ⟨hname, hdirectory⟩, rfl⟩ := hchild
      have hthere := (hchildren name).1 hname
      obtain ⟨hheld, hfrom, hto⟩ := hsettled name hname
      have hstill := (hlays.trans hmade).linkless hlinkless
      have hvalid := validName_of_there hthere
      rw [← Path.child_under] at hfrom hto
      have hsource := (hlays.trans hmade).confined.grows.directory _ hmatched.directory
      refine ⟨⟨content?_eq_directory_iff.1 hdirectory, ?_, ?_,
        content?_eq_directory_iff.1 (hheld.trans hdirectory)⟩, by simp [hdepth]⟩
      · rw [← Path.child_under]
        exact locate_child hmatched'.source hsource (hstill _) hfrom hvalid
      · rw [← Path.child_under]
        exact locate_child hmatched'.target hmatched'.counterpart (hstill _) hto hvalid
    rintro below deep ⟨hcount, hdeep, hcopied⟩
    -- the other directories
    refine yields_bind (ih deep ((hlays.trans hmade).trans hdeep) fun other hother => ?_) ?_
    · obtain ⟨hother', hdepth'⟩ := hinners other (by simp [hother])
      exact ⟨(hother'.lays hmade).lays hdeep, hdepth'⟩
    rintro rest final ⟨hrest, hfinal, hothers⟩
    refine yields_pure ⟨?_, (hmade.trans hdeep).trans hfinal, fun other hother => ?_⟩
    · rw [List.sum_cons, fileCount_of_listing hlinkless hmatched.directory
        (nodup_children _ _) hchildren, Nat.cast_add, Nat.cast_add, hcount, hrest]
      simp [Function.comp_def, List.sum_reverse]
    · rcases List.mem_cons.1 hother with rfl | hother
      · refine Copied.of_names (hmatched'.lays hdeep |>.lays hfinal).settled hfleeting
          fun name hthere => ?_
        have hname := (hchildren name).2 hthere
        refine ⟨((hsettled name hname).lays hdeep).lays hfinal, fun hdirectory => ?_⟩
        refine (hcopied (name :: other) ?_).lays hfinal
        simpa [content?_eq_directory_iff] using ⟨hname, hdirectory⟩
      · exact hothers other hother

/-- **Copying levels**: no tree is too deep, since paths in it would be too long. -/
lemma copyLevels_copiesAll {room depth : Nat}
    (hroom : pathLimit + 1 ≤ room + (source.parts.length + depth)) :
    CopiesAll base source target s d depth (copyLevels chain room) := by
  induction room generalizing depth with
  | zero =>
    refine copyPairs_yields hlinkless habove hbelow fun inners disk hlays hinners => ?_
    cases inners with
    | nil => exact yields_pure ⟨by simp, .refl disk, by simp⟩
    | cons inner inners =>
      obtain ⟨hmatched, hdepth⟩ := hinners inner (by simp)
      have hdirectory : disk.isDirectory (source.under inner) = .ok true :=
        isDirectory_eq_true_iff.2
          ⟨_, hmatched.source, hlays.confined.grows.directory _ hmatched.directory⟩
      have hlength := Path.length_parts_le_of_isDirectory hdirectory
      simp only [Path.under, List.length_append, List.length_reverse] at hlength
      omega
  | succ room ih => exact copyPairs_yields hlinkless habove hbelow (ih (by omega))

/-- **A whole tree** is laid over another one, unless something is obstructed. -/
lemma copyLevels_yields (hmatched : Matched base source target s d base []) (chain : Nat) :
    Yields (copyLevels chain (pathLimit + 1) [(source, target)]) base
      (fun n after => (n : ℕ∞) = base.fileCount s ∧ Lays base s d base after ∧
        Copied base source target s d after [])
      (Obstructed base source target s d) := by
  have hlevels : CopiesAll base source target s d 0 (copyLevels chain (pathLimit + 1)) :=
    copyLevels_copiesAll hlinkless habove hbelow (by omega)
  simpa [pairAt] using hlevels [[]] base (.refl base) (by simpa using hmatched)

end Copying

end Storage

end OnePage
