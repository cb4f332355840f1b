import OnePage.Proofs.Storage.Listing
import OnePage.Proofs.Storage.Overlay

/-!
# The files directly in a copied directory

A directory may be copied from anywhere, links included, as long as no links lie where it is copied
to.  A file that lies in it directly is copied once, and nothing that is copied later gets at the
copy: what follows goes to other names.

* `Branches` — the branches of some names in a directory.
* `ensures_copyEntries_branches` and `ensures_copyLevels_branches` — copying entries, and what lies
  further down, changes the branches of their names only.
* `copyFile_yields` — one file is copied.
* `copyEntries_yields_file` — it is one of the entries of a directory.
* **`copyTree_yields_file`** — its copy is there after the whole tree has been copied.
-/

namespace OnePage

namespace Storage

open Disk

variable {α : Type} {keeps : Disk → Prop} {old disk : Disk} {source target p : Path}
  {d l place : Location} {name folder : Text} {names inner : List Text} {bytes : Bytes}
  {chain : Nat}

/-- The branches of some names in a directory. -/
def Branches (d : Location) (names : List Text) (l : Location) : Prop :=
  ∃ name ∈ names, Branch d name l

/-- What lies at a name in a directory is in no branch of other names. -/
lemma not_branches (hname : name ∉ names) : ¬ Branches d names (name :: d) := by
  rintro ⟨other, hother, hself | hsuffix⟩
  · simpa using congrArg List.length hself
  · have heq := hsuffix.eq_of_length (by simp)
    exact hname ((List.cons.inj heq).1 ▸ hother)

/-! ## One directory -/

section Entries

variable (hopens : old.OpensAt target d names) (hvalid : ∀ name ∈ names, validName name)

include hopens hvalid

section Entry

variable {touched : Location → Prop} (hname : name ∈ names)
  (htouched : ∀ l, Branch d name l → touched l)

include hname htouched

/-- Making a directory at a name changes the branch of that name only. -/
lemma ensures_makeEntry : Ensures (old.Confined touched) (ensureDirectory chain (target.child name))
    fun _ => True := by
  refine ensures_confined htouched fun disk hdisk => ?_
  have hnone : ∀ other ∈ ([] : List Text), validName other := by simp
  exact ensures_ensureDirectory_branch (hopens.grows hdisk.grows) hname (hvalid name hname) hnone

/-- So does copying a file to it. -/
lemma ensures_copyEntry : Ensures (old.Confined touched) (copyFile p (target.child name))
    fun _ => True := by
  refine ensures_confined htouched fun disk hdisk => ensures_copyFile fun content => ?_
  have hnone : ∀ other ∈ ([] : List Text), validName other := by simp
  exact ensures_write_branch (hopens.grows hdisk.grows) hname (hvalid name hname) hnone

end Entry

/-- **Copying entries** changes the branches of their names only. -/
lemma ensures_copyEntries_branches {touched : Location → Prop} (hinner : inner ⊆ names)
    (htouched : ∀ l, Branches d inner l → touched l) :
    Ensures (old.Confined touched) (copyEntries chain source target inner)
      fun result => ∀ pair ∈ result.2, ∃ name ∈ inner, pair.2 = target.child name := by
  induction inner with
  | nil => exact ensures_pure (by simp)
  | cons name inner ih =>
    have hmem : name ∈ names := hinner (by simp)
    have hbranch (l : Location) (hl : Branch d name l) : touched l :=
      htouched l ⟨name, by simp, hl⟩
    have hrest := ih (fun other hother => hinner (by simp [hother]))
      fun l ⟨other, hother, hl⟩ => htouched l ⟨other, by simp [hother], hl⟩
    rw [copyEntries]
    refine ensures_bind (ensures_query_any _) fun is _ => ?_
    cases is with
    | true =>
      refine ensures_bind (ensures_makeEntry hopens hvalid hmem hbranch) fun _ _ =>
        ensures_bind hrest fun result hresult => ensures_pure fun pair hpair => ?_
      rcases List.mem_cons.1 hpair with rfl | hpair
      · exact ⟨name, by simp, rfl⟩
      · obtain ⟨other, hother, heq⟩ := hresult pair hpair
        exact ⟨other, by simp [hother], heq⟩
    | false =>
      refine ensures_bind (ensures_copyEntry hopens hvalid hmem hbranch) fun _ _ =>
        ensures_bind hrest fun result hresult => ensures_pure fun pair hpair => ?_
      obtain ⟨other, hother, heq⟩ := hresult pair hpair
      exact ⟨other, by simp [hother], heq⟩

/-- **A file** that has been copied is there. -/
lemma copyFile_yields (hname : name ∈ names) (hdisk : old.Grows disk)
    (hread : disk.read p = .ok bytes) : Yields (copyFile p (target.child name)) disk
      (fun _ after => (target.child name).fault? = none ∧
        ∃ stamp, after.face? (name :: d) = some (.file bytes stamp)) True := by
  rw [Yields]
  cases hcopy : copyFile p (target.child name) disk with
  | error fault after => trivial
  | ok u after =>
    obtain ⟨content, place, hcontent, hplace, hnot, rfl⟩ := copyFile_ok hcopy
    have hfault := (locateNew_eq_ok_iff.1 hplace).1
    obtain ⟨hleads, hdirectory, hlinkless⟩ := hopens.grows hdisk
    obtain rfl := Except.ok.inj (hcontent.symm.trans hread)
    obtain rfl := Except.ok.inj (hplace.symm.trans (locateNew_child hleads hdirectory
      (hvalid name hname) hfault (hlinkless name hname _ (List.suffix_refl _))))
    exact ⟨hfault, _, face?_put (hvalid name hname) hdirectory⟩

/-- **The entries of a directory**, of which one stands for a file: its copy is there, and the
directories that are left are other ones. -/
lemma copyEntries_yields_file (hinner : inner ⊆ names) (hdistinct : inner.Nodup)
    (hname : name ∈ inner) (hdisk : old.Confined (Branches d names) disk)
    (hsteady : ∀ disk, old.Confined (Branches d names) disk →
      disk.isDirectory (source.child name) = .ok false ∧
        disk.read (source.child name) = .ok bytes) :
    Yields (copyEntries chain source target inner) disk
      (fun result after => old.Confined (Branches d names) after ∧
        (target.child name).fault? = none ∧
        (∃ stamp, after.face? (name :: d) = some (.file bytes stamp)) ∧
        ∀ pair ∈ result.2, ∃ other ∈ names, other ≠ name ∧ pair.2 = target.child other) True := by
  induction inner generalizing disk with
  | nil => simp at hname
  | cons first inner ih =>
    obtain ⟨hfirst, hdistinct⟩ := List.nodup_cons.1 hdistinct
    have hmem : first ∈ names := hinner (by simp)
    have hsubset : inner ⊆ names := fun other hother => hinner (by simp [hother])
    have hbranch (l : Location) (hl : Branch d first l) : Branches d names l := ⟨first, hmem, hl⟩
    have hcopied := (ensures_copyEntry (p := source.child first) hopens hvalid hmem hbranch).yields
      hdisk
    rw [copyEntries]
    refine yields_bind (yields_query fun _ _ => trivial) ?_
    rintro is _ ⟨his, rfl⟩
    by_cases hself : first = name
    · -- the file itself; what follows goes to other names
      subst hself
      obtain ⟨hnot, hread⟩ := hsteady _ hdisk
      obtain rfl := Except.ok.inj (hnot.symm.trans his)
      refine yields_bind (hcopied.and (copyFile_yields hopens hvalid hmem hdisk.grows hread)) ?_
      rintro _ copied ⟨⟨hcopied, -⟩, hfault, stamp, hface⟩
      refine yields_bind ((ensures_copyEntries_branches (hopens.grows hcopied.grows) hvalid hsubset
        fun l => id).yields (.refl copied)) ?_
      rintro result final ⟨hfinal, hresult⟩
      have hother (l : Location) (hl : Branches d inner l) : Branches d names l := by
        obtain ⟨other, hother, hl⟩ := hl
        exact ⟨other, hsubset hother, hl⟩
      refine yields_pure ⟨hcopied.trans (hfinal.mono hother), hfault, ⟨stamp, ?_⟩,
        fun pair hpair => ?_⟩
      · rw [hfinal.same _ (not_branches hfirst), hface]
      · obtain ⟨other, hother, heq⟩ := hresult pair hpair
        exact ⟨other, hsubset hother, fun hsame => hfirst (hsame ▸ hother), heq⟩
    · -- another entry comes first
      have hrest {disk : Disk} := @ih disk hsubset hdistinct
        ((List.mem_cons.1 hname).resolve_left (Ne.symm hself))
      cases is with
      | true =>
        refine yields_bind ((ensures_makeEntry hopens hvalid hmem hbranch).yields hdisk)
          fun _ made hmade => yields_bind (hrest hmade.1) ?_
        rintro result final ⟨hfinal, hfault, hface, hresult⟩
        refine yields_pure ⟨hfinal, hfault, hface, fun pair hpair => ?_⟩
        rcases List.mem_cons.1 hpair with rfl | hpair
        · exact ⟨first, hmem, hself, rfl⟩
        · exact hresult pair hpair
      | false =>
        exact yields_bind hcopied fun _ copied hcopied =>
          yields_bind (hrest hcopied.1) fun result final hfinal => yields_pure hfinal

end Entries

/-! ## The whole tree -/

section Tree

variable (hopens : old.OpensAt p place names) (hmem : folder ∈ names) (hvalid : validName folder)

include hopens hmem hvalid

/-- A directory that has been made at a name where there are no links has none below it. -/
lemma opensAt_child (hclean : p.IsClean) : Yields (ensureDirectory chain (p.child folder)) old
    (fun _ made => old.Confined (Branch place folder) made ∧
      ∀ inner, made.OpensAt (p.child folder) (folder :: place) inner) True := by
  have hnone : ∀ other ∈ ([] : List Text), validName other := by simp
  have hmade := (@ensures_ensureDirectory_branch p place old chain folder [] names hopens hmem
    hvalid hnone).yields (.refl old)
  change Yields (ensureDirectory chain (p.child folder)) old _ _ at hmade
  rw [Yields] at hmade ⊢
  cases hresult : ensureDirectory chain (p.child folder) old with
  | error fault after => trivial
  | ok u made =>
    rw [hresult] at hmade
    have hnow := hopens.grows hmade.1.grows
    obtain ⟨l, hplace, hdirectory⟩ :=
      isDirectory_eq_true_iff.1 (isDirectory_of_ensureDirectory (hclean.child hvalid) hresult)
    obtain ⟨-, m, hleads⟩ := locate_eq_ok_iff.1 hplace
    obtain rfl : l = folder :: place := hnow.leads_names (by simpa using hmem)
      (by simpa using hvalid) (by simp) hleads
    refine ⟨hmade.1, fun inner => ⟨hplace, hdirectory, fun name _ l hl => ?_⟩⟩
    exact hnow.linkless folder hmem l ((List.suffix_cons name _).trans hl)

end Tree

/-- Copying what lies further down, below some of the names of a directory, changes nothing outside
their branches. -/
lemma ensures_copyLevels_branches {copied : Disk} {q : Path} {d : Location}
    {found wanted : List Text} {room : Nat} {pairs : List (Path × Path)}
    (hopens : copied.OpensAt q d found) (hvalid : ∀ other ∈ found, validName other)
    (hwanted : wanted ⊆ found) (hpairs : ∀ pair ∈ pairs, ∃ other ∈ wanted, pair.2 = q.child other) :
    Ensures (copied.Confined (Branches d wanted)) (copyLevels chain room pairs) fun _ => True := by
  have hbranch {other : Text} (hother : other ∈ wanted) (l : Location) (hl : Branch d other l) :
      Branches d wanted l := ⟨other, hother, hl⟩
  let good (target : Path) : Prop := ∃ other ∈ wanted, IsBelow q other target
  refine @ensures_copyLevels _ chain good ?_ ?_ ?_ _ _ fun pair hpair => ?_
  · rintro target next ⟨other, hother, rest, hrest, rfl⟩ hnext
    refine ⟨other, hother, rest ++ [next], fun more hmore => ?_, by simp [Path.child]⟩
    rcases List.mem_append.1 hmore with hmore | hmore
    · exact hrest more hmore
    · exact List.mem_singleton.1 hmore ▸ hnext
  · rintro target ⟨other, hother, rest, hrest, rfl⟩
    exact ensures_confined (hbranch hother) fun disk hdisk => ensures_ensureDirectory_branch
      (hopens.grows hdisk.grows) (hwanted hother) (hvalid other (hwanted hother)) hrest
  · rintro target content ⟨other, hother, rest, hrest, rfl⟩
    exact ensures_confined (hbranch hother) fun disk hdisk => ensures_write_branch
      (hopens.grows hdisk.grows) (hwanted hother) (hvalid other (hwanted hother)) hrest
  · obtain ⟨other, hother, heq⟩ := hpairs pair hpair
    exact ⟨other, hother, [], by simp, by rw [heq]; rfl⟩

section Tree

variable (hopens : old.OpensAt p place names) (hmem : folder ∈ names) (hvalid : validName folder)

include hopens hmem hvalid

/-- **A file in a copied tree.**  Suppose that a name in a directory stands for a file, whatever
changes where the directory is copied to.  Then the file is there when all has been copied. -/
lemma copyTree_yields_file (chain : Nat) (hclean : p.IsClean)
    (hdirectory : old.isDirectory source = .ok true)
    (hsteady : ∀ disk, old.Confined (Branch place folder) disk →
      (∃ names, disk.list source = .ok names ∧ name ∈ names) ∧
        disk.isDirectory (source.child name) = .ok false ∧
          disk.read (source.child name) = .ok bytes) :
    Yields (copyTree chain source (p.child folder)) old
      (fun _ after => ((p.child folder).child name).fault? = none ∧
        ∃ stamp, after.face? (name :: folder :: place) = some (.file bytes stamp)) True := by
  rw [copyTree]
  refine yields_bind (yields_query fun _ _ => trivial) ?_
  rintro is _ ⟨his, rfl⟩
  obtain rfl := Except.ok.inj (hdirectory.symm.trans his)
  refine yields_bind (opensAt_child hopens hmem hvalid hclean) ?_
  rintro _ made ⟨hmade, hinside⟩
  -- whatever changes in the new directory changes in its branch
  have hwithin {inner : List Text} (l : Location) (hl : Branches (folder :: place) inner l) :
      Branch place folder l := by
    obtain ⟨other, -, rfl | hsuffix⟩ := hl
    · exact .inr (List.suffix_refl _)
    · exact .inr ((List.suffix_cons other _).trans hsuffix)
  obtain ⟨⟨found, hlist, hname⟩, -⟩ := hsteady made hmade
  have hfound : ∀ name ∈ found, validName name := fun name => made.validName_of_list hlist
  have hdistinct : found.Nodup := by
    obtain ⟨l, -, -, -, rfl⟩ := list_eq_ok_iff.1 hlist
    exact made.nodup_children l
  rw [copyLevels, copyPairs]
  refine yields_bind (yields_query fun _ _ => trivial) ?_
  rintro listed _ ⟨hlisted, rfl⟩
  obtain rfl := Except.ok.inj (hlist.symm.trans hlisted)
  refine yields_bind (copyEntries_yields_file (hinside found) hfound (List.Subset.refl _) hdistinct
    hname (.refl _) fun disk hdisk => (hsteady disk (hmade.trans (hdisk.mono hwithin))).2) ?_
  rintro result copied ⟨hcopied, hfault, ⟨stamp, hface⟩, hleft⟩
  -- what lies further down goes to other names
  have hothers := (hinside found).grows hcopied.grows
  have hbelow : Ensures (copied.Confined (Branches (folder :: place) (found.filter (· ≠ name))))
      (copyLevels chain pathLimit result.2.reverse) fun _ => True := by
    refine ensures_copyLevels_branches hothers hfound (List.filter_subset_self _)
      fun pair hpair => ?_
    obtain ⟨other, hother, hne, heq⟩ := hleft pair (by simpa using hpair)
    exact ⟨other, by simpa using ⟨hother, hne⟩, heq⟩
  refine yields_bind (hbelow.yields (.refl copied)) fun below deep hdeep => ?_
  have hnothing : Yields (copyPairs chain (copyLevels chain pathLimit) []) deep
      (fun _ after => after = deep) True := yields_pure rfl
  refine yields_bind hnothing ?_
  rintro rest _ rfl
  refine yields_pure ⟨hfault, stamp, ?_⟩
  rw [hdeep.1.same _ (not_branches (by simp)), hface]

end Tree

end Storage

end OnePage
