import OnePage.Proofs.Storage.Contents

/-!
# Which files a directory lists

* `Disk.children_congr` — the names in a directory depend on what shows there only.
* `Disk.list_eq_ok_iff` — when a directory can be listed, and the names that are listed then.
* `Disk.listFiles_eq_ok` — those of them that are listed as files with a certain ending.
* **`Disk.mem_listFiles_iff`** and `Disk.nodup_listFiles` — every such file directly in the
  directory is listed, once, and nothing else.
-/

namespace OnePage

namespace Storage

namespace Disk

variable {disk old new : Disk} {p : Path} {l : Location} {name ending : Text}
  {names found : List Text}

/-- The names in a directory are those that show there. -/
lemma children_congr (h : new.face? l = old.face? l) : new.children l = old.children l := by
  rw [face?, face?] at h
  rw [children, children]
  cases hold : old.node? l with
  | none =>
    rw [hold, Option.map_none, Option.map_eq_none_iff] at h
    rw [h]
  | some before =>
    obtain ⟨now, hnow, hface⟩ : ∃ now, new.node? l = some now ∧ now.face = before.face := by
      simpa [hold] using h
    rw [hnow]
    cases before <;> cases now <;> simp only [Node.face, reduceCtorEq] at hface ⊢
    exact listed_eq_of_face (congrArg Face.directory (Face.directory.inj hface))

lemma list_eq_ok_iff : disk.list p = .ok names ↔ ∃ l, disk.locate p = .ok l ∧
    disk.HasDirectory l ∧ l ∉ disk.fleeting ∧ names = disk.children l := by
  constructor
  · intro h
    rw [list_eq] at h
    cases hp : disk.locate p with
    | error fault => simp [hp] at h
    | ok l =>
      simp only [hp] at h
      split at h
      · next entries hentries =>
        split_ifs at h with hfleeting
        obtain rfl := Except.ok.inj h
        refine ⟨l, rfl, hasDirectory_iff.2 ⟨entries, hentries⟩, hfleeting, ?_⟩
        simp only [children, hentries]
      · simp at h
      · simp at h
  · rintro ⟨l, hp, hl, hfleeting, rfl⟩
    rw [list_of_hasDirectory hp hl, if_neg hfleeting]

/-- Whether a name in a directory has an ending and leads to a file. -/
def isWanted (disk : Disk) (p : Path) (ending name : Text) : Bool :=
  ending.isSuffixOf name && match disk.isFile (p.child name) with
    | .ok there => there
    | .error _ => false

lemma isWanted_iff : disk.isWanted p ending name = true ↔
    ending <:+ name ∧ disk.isFile (p.child name) = .ok true := by
  rw [isWanted, Bool.and_eq_true, List.isSuffixOf_iff_suffix]
  cases disk.isFile (p.child name) <;> simp

lemma filesAmong_eq_ok (h : disk.filesAmong p ending names = .ok found) :
    found = names.filter (disk.isWanted p ending) := by
  induction names generalizing found with
  | nil =>
    obtain rfl : [] = found := Except.ok.inj h
    rfl
  | cons name names ih =>
    -- whether the name is wanted is found out first
    have hfound {there : Bool} (hthere : disk.isWanted p ending name = there)
        (h : (do
          let rest ← disk.filesAmong p ending names
          return if there then name :: rest else rest) = .ok found) :
        found = (name :: names).filter (disk.isWanted p ending) := by
      cases hrest : disk.filesAmong p ending names with
      | error fault => simp [hrest, bind, Except.bind] at h
      | ok rest =>
        have hif : (if there then name :: rest else rest) = found := by
          simpa [hrest, bind, Except.bind, pure, Except.pure] using h
        rw [← hif, List.filter_cons, hthere, ← ih hrest]
    rw [filesAmong] at h
    by_cases hsuffix : ending.isSuffixOf name
    · rw [if_pos hsuffix] at h
      cases hfile : disk.isFile (p.child name) with
      | error fault => simp [hfile, bind, Except.bind] at h
      | ok there =>
        refine @hfound there (by simp [isWanted, hsuffix, hfile]) ?_
        simpa [hfile, bind, Except.bind] using h
    · rw [if_neg hsuffix] at h
      exact @hfound false (by simp [isWanted, hsuffix]) h

/-- What is listed: nothing if the path leads to no directory, and otherwise those of the names in
the directory that are wanted. -/
lemma listFiles_eq_ok (h : disk.listFiles p ending = .ok found) :
    disk.isDirectory p = .ok false ∧ found = [] ∨ ∃ l, disk.locate p = .ok l ∧
      disk.HasDirectory l ∧ l ∉ disk.fleeting ∧
        found = (disk.children l).filter (disk.isWanted p ending) := by
  rw [listFiles] at h
  cases hdirectory : disk.isDirectory p with
  | error fault => simp [hdirectory, bind, Except.bind] at h
  | ok there =>
    cases there with
    | false =>
      refine .inl ⟨rfl, ?_⟩
      simpa [hdirectory, bind, Except.bind, pure, Except.pure, eq_comm] using h
    | true =>
      right
      cases hlist : disk.list p with
      | error fault => simp [hdirectory, hlist, bind, Except.bind] at h
      | ok names =>
        obtain ⟨l, hp, hl, hfleeting, rfl⟩ := list_eq_ok_iff.1 hlist
        refine ⟨l, hp, hl, hfleeting, filesAmong_eq_ok ?_⟩
        simpa [hdirectory, hlist, bind, Except.bind] using h

/-- **What is listed**: the names in the directory with that ending that lead to files. -/
lemma mem_listFiles_iff (h : disk.listFiles p ending = .ok found) : name ∈ found ↔
    ending <:+ name ∧ (∃ names, disk.list p = .ok names ∧ name ∈ names) ∧
      disk.isFile (p.child name) = .ok true := by
  rcases listFiles_eq_ok h with ⟨hnot, rfl⟩ | ⟨l, hp, hl, hfleeting, rfl⟩
  · refine iff_of_false (by simp) ?_
    rintro ⟨-, ⟨names, hnames, -⟩, -⟩
    obtain ⟨l, hp, hl, -⟩ := list_eq_ok_iff.1 hnames
    simp [isDirectory_eq_true_iff.2 ⟨l, hp, hl⟩] at hnot
  · have hnames := list_eq_ok_iff.2 ⟨l, hp, hl, hfleeting, rfl⟩
    simp only [List.mem_filter, isWanted_iff, hnames, Except.ok.injEq, exists_eq_left']
    tauto

/-- Nothing is listed twice. -/
lemma nodup_listFiles (h : disk.listFiles p ending = .ok found) : found.Nodup := by
  rcases listFiles_eq_ok h with ⟨-, rfl⟩ | ⟨l, -, -, -, rfl⟩
  · exact List.nodup_nil
  · exact (disk.nodup_children l).filter _

end Disk

end Storage

end OnePage
