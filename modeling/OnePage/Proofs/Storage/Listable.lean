import OnePage.Proofs.Storage.Listing
import OnePage.Proofs.Storage.Refusal
import OnePage.Proofs.Storage.Snapshot

/-!
# When the files of a directory are listed

* `Disk.filesNamed` — the names in a directory that have an ending and lead to files.
* `Disk.Listable` — nothing keeps the files of a directory from being listed: it is there when it is
  listed, and neither its path nor that of a name with the ending is too long.
* **`Disk.listFiles_eq_ok_iff`** — the files are listed exactly if nothing keeps them from it, and
  what is listed then are these names.
-/

namespace OnePage

namespace Storage

namespace Disk

variable {disk : Disk} {p : Path} {ending name : Text} {names found : List Text}

/-- **The files of a directory** that have an ending: the names in it that have the ending and lead
to files, in the order in which it lists them. -/
def filesNamed (disk : Disk) (p : Path) (ending : Text) : List Text :=
  match disk.list p with
  | .ok names => names.filter (disk.isWanted p ending)
  | .error _ => []

/-- Nothing keeps the files of a directory from being listed. -/
structure Listable (disk : Disk) (p : Path) (ending : Text) : Prop where
  /-- The path is not too long. -/
  within : disk.find p ≠ .error (.system .nameTooLong p none)
  /-- A directory that is there is still there when it is listed. -/
  stays : disk.isDirectory p = .ok true → ∃ names, disk.list p = .ok names
  /-- No name with the ending has too long a path, nor does it lead to one. -/
  short : ∀ names, disk.list p = .ok names → ∀ name ∈ names, ending <:+ name →
    disk.find (p.child name) ≠ .error (.system .nameTooLong (p.child name) none)

lemma mem_filesNamed_iff : name ∈ disk.filesNamed p ending ↔
    (∃ names, disk.list p = .ok names ∧ name ∈ names) ∧ ending <:+ name ∧
      disk.isFile (p.child name) = .ok true := by
  rw [filesNamed]
  cases disk.list p with
  | error fault => simp
  | ok names => simp [isWanted_iff]

/-- The names with an ending are told apart from each other if it is clear where each of them
leads. -/
lemma filesAmong_eq_ok_iff : disk.filesAmong p ending names = .ok found ↔
    (∀ name ∈ names, ending <:+ name →
      disk.find (p.child name) ≠ .error (.system .nameTooLong (p.child name) none)) ∧
      found = names.filter (disk.isWanted p ending) := by
  suffices hexists : (∃ found, disk.filesAmong p ending names = .ok found) ↔
      ∀ name ∈ names, ending <:+ name →
        disk.find (p.child name) ≠ .error (.system .nameTooLong (p.child name) none) by
    rw [← hexists]
    constructor
    · intro h
      exact ⟨⟨found, h⟩, filesAmong_eq_ok h⟩
    · rintro ⟨⟨found', h⟩, rfl⟩
      rw [h, filesAmong_eq_ok h]
  induction names with
  | nil => simp [filesAmong]
  | cons name names ih =>
    -- what a name with the ending leads to is found out before the other names are looked at
    have hrest (there : Bool) : (∃ found, (do
        let rest ← disk.filesAmong p ending names
        return if there then name :: rest else rest) = .ok found) ↔
          ∃ found, disk.filesAmong p ending names = .ok found := by
      cases disk.filesAmong p ending names <;> simp [bind, Except.bind, pure, Except.pure]
    rw [List.forall_mem_cons, ← ih, filesAmong]
    by_cases hsuffix : ending <:+ name
    · have hanswer : (∃ answer, disk.isFile (p.child name) = .ok answer) ↔ _ := exists_leadsTo_iff
      rw [if_pos (List.isSuffixOf_iff_suffix.2 hsuffix), ← hanswer]
      cases hfile : disk.isFile (p.child name) with
      | error fault => simp [hsuffix, bind, Except.bind]
      | ok there =>
        rw [← hrest there]
        simp [hsuffix, bind, Except.bind]
    · rw [if_neg (mt List.isSuffixOf_iff_suffix.1 hsuffix), ← hrest false]
      simp [hsuffix, bind, Except.bind]

/-- **When files are listed**, and which. -/
theorem listFiles_eq_ok_iff : disk.listFiles p ending = .ok found ↔
    disk.Listable p ending ∧ found = disk.filesNamed p ending := by
  have hwithin : (∃ answer, disk.isDirectory p = .ok answer) ↔ _ := exists_isDirectory_iff
  rw [listFiles]
  cases hdirectory : disk.isDirectory p with
  | error fault =>
    have hnot : ¬ disk.Listable p ending := by
      intro hlistable
      obtain ⟨answer, hanswer⟩ := hwithin.2 hlistable.within
      simp [hdirectory] at hanswer
    simp [hnot, bind, Except.bind]
  | ok there =>
    have hwithin := hwithin.1 ⟨there, hdirectory⟩
    cases there with
    | false =>
      have hnot (names : List Text) : disk.list p ≠ .ok names := by
        intro hlist
        simp [isDirectory_of_list hlist] at hdirectory
      have hlistable : disk.Listable p ending :=
        ⟨hwithin, by simp [hdirectory], fun names hlist => absurd hlist (hnot names)⟩
      have hnone : disk.filesNamed p ending = [] := by
        rw [filesNamed]
        split
        · next names hlist => exact absurd hlist (hnot names)
        · rfl
      simp [hlistable, hnone, bind, Except.bind, pure, Except.pure, eq_comm]
    | true =>
      cases hlist : disk.list p with
      | error fault =>
        have hnot : ¬ disk.Listable p ending := by
          intro hlistable
          obtain ⟨names, hnames⟩ := hlistable.stays hdirectory
          simp [hlist] at hnames
        simp [hnot, bind, Except.bind]
      | ok names =>
        have hshort : disk.Listable p ending ↔ ∀ name ∈ names, ending <:+ name →
            disk.find (p.child name) ≠ .error (.system .nameTooLong (p.child name) none) := by
          constructor
          · exact fun hlistable => hlistable.short names hlist
          · intro hshort
            refine ⟨hwithin, fun _ => ⟨names, hlist⟩, fun names' hnames' => ?_⟩
            obtain rfl := Except.ok.inj (hlist.symm.trans hnames')
            exact hshort
        rw [hshort, filesNamed, hlist]
        exact filesAmong_eq_ok_iff

/-- The files of a directory have distinct names. -/
lemma nodup_filesNamed : (disk.filesNamed p ending).Nodup := by
  rw [filesNamed]
  cases hlist : disk.list p with
  | error fault => exact List.nodup_nil
  | ok names =>
    obtain ⟨l, -, -, -, rfl⟩ := list_eq_ok_iff.1 hlist
    exact (disk.nodup_children l).filter _

end Disk

end Storage

end OnePage
