import OnePage.Proofs.Storage.Keep
import OnePage.Storage.Edit

/-!
# What edits keep

Whatever an edit does is made of a few basic changes, so that a condition is kept by every edit if
it is kept by each of those.

* **`keeps_edit`** — the condition still holds after any number of edits.
* `Disk.edit_here` — relative paths start where they started.
-/

namespace OnePage

namespace Storage

section Keeping

variable {keeps : Disk → Prop}
  (hput : ∀ disk l node hnode, keeps disk → keeps (disk.put l node hnode))
  (hpin : ∀ disk l, keeps disk → keeps (disk.pin l)) {chain : Nat}

lemma ensures_modify {change : Disk → Disk} (h : ∀ disk, keeps disk → keeps (change disk)) :
    Ensures keeps (modify change : Operation Unit) fun _ => True :=
  fun disk hdisk => ⟨h disk hdisk, trivial⟩

include hput in
lemma ensures_ensureDirectory_put {p : Path} :
    Ensures keeps (ensureDirectory chain p) fun _ => True :=
  ensures_ensureDirectory fun _ _ => ensures_makeDirectory fun disk _ hdisk _ _ =>
    hput disk _ _ _ hdisk

include hpin

lemma ensures_pinAt {p : Path} : Ensures keeps (pinAt p) fun _ => True := by
  intro disk hdisk
  rw [pinAt]
  cases disk.locate p with
  | ok l => exact ⟨hpin disk l hdisk, trivial⟩
  | error fault => exact hdisk

lemma ensures_pinParents {anchor : Anchor} {done parts : List Text} :
    Ensures keeps (pinParents anchor done parts) fun _ => True := by
  induction parts generalizing done with
  | nil => exact ensures_pure trivial
  | cons part parts ih =>
    cases parts with
    | nil => exact ensures_pure trivial
    | cons next parts => exact ensures_bind (ensures_pinAt hpin) fun _ _ => ih

include hput

lemma ensures_prepareParents {p : Path} : Ensures keeps (prepareParents p) fun _ => True :=
  ensures_bind (ensures_ensureDirectory_put hput) fun _ _ => ensures_pinParents hpin

omit hput hpin in
lemma ensures_placeOf {p : Path} : Ensures keeps (placeOf p) fun _ => True := by
  intro disk hdisk
  rw [placeOf]
  cases disk.entryPlace p with
  | error fault => exact hdisk
  | ok place =>
    cases place with
    | none => exact hdisk
    | some l => exact ⟨hdisk, trivial⟩

variable (hremove : ∀ disk l, keeps disk → keeps (disk.remove l))
  (hlistable : ∀ disk can l, keeps disk → keeps (disk.setListable can l))

include hremove hlistable

/-- An edit keeps whatever the basic changes keep, also if the disk refuses it halfway. -/
lemma ensures_perform (edit : Edit) : Ensures keeps edit.perform fun _ => True := by
  rw [Edit.perform]
  cases edit.change with
  | file content stamp =>
    refine ensures_bind (ensures_prepareParents hput hpin) fun _ _ => ?_
    refine ensures_bind (ensures_write fun disk l hdisk _ _ => hput disk l _ _ hdisk) fun _ _ => ?_
    refine ensures_bind (ensures_query_any _) fun l _ => ?_
    exact ensures_modify fun disk hdisk => hpin _ l (hput disk l _ _ hdisk)
  | directory =>
    refine ensures_bind (ensures_prepareParents hput hpin) fun _ _ => ?_
    exact ensures_bind (ensures_ensureDirectory_put hput) fun _ _ => ensures_pinAt hpin
  | link target =>
    refine ensures_bind (ensures_prepareParents hput hpin) fun _ _ => ?_
    refine ensures_bind ensures_placeOf fun l _ => ?_
    exact ensures_modify fun disk hdisk => hpin _ l (hput disk l _ _ hdisk)
  | remove =>
    refine ensures_bind ensures_placeOf fun l _ => ?_
    exact ensures_modify fun disk hdisk => hremove disk l hdisk
  | listable can =>
    refine ensures_bind (ensures_query_any _) fun l _ => ?_
    exact ensures_modify fun disk hdisk => hlistable disk can l hdisk
  | stamp stamp =>
    refine ensures_bind (ensures_query_any _) fun l _ => ensures_modify fun disk hdisk => ?_
    split
    · exact hput disk l _ _ hdisk
    · exact hdisk

variable (keeps) in
/-- **Edits keep whatever the basic changes keep.** -/
lemma keeps_edit {disk : Disk} (h : keeps disk) (edits : List Edit) : keeps (disk.edit edits) := by
  induction edits generalizing disk with
  | nil => exact h
  | cons edit edits ih =>
    refine ih ?_
    have hresult := ensures_perform hput hpin hremove hlistable edit disk h
    simp only [Edit.apply]
    split at hresult
    · next a after hperform =>
      rw [hperform]
      exact hresult.1
    · next fault after hperform =>
      rw [hperform]
      exact hresult

end Keeping

/-- Relative paths start where they started. -/
lemma Disk.edit_here (disk : Disk) (edits : List Edit) : (disk.edit edits).here = disk.here := by
  refine keeps_edit (fun after => after.here = disk.here) ?_ ?_ ?_ ?_ rfl edits
  · exact fun _ _ _ _ h => (put_here _ _).trans h
  · rintro after (_ | ⟨name, parent⟩) h <;> exact h
  · exact fun _ _ h => remove_here.trans h
  · exact fun _ _ _ h => h

end Storage

end OnePage
