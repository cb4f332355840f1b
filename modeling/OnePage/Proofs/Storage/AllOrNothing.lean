import OnePage.Proofs.Storage.Overlay

/-!
# Writing all or nothing

A write in one step puts a whole text in its place, or it leaves no trace but the directories that
were made for it.  This file says which of the two happens, on every disk and for every text.

**The temporary file.**  A free name is always found (`temporaryName_notMem`), since there is one
candidate more than there are names; and it is the name of an entry unless it is too long
(`validName_temporaryName`).

**The directories.**  Where a directory could not be made, there is none afterwards
(`not_isDirectory_of_ensureDirectory`).

* `prepared` — the disk after the attempt to make the directories that a path lies in.
* `Unwritable` — the reasons for which a text cannot be written there then.
* **`writeAtomically_ok_iff`** — there are no others.
* **`writeAtomically_allOrNothing`** puts this together.
-/

namespace OnePage

namespace Storage

open Disk

variable {disk ready after : Disk} {p : Path} {text name : Text} {taken : List Text}
  {place : Location} {chain : Nat}

/-! ## The name of the temporary file -/

lemma isDigit_of_mem_filling {n : Nat} {c : CodePoint} (hc : c ∈ filling (n + 1)) :
    c.isDigit = true := by
  rcases List.mem_append.1 hc with hzero | hdigit
  · rw [List.eq_of_mem_replicate hzero]
    decide
  · exact Numeral.isDigit_of_mem_ofNat hdigit

/-- No filling comes twice. -/
lemma filling_injective : Function.Injective filling := by
  have hfirst (n : Nat) : filling 0 ≠ filling (n + 1) := by
    intro heq
    have hmem : CodePoint.ofChar 'X' ∈ filling (n + 1) := heq ▸ by simp [filling]
    exact absurd (isDigit_of_mem_filling hmem) (by decide)
  intro m n heq
  cases m with
  | zero =>
    cases n with
    | zero => rfl
    | succ n => exact absurd heq (hfirst n)
  | succ m =>
    cases n with
    | zero => exact absurd heq.symm (hfirst m)
    | succ n =>
      have hvalue := congrArg Numeral.value heq
      simpa only [filling, Numeral.value_zeros_append, Numeral.value_ofNat] using hvalue

/-- Names with different fillings are those of different entries. -/
lemma entryName_temporaryNameWith_injective (name : Text) :
    Function.Injective fun n => entryName (temporaryNameWith name (filling n)) := by
  intro m n heq
  have hbytes := congrArg Name.encode heq
  simp only [encode_entryName, temporaryNameWith, Name.encode_append, List.append_assoc,
    List.append_cancel_left_eq, List.append_cancel_right_eq] at hbytes
  -- fillings are shown as they stand, so they have different bytes
  have hself (n : Nat) : entryName (filling n) = filling n := by
    refine entryName_eq_self fun c hc => ?_
    cases n with
    | zero =>
      rw [List.eq_of_mem_replicate hc]
      decide
    | succ n =>
      have hdigit := isDigit_of_mem_filling hc
      simp only [CodePoint.isDigit, Bool.and_eq_true, decide_eq_true_eq] at hdigit
      exact CodePoint.isSurrogate_eq_false_of_lt (by omega)
  refine filling_injective ?_
  rw [← hself m, ← hself n, entryName, entryName, hbytes]

/-- **A free name is found**, whatever names are taken. -/
lemma temporaryName_notMem (taken : List Text) (name : Text) :
    entryName (temporaryName taken name) ∉ taken := by
  rw [temporaryName]
  cases hfound : ((List.range (taken.length + 1)).map fun n =>
      temporaryNameWith name (filling n)).find? fun candidate => entryName candidate ∉ taken with
  | none =>
    -- there would be more names than there are
    have hsubset : ((List.range (taken.length + 1)).map fun n =>
        entryName (temporaryNameWith name (filling n))) ⊆ taken := by
      intro candidate hcandidate
      obtain ⟨n, hn, rfl⟩ := List.mem_map.1 hcandidate
      simpa using List.find?_eq_none.1 hfound _ (List.mem_map_of_mem hn)
    have hlength := (List.subperm_of_subset
      (List.nodup_range.map (entryName_temporaryNameWith_injective name)) hsubset).length_le
    simp only [List.length_map, List.length_range] at hlength
    omega
  | some candidate => simpa using List.find?_some hfound

/-- The name of a temporary file is the first candidate that is free. -/
lemma exists_temporaryName (taken : List Text) (name : Text) :
    ∃ n, n ≤ taken.length ∧ temporaryName taken name = temporaryNameWith name (filling n) ∧
      ∀ m, m < n → entryName (temporaryNameWith name (filling m)) ∈ taken := by
  have hfree := temporaryName_notMem taken name
  rw [temporaryName, List.find?_map] at hfree ⊢
  cases hfound : (List.range (taken.length + 1)).find?
      ((fun candidate => decide (entryName candidate ∉ taken)) ∘
        fun n => temporaryNameWith name (filling n)) with
  | none =>
    rw [hfound] at hfree
    have hfirst := List.find?_eq_none.1 hfound 0 (by simp)
    exact absurd hfree (by simpa using hfirst)
  | some n =>
    obtain ⟨-, hn, hbefore⟩ := List.find?_range_eq_some.1 hfound
    exact ⟨n, Nat.lt_succ_iff.1 (List.mem_range.1 hn), rfl, by simpa using hbefore⟩

/-- A temporary file has a longer name than the file it is made for. -/
lemma length_lt_temporaryName (taken : List Text) (name : Text) :
    name.length + 5 < (temporaryName taken name).length := by
  obtain ⟨n, -, hname, -⟩ := exists_temporaryName taken name
  have hdot : List.length (α := CodePoint) "." = 1 := rfl
  have hend : List.length (α := CodePoint) ".tmp" = 4 := rfl
  rw [hname, temporaryNameWith]
  simp only [List.length_append, hdot, hend]
  omega

lemma byteLength_le_temporaryName (taken : List Text) (name : Text) :
    byteLength name ≤ byteLength (temporaryName taken name) := by
  obtain ⟨n, -, hname, -⟩ := exists_temporaryName taken name
  rw [hname, temporaryNameWith]
  simp only [byteLength_append]
  omega

lemma slash_notMem_temporaryName (taken : List Text) (hslash : slash ∉ name) :
    slash ∉ temporaryName taken name := by
  obtain ⟨n, -, hname, -⟩ := exists_temporaryName taken name
  have hfilling : slash ∉ filling n := by
    cases n with
    | zero => decide
    | succ n => exact fun hmem => absurd (isDigit_of_mem_filling hmem) (by decide)
  have hdot : slash ∉ ("." : Text) := by decide
  have hend : slash ∉ (".tmp" : Text) := by decide
  rw [hname, temporaryNameWith]
  simp only [List.mem_append, hdot, hslash, hfilling, hend, or_self, not_false_eq_true]

/-- **The name of a temporary file is that of an entry** if nothing is wrong with its length or its
code points. -/
lemma validName_temporaryName (hplain : (temporaryName taken name).IsPlain) (hslash : slash ∉ name)
    (hshort : byteLength (temporaryName taken name) ≤ nameLimit) :
    validName (entryName (temporaryName taken name)) := by
  have hlength := length_lt_temporaryName taken name
  have hne (other : Text) (hother : other.length ≤ 2) : temporaryName taken name ≠ other := by
    rintro rfl
    omega
  have hnul : CodePoint.ofNat 0 ∉ temporaryName taken name := fun hmem => (hplain _ hmem).1 rfl
  exact validName_entryName (hne [] (by decide)) (hne dot (by decide)) (hne dotDot (by decide))
    (slash_notMem_temporaryName taken hslash) hnul hshort

/-! ## Making the temporary file -/

/-- **A temporary file can be made** for the file that a path names. -/
structure Temporary (disk : Disk) (p : Path) (l : Location) (name : Text) : Prop where
  /-- The absolute path of the directory that the file lies in leads to where it is made. -/
  leads : disk.locate (p.parent.absolute disk.here) = .ok l
  /-- There is a directory. -/
  directory : disk.HasDirectory l
  /-- Its name is the one that is chosen there. -/
  chosen : name = temporaryName (disk.children l) p.name
  /-- It stands for the name of an entry. -/
  valid : validName (entryName name)
  /-- The path can be followed. -/
  fault : ((p.parent.absolute disk.here).child name).fault? = none

namespace Temporary

variable {l : Location}

/-- There is nothing in its place yet. -/
lemma free (h : Temporary disk p l name) : disk.node? (entryName name :: l) = none := by
  have hfree := temporaryName_notMem (disk.children l) p.name
  rw [← h.chosen] at hfree
  exact content?_eq_none_iff.1 (not_not.1 (mt mem_children_iff.2 hfree))

lemma createNew_eq (h : Temporary disk p l name) : createNew (temporaryPath disk p) disk =
    .ok (entryName name :: l) (disk.putFile (entryName name :: l) [] disk.nextStamp) := by
  have hpath : temporaryPath disk p = (p.parent.absolute disk.here).child name := by
    rw [temporaryPath, namesIn, h.leads, h.chosen]
  rw [hpath, createNew, entryPlace_part h.leads h.directory h.fault h.valid]
  simp only [h.free]

end Temporary

/-- Whoever has made a temporary file could make it. -/
lemma exists_temporary {location : Location} {made : Disk} (hslash : slash ∉ p.name)
    (h : createNew (temporaryPath disk p) disk = .ok location made) :
    ∃ l name, Temporary disk p l name := by
  rcases createNew_cases (temporaryPath disk p) disk with ⟨fault, hresult⟩ | ⟨_, hplace, -, -⟩
  · simp [hresult] at h
  · obtain ⟨name, l, -, hentry⟩ := entryPlace_eq_some hplace
    have hparts := hentry.parts
    have hfault := hentry.fault
    obtain ⟨m, hleads⟩ := hentry.leads
    simp only [temporaryPath, Path.child, List.dropLast_concat] at hparts hleads hfault
    have hbefore : (p.parent.absolute disk.here).fault? = none :=
      Path.fault?_of_prefix (List.prefix_append _ _) hfault
    have hlocate : disk.locate (p.parent.absolute disk.here) = .ok l :=
      locate_eq_ok_iff.2 ⟨hbefore, m, hleads⟩
    obtain rfl : temporaryName (disk.children l) p.name = name := by
      rw [namesIn, hlocate] at hparts
      exact (List.cons.inj (List.append_cancel_left hparts)).1
    rw [namesIn, hlocate] at hfault
    refine ⟨l, _, hlocate, hentry.directory, rfl, validName_temporaryName ?_ hslash
      (Nat.le_of_not_lt hentry.short), hfault⟩
    exact (Path.fault?_eq_none_iff.1 hfault).1 _ (by simp)

/-! ## Directories that could not be made -/

lemma not_isDirectory_of_makeUnlessThere {fault : Fault}
    (h : makeUnlessThere p disk = .error fault after) : after.isDirectory p ≠ .ok true := by
  intro hthere
  obtain rfl := disk_of_makeUnlessThere_error h
  simp [makeUnlessThere_of_isDirectory hthere] at h

lemma not_isDirectory_of_ensureParts {anchor : Anchor} {room : Nat} {inner : List Text}
    {fault : Fault} (h : ensureParts anchor (room + 1) inner disk = .error fault after) :
    after.isDirectory ⟨anchor, inner.reverse⟩ ≠ .ok true := by
  induction inner generalizing room disk fault with
  | nil => exact not_isDirectory_of_makeUnlessThere h
  | cons name outer ih =>
    have hchild : (⟨anchor, (name :: outer).reverse⟩ : Path) =
        (⟨anchor, outer.reverse⟩ : Path).child name := by simp [Path.child]
    rw [ensureParts] at h
    dsimp only at h
    split at h
    · next q target between hfirst =>
      split at h
      · exact not_isDirectory_of_makeUnlessThere h
      · next houter =>
        obtain ⟨-, rfl⟩ := EStateM.Result.error.inj h
        cases room with
        | zero =>
          -- then nothing has been tried since
          obtain ⟨-, rfl⟩ := EStateM.Result.error.inj houter
          exact not_isDirectory_of_makeUnlessThere hfirst
        | succ room =>
          rw [hchild]
          exact mt isDirectory_of_child (ih houter)
    · exact not_isDirectory_of_makeUnlessThere h

/-- **Where a directory could not be made** there is none afterwards. -/
lemma not_isDirectory_of_ensureDirectory {fault : Fault}
    (h : ensureDirectory chain p disk = .error fault after) : after.isDirectory p ≠ .ok true := by
  have hparts := @not_isDirectory_of_ensureParts _ _ _ chain _ _ h
  rwa [List.reverse_reverse] at hparts

/-! ## Writing into a directory that is there -/

section There

variable (hplace : disk.locate p.parent = .ok place) (hdirectory : disk.HasDirectory place)

include hplace hdirectory

/-- **A write in one step succeeds** if a temporary file can be made and there is no directory in
the place of the file. -/
lemma writeAtomically_of_temporary {l : Location} {content : Bytes} (h : Temporary disk p l name)
    (hfault : p.fault? = none) (hvalid : validName (entryName p.name))
    (hencode : Utf8.encode text = .ok content)
    (hfree : ¬ disk.HasDirectory (entryName p.name :: place)) :
    ∃ after, writeAtomically chain p text disk = .ok () after := by
  have hmade := (Adds.refl h.free).putFile [] disk.nextStamp
  rw [writeAtomically_eq (isDirectory_eq_true_iff.2 ⟨place, hplace, hdirectory⟩), h.createNew_eq]
  simp only [fillAndMove, hencode]
  generalize disk.putFile (entryName name :: l) [] disk.nextStamp = made at hmade ⊢
  have hfilled := hmade.putFile content made.nextStamp
  have hthere : (made.putFile (entryName name :: l) content made.nextStamp).node?
      (entryName name :: l) = some (.file content made.nextStamp) :=
    face?_eq_file.1 (face?_put h.valid (hmade.grows.directory l h.directory))
  generalize made.putFile (entryName name :: l) content made.nextStamp = filled at hfilled hthere ⊢
  -- the temporary file has put no directory in the place of the other
  have hnot : ¬ filled.HasDirectory (entryName p.name :: place) := by
    intro hdirectory
    by_cases hsuffix : entryName name :: l <:+ entryName p.name :: place
    · obtain ⟨inner, hinner⟩ := hsuffix
      rw [← hinner] at hdirectory
      by_cases hnone : inner = []
      · exact hfilled.notDirectory (by simpa [hnone] using hdirectory)
      · exact hdirectory.node?_ne_none (node?_append_eq_none hnone hfilled.notDirectory)
    · by_cases hl : entryName p.name :: place = l
      · exact hfree (hl ▸ h.directory)
      · rw [HasDirectory, hfilled.same _ hsuffix hl] at hdirectory
        exact hfree hdirectory
  -- so the one takes the place of the other
  have hlast := Path.child_parent_of_validName hvalid
  have hentry : filled.entryPlace p = .ok (some (entryName p.name :: place)) := by
    have hchild := entryPlace_part (locate_grows hplace hfilled.grows)
      (hfilled.grows.directory place hdirectory) (hlast.symm ▸ hfault) hvalid
    rwa [hlast] at hchild
  rw [hasDirectory_iff] at hnot
  simp only [moveOnto, hentry, hthere]
  cases hnode : filled.node? (entryName p.name :: place) with
  | none => exact ⟨_, rfl⟩
  | some node =>
    cases node with
    | directory entries => exact absurd ⟨entries, hnode⟩ hnot
    | file bytes stamp => exact ⟨_, rfl⟩
    | link target => exact ⟨_, rfl⟩

/-- What a write in one step that has succeeded has gone through. -/
lemma writeAtomically_steps (h : writeAtomically chain p text disk = .ok () after) :
    ∃ location made content, createNew (temporaryPath disk p) disk = .ok location made ∧
      Utf8.encode text = .ok content ∧ moveOnto location (temporaryPath disk p) p
        (made.putFile location content made.nextStamp) = .ok () after := by
  rw [writeAtomically_eq (isDirectory_eq_true_iff.2 ⟨place, hplace, hdirectory⟩)] at h
  cases hcreate : createNew (temporaryPath disk p) disk with
  | error fault made => simp [hcreate] at h
  | ok location made =>
    cases hencode : Utf8.encode text with
    | error fault => simp [hcreate, fillAndMove, hencode] at h
    | ok content =>
      simp only [hcreate, fillAndMove, hencode] at h
      split at h
      · next hmove =>
        obtain ⟨-, rfl⟩ := EStateM.Result.ok.inj h
        exact ⟨location, made, content, rfl, rfl, hmove⟩
      · simp at h

end There

/-- The disk after the attempt to make the directories that a path lies in. -/
def prepared (chain : Nat) (p : Path) (disk : Disk) : Disk :=
  match ensureDirectory chain p.parent disk with
  | .ok _ ready => ready
  | .error _ ready => ready

/-- **Unwritable.**  Why a text cannot be written to a path in one step, after the directories that
the path lies in have been made. -/
inductive Unwritable (ready : Disk) (p : Path) (text : Text) : Prop where
  /-- The path lies in no directory. -/
  | parent (h : ready.isDirectory p.parent ≠ .ok true)
  /-- The text holds a surrogate. -/
  | text (h : ∃ c ∈ text, c.isSurrogate = true)
  /-- There is a directory in the place of the file. -/
  | directory (place : Location) (hplace : ready.locate p.parent = .ok place)
      (h : ready.HasDirectory (entryName p.name :: place))
  /-- The path ends with no name. -/
  | unnamed (h : p.name = [] ∨ p.name = dotDot)
  /-- The name holds a NUL, or a surrogate that is no escape. -/
  | unplain (h : ¬ p.name.IsPlain)
  /-- The name of the temporary file is too long. -/
  | longName (h : nameLimit <
      byteLength (temporaryName (namesIn ready (p.parent.absolute ready.here)) p.name))
  /-- The path is too long. -/
  | longPath (h : pathLimit < byteLength p.text)
  /-- The path of the temporary file is too long. -/
  | longTemporaryPath (h : pathLimit < byteLength (temporaryPath ready p).text)
  /-- The absolute path of the directory leads to no directory. -/
  | astray (h : ready.isDirectory (p.parent.absolute ready.here) ≠ .ok true)

/-- A file that has taken its place has the name of an entry. -/
lemma validName_of_moveOnto {location : Location} {source : Path} (hclean : p.IsClean)
    (htidy : p.IsTidy) (h : moveOnto location source p disk = .ok () after) :
    p.name ∈ p.parts ∧ validName (entryName p.name) := by
  rcases moveOnto_cases location source p disk with ⟨fault, hresult⟩ | ⟨_, _, _, hplace, -⟩
  · simp [hresult] at h
  · obtain ⟨name, parent, -, hentry⟩ := entryPlace_eq_some hplace
    obtain rfl : p.name = name := by
      rw [Path.name, hentry.parts, List.getLast?_concat]
      rfl
    have hmem : p.name ∈ p.parts := by
      rw [hentry.parts]
      simp
    obtain ⟨hempty, hdot⟩ := htidy _ hmem
    exact ⟨hmem, Path.validName_of_mem hclean hentry.fault hmem
      ⟨hentry.notUp, not_or.2 ⟨hdot, hempty⟩⟩ hentry.short⟩

section Writable

variable (hclean : p.IsClean) (htidy : p.IsTidy) (hparent : disk.isDirectory p.parent = .ok true)

include hclean

/-- Unless a path is unwritable, a temporary file can be made for it. -/
lemma temporary_of_not_unwritable (hwritable : ¬ Unwritable disk p text) :
    ∃ l, Temporary disk p l (temporaryName (disk.children l) p.name) := by
  have habsolute : disk.isDirectory (p.parent.absolute disk.here) = .ok true :=
    not_not.1 (hwritable ∘ .astray)
  have hmem : p.name ∈ p.parts := Path.name_mem_parts (hwritable ∘ .unnamed ∘ .inl)
  have hplain : p.name.IsPlain := not_not.1 (hwritable ∘ .unplain)
  obtain ⟨l, hl, hthere⟩ := isDirectory_eq_true_iff.1 habsolute
  have hnames : namesIn disk (p.parent.absolute disk.here) = disk.children l := by
    rw [namesIn, hl]
  have hlong := Nat.not_lt.1 (hwritable ∘ .longName)
  have hlongPath := Nat.not_lt.1 (hwritable ∘ .longTemporaryPath)
  rw [hnames] at hlong
  rw [temporaryPath, hnames] at hlongPath
  have htemporary : (temporaryName (disk.children l) p.name).IsPlain :=
    isPlain_temporaryName hplain
  have hvalid := validName_temporaryName htemporary (hclean _ hmem) hlong
  refine ⟨l, hl, hthere, rfl, hvalid, Path.fault?_eq_none_iff.2 ⟨fun part hpart => ?_, hlongPath⟩⟩
  rcases List.mem_append.1 hpart with hpart | hpart
  · exact isPlain_of_isDirectory habsolute part hpart
  · exact List.mem_singleton.1 hpart ▸ htemporary

include htidy hparent

/-- The path can be followed then, and its name is one that an entry may have. -/
lemma validName_of_not_unwritable (hwritable : ¬ Unwritable disk p text) :
    p.fault? = none ∧ validName (entryName p.name) := by
  have hnamed : p.name ≠ [] ∧ p.name ≠ dotDot := not_or.1 (hwritable ∘ .unnamed)
  have hmem : p.name ∈ p.parts := Path.name_mem_parts hnamed.1
  have hfault : p.fault? = none := by
    refine Path.fault?_eq_none_iff.2 ⟨fun part hpart => ?_, Nat.not_lt.1 (hwritable ∘ .longPath)⟩
    rw [← Path.child_parent_name hnamed.1] at hpart
    rcases List.mem_append.1 hpart with hpart | hpart
    · exact isPlain_of_isDirectory hparent part hpart
    · exact List.mem_singleton.1 hpart ▸ not_not.1 (hwritable ∘ .unplain)
  refine ⟨hfault, Path.validName_of_mem hclean hfault hmem ⟨hnamed.2, ?_⟩ (Nat.not_lt.2 ?_)⟩
  · exact not_or.2 ⟨(htidy _ hmem).2, hnamed.1⟩
  · exact (byteLength_le_temporaryName _ _).trans (Nat.not_lt.1 (hwritable ∘ .longName))

/-- What has been written was not unwritable. -/
lemma not_unwritable_of_writeAtomically
    (hwrite : writeAtomically chain p text disk = .ok () after) : ¬ Unwritable disk p text := by
  obtain ⟨place, hplace, hdirectory⟩ := isDirectory_eq_true_iff.1 hparent
  obtain ⟨location, made, content, hcreate, hencode, hmove⟩ :=
    writeAtomically_steps hplace hdirectory hwrite
  have hwritten := written_of_writeAtomically hplace hdirectory hwrite
  obtain ⟨hmem, hvalid⟩ := validName_of_moveOnto hclean htidy hmove
  obtain ⟨hup, hhere⟩ := isProper_of_validName_entryName hvalid
  obtain ⟨l, name, htemporary⟩ := exists_temporary (hclean _ hmem) hcreate
  have hnames : namesIn disk (p.parent.absolute disk.here) = disk.children l := by
    rw [namesIn, htemporary.leads]
  intro hunwritable
  cases hunwritable with
  | parent hno => exact hno hparent
  | text hsurrogate =>
    obtain ⟨c, hc, hsurrogate⟩ := hsurrogate
    simp [(Utf8.encode_eq_ok_iff.1 hencode).1 c hc] at hsurrogate
  | directory other hother hthere =>
    obtain rfl := Except.ok.inj (hplace.symm.trans hother)
    exact hwritten.free hthere
  | unnamed hno => exact hno.elim (fun hempty => hhere (.inr hempty)) hup
  | unplain hno =>
    exact hno ((Path.fault?_eq_none_iff.1 hwritten.fault).1 _ hmem)
  | longName hlong =>
    rw [hnames, ← htemporary.chosen] at hlong
    exact Nat.not_le.2 hlong (by simpa using byteLength_le_of_validName htemporary.valid)
  | longPath hlong => exact Nat.not_le.2 hlong (Path.fault?_eq_none_iff.1 hwritten.fault).2
  | longTemporaryPath hlong =>
    rw [temporaryPath, hnames, ← htemporary.chosen] at hlong
    exact Nat.not_le.2 hlong (Path.fault?_eq_none_iff.1 htemporary.fault).2
  | astray hno => exact hno (isDirectory_eq_true_iff.2 ⟨l, htemporary.leads, htemporary.directory⟩)

/-- **A text can be written in one step** into a directory that is there exactly if it is not
unwritable. -/
lemma writeAtomically_ok_iff :
    (∃ after, writeAtomically chain p text disk = .ok () after) ↔ ¬ Unwritable disk p text := by
  constructor
  · rintro ⟨after, hwrite⟩
    exact not_unwritable_of_writeAtomically hclean htidy hparent hwrite
  · intro hwritable
    obtain ⟨place, hplace, hdirectory⟩ := isDirectory_eq_true_iff.1 hparent
    obtain ⟨l, htemporary⟩ := temporary_of_not_unwritable hclean hwritable
    obtain ⟨hfault, hvalid⟩ := validName_of_not_unwritable hclean htidy hparent hwritable
    have hplain : ∀ c ∈ text, c.isSurrogate = false := fun c hc =>
      Bool.eq_false_of_not_eq_true fun hsurrogate => hwritable (.text ⟨c, hc, hsurrogate⟩)
    exact writeAtomically_of_temporary hplace hdirectory htemporary hfault hvalid
      (Utf8.encode_eq_ok_iff.2 ⟨hplain, rfl⟩) (hwritable ∘ .directory place hplace)

end Writable

/-! ## All or nothing -/

/-- Once the directories have been made, a write in one step goes on as if they had been there. -/
lemma writeAtomically_of_ensureDirectory (hclean : p.parent.IsClean)
    (h : ensureDirectory chain p.parent disk = .ok () ready) :
    writeAtomically chain p text disk = writeAtomically chain p text ready := by
  have hready : ensureDirectory chain p.parent ready = .ok () ready :=
    ensureDirectory_of_isDirectory (isDirectory_of_ensureDirectory hclean h)
  simp only [writeAtomically, bind, EStateM.bind, h, hready]

/-- A write changes what one location holds, and nothing else. -/
lemma Written.content?_eq (h : Written p place text disk after)
    (hdirectory : disk.HasDirectory place) (hvalid : validName (entryName p.name)) :
    ∃ content, Utf8.encode text = .ok content ∧ ∀ l, after.content? l =
      if l = entryName p.name :: place then some (.file content) else disk.content? l := by
  obtain ⟨content, between, stamp, hencode, -, -, hsame, rfl⟩ := h.put
  have hbetween : SameContents disk between := .of_face? hsame
  refine ⟨content, hencode, fun l => ?_⟩
  rw [putFile, content?_put hvalid ((hbetween.hasDirectory_iff place).2 hdirectory)
    (mt (hbetween.hasDirectory_iff _).1 h.free) fun _ => rfl, hbetween l]
  rfl

/-- **Placed.**  A file with these contents has taken the place of what was at a location, and
everywhere else the disk holds what it held. -/
structure Placed (target : Location) (content : Bytes) (ready after : Disk) : Prop where
  /-- The working directory is the same. -/
  here : after.here = ready.here
  /-- The same directories are fleeting. -/
  fleeting : after.fleeting = ready.fleeting
  /-- The file is there. -/
  file : ∃ stamp, after.face? target = some (.file content stamp)
  /-- Everywhere else the disk holds what it held. -/
  held : ∀ l, l ≠ target → after.content? l = ready.content? l
  /-- Nothing shows it but the directory that the file lies in. -/
  same : ∀ l, l ≠ target → l ≠ target.tail → after.face? l = ready.face? l

/-- What a write in one step has written is placed. -/
lemma Written.placed (h : Written p place text ready after) (hdirectory : ready.HasDirectory place)
    (hvalid : validName (entryName p.name)) : ∃ content, Utf8.encode text = .ok content ∧
      Placed (entryName p.name :: place) content ready after := by
  obtain ⟨content, hencode, hcontent⟩ := h.content?_eq hdirectory hvalid
  refine ⟨content, hencode, ?_, ?_, ?_, fun l hl => by rw [hcontent, if_neg hl], fun l hl hne => ?_⟩
  all_goals obtain ⟨_, between, stamp, -, hhere, hfleeting, hsame, rfl⟩ := h.put
  · simpa [putFile] using hhere
  · simpa [putFile] using hfleeting
  · exact content?_eq_file_iff.1 (by rw [hcontent, if_pos rfl])
  · have hbetween (l : Location) : between.HasDirectory l ↔ ready.HasDirectory l := by
      rw [HasDirectory, HasDirectory, hsame]
    rw [putFile, face?_put_of_ne hvalid ((hbetween place).2 hdirectory) (mt (hbetween _).1 h.free)
      (fun _ => rfl) hl hne, hsame]

/-- The file can be read at its path, unless it has taken the place of a link on the way there. -/
lemma Written.read_eq {content : Bytes} (h : Written p place text ready after)
    (hplace : ready.locate p.parent = .ok place) (hdirectory : ready.HasDirectory place)
    (hvalid : validName (entryName p.name))
    (hplaced : Placed (entryName p.name :: place) content ready after)
    (hbypasses : ready.Bypasses p.parent (entryName p.name :: place)) :
    after.read p = .ok content := by
  have hgrows := h.grows_remove hdirectory hvalid
  have hway := locate_grows (hbypasses.locate_remove hplace hdirectory h.free) hgrows
  obtain ⟨stamp, hfile⟩ := hplaced.file
  have hthere : after.HasDirectory place := by
    refine content?_eq_directory_iff.1 ?_
    rw [hplaced.held place (by simp), content?_eq_directory_iff.2 hdirectory]
  have hlast := Path.child_parent_of_validName hvalid
  have hlocate := locate_part hway hthere (fun ⟨target, hlink⟩ => by simp [hfile] at hlink)
    (hlast.symm ▸ h.fault) hvalid
  rw [hlast] at hlocate
  exact read_eq_ok_iff.2 ⟨_, stamp, hlocate, hfile⟩

/-- **A write in one step writes all or nothing.**  The directories that the path lies in are made
first, as far as they can be.  A write that fails was impossible after that, for one of the reasons
listed, and everything shows as it did then.  One that succeeds was not impossible.  The whole text,
encoded, is then in the place of the file, where a link may have been, and nothing else has changed.
It can be read at the path, unless the path needs that link. -/
theorem writeAtomically_allOrNothing (chain : Nat) (hclean : p.IsClean) (htidy : p.IsTidy)
    (text : Text) (disk : Disk) :
    OnlyMade p.parent disk (prepared chain p disk) ∧
    match writeAtomically chain p text disk with
    | .error _ after =>
      Unwritable (prepared chain p disk) p text ∧ OnlyMade p.parent disk after ∧
        ∀ l, after.face? l = (prepared chain p disk).face? l
    | .ok _ after =>
      ¬ Unwritable (prepared chain p disk) p text ∧
        ∃ place content, (prepared chain p disk).locate p.parent = .ok place ∧
          Utf8.encode text = .ok content ∧
          Placed (entryName p.name :: place) content (prepared chain p disk) after ∧
          ((prepared chain p disk).Bypasses p.parent (entryName p.name :: place) →
            after.read p = .ok content) := by
  have hparentClean : p.parent.IsClean := fun part hpart =>
    hclean part (List.mem_of_mem_dropLast hpart)
  cases hensure : ensureDirectory chain p.parent disk with
  | error fault ready =>
    have hwrite : writeAtomically chain p text disk = .error fault ready := by
      simp only [writeAtomically, bind, EStateM.bind, hensure]
    have honly := ensures_ensureDirectory_onlyMade.of_error (.refl p.parent disk) hensure
    simp only [prepared, hensure, hwrite]
    exact ⟨honly, .parent (not_isDirectory_of_ensureDirectory hensure), honly, fun _ => trivial⟩
  | ok u ready =>
    have hparent := isDirectory_of_ensureDirectory hparentClean hensure
    have hiff := @writeAtomically_ok_iff _ _ text chain hclean htidy hparent
    obtain ⟨place, hplace, hdirectory⟩ := isDirectory_eq_true_iff.1 hparent
    have hresult := writeAtomically_result chain text hplace hdirectory
    have honly := onlyMade_of_ensureDirectory hensure
    simp only [prepared, hensure, writeAtomically_of_ensureDirectory hparentClean hensure]
    refine ⟨honly, ?_⟩
    cases hwrite : writeAtomically chain p text ready with
    | error fault after =>
      rw [hwrite] at hresult
      obtain ⟨hhere, hfleeting, hsame⟩ := hresult
      have hunwritable : Unwritable ready p text := by
        by_contra hnot
        obtain ⟨other, hother⟩ := hiff.2 hnot
        simp [hwrite] at hother
      exact ⟨hunwritable, honly.of_face? hhere hfleeting hsame, hsame⟩
    | ok u after =>
      rw [hwrite] at hresult
      obtain ⟨_, _, _, -, -, hmove⟩ := writeAtomically_steps hplace hdirectory hwrite
      obtain ⟨-, hvalid⟩ := validName_of_moveOnto hclean htidy hmove
      obtain ⟨content, hencode, hplaced⟩ := hresult.placed hdirectory hvalid
      exact ⟨hiff.1 ⟨after, hwrite⟩, place, content, hplace, hencode, hplaced,
        hresult.read_eq hplace hdirectory hvalid hplaced⟩

/-- A disk with a file and a link to it. -/
def aliasDisk : Disk := (Disk.empty.putFile ["other"] [111] (.fresh 0)).putLink ["page"] "other"

/-- The link is replaced itself, and what it led to stays.  With a surrogate in the text nothing
happens. -/
theorem writeAtomically_allOrNothing_link :
    (Path.parse "page").IsClean ∧ (Path.parse "page").IsTidy ∧
    aliasDisk.face? ["page"] = some (.link "other") ∧
    (∃ after, writeAtomically usualChain (Path.parse "page") "new" aliasDisk = .ok () after ∧
      Placed ["page"] [110, 101, 119] aliasDisk after ∧
      after.content? ["other"] = some (.file [111])) ∧
    ∃ fault after,
      writeAtomically usualChain (Path.parse "page") [CodePoint.ofNat 0xD800] aliasDisk =
        .error fault after ∧
      ∀ l, after.face? l = aliasDisk.face? l := by
  have hclean := Path.isClean_parse "page"
  have htidy := Path.isTidy_parse "page"
  have hparent : aliasDisk.isDirectory (Path.parse "page").parent = .ok true := by decide +kernel
  have hplace : aliasDisk.locate (Path.parse "page").parent = .ok [] := by decide +kernel
  have hready : prepared usualChain (Path.parse "page") aliasDisk = aliasDisk := by
    rw [prepared, ensureDirectory_of_isDirectory hparent]
  have hname : (Path.parse "page").name = "page" := by decide +kernel
  refine ⟨hclean, htidy, by decide +kernel, ?_, ?_⟩
  · obtain ⟨-, hresult⟩ := writeAtomically_allOrNothing usualChain hclean htidy "new" aliasDisk
    have hencode : Utf8.encode "new" = .ok [110, 101, 119] := by decide +kernel
    have hok : succeeds (writeAtomically usualChain (Path.parse "page") "new" aliasDisk)
        fun _ _ => true := by
      decide_cbv
    obtain ⟨u, after, hwrite, -⟩ := exists_of_succeeds hok
    rw [hwrite, hready] at hresult
    obtain ⟨-, place, content, hplace', hencode', hplaced, -⟩ := hresult
    obtain rfl := Except.ok.inj (hplace.symm.trans hplace')
    obtain rfl := Except.ok.inj (hencode.symm.trans hencode')
    rw [hname] at hplaced
    refine ⟨after, hwrite, hplaced, ?_⟩
    rw [hplaced.held _ (by decide)]
    decide +kernel
  · obtain ⟨-, hresult⟩ :=
      writeAtomically_allOrNothing usualChain hclean htidy [CodePoint.ofNat 0xD800] aliasDisk
    cases hwrite : writeAtomically usualChain (Path.parse "page") [CodePoint.ofNat 0xD800]
      aliasDisk with
    | error fault after =>
      rw [hwrite, hready] at hresult
      exact ⟨fault, after, rfl, hresult.2.2⟩
    | ok u after =>
      rw [hwrite] at hresult
      exact absurd (.text ⟨_, List.mem_singleton_self _, by decide⟩) hresult.1

/-- A disk with two directories beside each other and a link to one of them from above. -/
def crossDisk : Disk :=
  (((Disk.empty.putDirectory ["some"]).putDirectory ["dir", "some"]).putDirectory
    ["m", "some"]).putLink ["l"] "some/dir"

/-- A path into the other one, by way of the link. -/
def crossPath : Path := Path.parse "l/../m/index.html"

/-- A name of 254 bytes. -/
def wideName : Text := List.replicate 254 (CodePoint.ofChar 'x')

/-- A disk with 16 directories of that name, one inside the other. -/
def steepDisk : Disk :=
  (List.range 16).foldl (fun disk n => disk.putDirectory (List.replicate (n + 1) wideName))
    Disk.empty

/-- A path of 4090 bytes to a file in the innermost one. -/
def steepPath : Path := ⟨.here, List.replicate 16 wideName ++ [("index.html" : Text)]⟩

/-- A disk with a link to the directory that it lies in. -/
def selfDisk : Disk := Disk.empty.putLink ["a"] "."

/-- A text cannot be written to these paths, though they lie in directories that are there, nothing
is in their place, and neither their names nor that of the temporary file are too long.  The
directory in the place of the third is made on the way.  And what has been written by way of a link
in its own place cannot be read there. -/
theorem writeAtomically_surprises :
    (crossDisk.isDirectory crossPath.parent = .ok true ∧
      crossDisk.entryPlace crossPath = .ok (some ["index.html", "m", "some"]) ∧
      crossDisk.node? ["index.html", "m", "some"] = none ∧
      ∃ fault after, writeAtomically usualChain crossPath "x" crossDisk = .error fault after) ∧
    (steepDisk.isDirectory steepPath.parent = .ok true ∧
      steepDisk.entryPlace steepPath = .ok (some ("index.html" :: List.replicate 16 wideName)) ∧
      steepDisk.node? ("index.html" :: List.replicate 16 wideName) = none ∧
      ∃ fault after, writeAtomically usualChain steepPath "x" steepDisk = .error fault after) ∧
    (∀ part ∈ crossPath.parts ++ steepPath.parts ++ [temporaryNameWith "index.html" (filling 0)],
      part.IsPlain ∧ byteLength part ≤ nameLimit) ∧
    (Disk.empty.node? ["index.html"] = none ∧
      ∃ fault after,
        writeAtomically usualChain (Path.parse "index.html/../index.html") "x" Disk.empty =
          .error fault after ∧
        after.HasDirectory ["index.html"]) ∧
    ∃ after, writeAtomically usualChain (Path.parse "a/a") "x" selfDisk = .ok () after ∧
      after.read (Path.parse "a/a") ≠ .ok [120] := by
  have hfails {p : Path} {disk : Disk} (hclean : p.IsClean) (htidy : p.IsTidy)
      (hparent : disk.isDirectory p.parent = .ok true) (h : Unwritable disk p "x") :
      ∃ fault after, writeAtomically usualChain p "x" disk = .error fault after := by
    cases hwrite : writeAtomically usualChain p "x" disk with
    | error fault after => exact ⟨fault, after, rfl⟩
    | ok u after => exact absurd h ((writeAtomically_ok_iff hclean htidy hparent).1 ⟨after, hwrite⟩)
  have hcross : crossDisk.isDirectory crossPath.parent = .ok true := by decide +kernel
  have hsteep : steepDisk.isDirectory steepPath.parent = .ok true := by decide +kernel
  refine ⟨⟨hcross, by decide +kernel, by decide +kernel, ?_⟩,
    ⟨hsteep, by decide +kernel, by decide +kernel, ?_⟩, by decide +kernel, ⟨rfl, ?_⟩, ?_⟩
  · exact hfails (Path.isClean_parse _) (Path.isTidy_parse _) hcross (.astray (by decide +kernel))
  · refine hfails ?_ ?_ hsteep (.longTemporaryPath (by decide +kernel))
    · rw [Path.IsClean]
      decide +kernel
    · rw [Path.IsTidy]
      decide +kernel
  · have hmade : fails
        (writeAtomically usualChain (Path.parse "index.html/../index.html") "x" Disk.empty)
        fun _ after => after.content? ["index.html"] = some .directory := by decide_cbv
    obtain ⟨fault, after, hwrite, hdirectory⟩ := exists_of_fails hmade
    exact ⟨fault, after, hwrite, content?_eq_directory_iff.1 (of_decide_eq_true hdirectory)⟩
  · have hlost : succeeds (writeAtomically usualChain (Path.parse "a/a") "x" selfDisk)
        fun _ after => after.read (Path.parse "a/a") ≠ .ok [120] := by decide_cbv
    obtain ⟨u, after, hwrite, hread⟩ := exists_of_succeeds hlost
    exact ⟨after, hwrite, of_decide_eq_true hread⟩

end Storage

end OnePage
