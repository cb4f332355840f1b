import OnePage.Proofs.Storage.Below
import OnePage.Storage.AtomicWrite

/-!
# What a write in one step leaves

The temporary file of a write in one step is gone afterwards, whether the write succeeds or fails.

* `writeAtomically_eq` — the steps of a write into a directory that is there, one after the other.
* **`writeAtomically_result`** — a write that fails leaves everything showing as it was.  One that
  succeeds has put the encoded text in its place, and nothing else has changed.
* `Written.grows_remove` — nothing is lost but what was there before, a link perhaps.
* `ensures_writeAtomically` — so a write to a name of a directory changes nothing outside the branch
  of that name.
-/

namespace OnePage

namespace Storage

open Disk

variable {p : Path} {text : Text} {disk : Disk} {place : Location} {chain : Nat}

/-- The path of the temporary file. -/
def temporaryPath (disk : Disk) (p : Path) : Path :=
  let directory := p.parent.absolute disk.here
  directory.child (temporaryName (namesIn disk directory) p.name)

/-- The steps after the temporary file has been made. -/
def fillAndMove (location : Location) (p temporary : Path) (text : Text) : Operation Unit :=
  fun disk =>
    match Utf8.encode text with
    | .error fault => .error (.unencodable fault) (disk.remove location)
    | .ok content =>
      match moveOnto location temporary p (disk.putFile location content disk.nextStamp) with
      | .ok () after => .ok () after
      | .error fault after => .error fault (after.remove location)

/-- The steps of a write into a directory that is there. -/
lemma writeAtomically_eq (hparent : disk.isDirectory p.parent = .ok true) :
    writeAtomically chain p text disk =
      match createNew (temporaryPath disk p) disk with
      | .error fault after => .error fault after
      | .ok location after => fillAndMove location p (temporaryPath disk p) text after := by
  have hget : (get : Operation Disk) disk = .ok disk disk := rfl
  have hmodify (change : Disk → Disk) (disk : Disk) :
      (modify change : Operation PUnit) disk = .ok ⟨⟩ (change disk) := rfl
  simp only [writeAtomically, bind, EStateM.bind, ensureDirectory_of_isDirectory hparent, hget,
    temporaryPath]
  cases createNew ((p.parent.absolute disk.here).child
    (temporaryName (namesIn disk (p.parent.absolute disk.here)) p.name)) disk with
  | error fault after => rfl
  | ok location after =>
    simp only [fillAndMove, tryCatch, tryCatchThe, MonadExceptOf.tryCatch, EStateM.tryCatch]
    cases Utf8.encode text with
    | error fault => rfl
    | ok content =>
      simp only [hmodify, EStateM.bind]
      cases moveOnto location ((p.parent.absolute disk.here).child
        (temporaryName (namesIn disk (p.parent.absolute disk.here)) p.name)) p
        (after.putFile location content after.nextStamp) <;> rfl

/-- What making a new file comes to: nothing, or an empty file where there was nothing. -/
lemma createNew_cases (p : Path) (disk : Disk) :
    (∃ fault, createNew p disk = .error fault disk) ∨
      ∃ place, disk.entryPlace p = .ok (some place) ∧ disk.node? place = none ∧
        createNew p disk = .ok place (disk.putFile place [] disk.nextStamp) := by
  rw [createNew]
  split
  · next fault _ => exact .inl ⟨fault, rfl⟩
  · exact .inl ⟨_, rfl⟩
  · next place hplace =>
    split
    · exact .inl ⟨_, rfl⟩
    · next hfree => exact .inr ⟨place, hplace, hfree, rfl⟩

/-- What letting a file take another place comes to: nothing, or the file where there is no
directory. -/
lemma moveOnto_cases (location : Location) (source target : Path) (disk : Disk) :
    (∃ fault, moveOnto location source target disk = .error fault disk) ∨
      ∃ place content stamp, disk.entryPlace target = .ok (some place) ∧
        ¬ disk.HasDirectory place ∧ disk.node? location = some (.file content stamp) ∧
        moveOnto location source target disk =
          .ok () ((disk.remove location).putFile place content stamp) := by
  rw [moveOnto]
  split
  · exact .inl ⟨_, rfl⟩
  · exact .inl ⟨_, rfl⟩
  · next place hplace =>
    split
    · exact .inl ⟨_, rfl⟩
    · next content stamp hfile hnot =>
      refine .inr ⟨place, content, stamp, hplace, fun hdirectory => ?_, hfile, rfl⟩
      obtain ⟨entries, hentries⟩ := hasDirectory_iff.1 hdirectory
      exact hnot entries hentries
    · exact .inl ⟨_, rfl⟩

/-- What a write in one step has done when it has succeeded. -/
structure Written (p : Path) (place : Location) (text : Text) (disk after : Disk) : Prop where
  /-- The path can be followed. -/
  fault : p.fault? = none
  /-- There was no directory in the place of the file. -/
  free : ¬ disk.HasDirectory (entryName p.name :: place)
  /-- The encoded text has been put there, and that is all. -/
  put : ∃ (content : Bytes) (between : Disk) (stamp : Stamp), Utf8.encode text = .ok content ∧
    between.here = disk.here ∧ between.fleeting = disk.fleeting ∧
    (∀ location, between.face? location = disk.face? location) ∧
      after = between.putFile (entryName p.name :: place) content stamp

/-- **A write in one step** that fails leaves everything showing as it was.  One that succeeds has
put the encoded text in its place, and nothing else has changed. -/
lemma writeAtomically_result (chain : Nat) (text : Text) (hplace : disk.locate p.parent = .ok place)
    (hdirectory : disk.HasDirectory place) :
    match writeAtomically chain p text disk with
    | .error _ after =>
      after.here = disk.here ∧ after.fleeting = disk.fleeting ∧
        ∀ location, after.face? location = disk.face? location
    | .ok _ after => Written p place text disk after := by
  rw [writeAtomically_eq (isDirectory_eq_true_iff.2 ⟨place, hplace, hdirectory⟩)]
  rcases createNew_cases (temporaryPath disk p) disk with
    ⟨fault, hresult⟩ | ⟨location, hlocation, hfree, hresult⟩
  · rw [hresult]
    exact ⟨rfl, rfl, fun _ => rfl⟩
  · rw [hresult]
    obtain ⟨name, parent, rfl, hentry⟩ := entryPlace_eq_some hlocation
    have hmade := (Adds.refl hfree).putFile [] disk.nextStamp
    simp only [fillAndMove]
    generalize hthere : disk.putFile (entryName name :: parent) [] disk.nextStamp = made at hmade ⊢
    cases hencode : Utf8.encode text with
    | error fault =>
      exact ⟨by rw [remove_here, hmade.grows.here],
        by rw [remove_fleeting, hmade.grows.fleeting], hmade.face?_remove hfree⟩
    | ok content =>
      have hwritten := hmade.putFile content made.nextStamp
      simp only
      rcases moveOnto_cases (entryName name :: parent) (temporaryPath disk p) p
        (made.putFile (entryName name :: parent) content made.nextStamp) with
        ⟨fault, hmove⟩ | ⟨target, content', stamp, htarget, hnot, hfile, hmove⟩
      · rw [hmove]
        exact ⟨by rw [remove_here, hwritten.grows.here],
          by rw [remove_fleeting, hwritten.grows.fleeting], hwritten.face?_remove hfree⟩
      · rw [hmove]
        obtain ⟨last, directory, rfl, htargetEntry⟩ := entryPlace_eq_some htarget
        obtain ⟨m, hleads⟩ := htargetEntry.leads
        -- the temporary file changes nothing about where the path leads
        obtain ⟨-, m', hparent'⟩ := locate_eq_ok_iff.1 hplace
        have hway := hparent'.grows hwritten.grows
        rw [← hwritten.grows.origin] at hway
        obtain rfl : directory = place := hleads.unique hway
        have hlast : p.name = last := by
          rw [Path.name, htargetEntry.parts, List.getLast?_concat]
          rfl
        obtain rfl : content' = content := by
          by_cases hvalid : validName (entryName name)
          · have hput : (made.putFile (entryName name :: parent) content made.nextStamp).face?
                (entryName name :: parent) = some (.file content made.nextStamp) :=
              face?_put hvalid (hmade.grows.directory parent hentry.directory)
            rw [face?_eq_file.2 hfile] at hput
            exact (Face.file.inj (Option.some.inj hput)).1
          · -- otherwise there would be no temporary file
            rw [putFile, put, dif_neg hvalid] at hfile hthere
            rw [← hthere, hfree] at hfile
            simp at hfile
        refine ⟨htargetEntry.fault,
          fun hthere => hnot (hwritten.grows.directory _ (hlast ▸ hthere)),
          content', _, stamp, hencode, ?_, ?_, hwritten.face?_remove hfree, by rw [hlast]⟩
        · rw [remove_here, hwritten.grows.here]
        · rw [remove_fleeting, hwritten.grows.fleeting]

namespace Written

variable {after : Disk}

/-- The encoded text is in its place. -/
lemma face? (h : Written p place text disk after) (hdirectory : disk.HasDirectory place)
    (hvalid : validName (entryName p.name)) : ∃ content stamp, Utf8.encode text = .ok content ∧
      after.face? (entryName p.name :: place) = some (.file content stamp) := by
  obtain ⟨content, between, stamp, hencode, -, -, hsame, rfl⟩ := h.put
  refine ⟨content, stamp, hencode, face?_put hvalid ?_⟩
  simpa only [HasDirectory, hsame] using hdirectory

/-- Nothing is lost but what was there before in the place of the file. -/
lemma grows_remove (h : Written p place text disk after) (hdirectory : disk.HasDirectory place)
    (hvalid : validName (entryName p.name)) :
    (disk.remove (entryName p.name :: place)).Grows after := by
  obtain ⟨content, between, stamp, -, hhere, hfleeting, hsame, rfl⟩ := h.put
  have hplace : between.HasDirectory place := by simpa only [HasDirectory, hsame] using hdirectory
  simp only [putFile]
  refine ⟨by simp [hhere], by simp [hfleeting], fun l hl => ?_, fun l target => ?_⟩
  · obtain ⟨hsuffix, hthere⟩ := hasDirectory_remove_iff.1 hl
    by_cases hparent : l = place
    · rw [hparent, hasDirectory_put_parent_iff]
      exact hplace
    · simpa only [HasDirectory, face?_put_of_not_suffix hsuffix hparent, hsame] using hthere
  · rw [face?_remove_eq_link_iff]
    by_cases hsuffix : entryName p.name :: place <:+ l
    · -- the file is no link, and nothing lies below it
      obtain ⟨inner, rfl⟩ := hsuffix
      rw [face?_put_below hvalid hplace]
      by_cases hinner : inner = []
      · simp [hinner, Node.descend, Node.face]
      · have hnothing : (Node.file content stamp).descend inner.reverse = none :=
          Node.descend_eq_none (fun _ => rfl) (by simpa using hinner)
        simp [hnothing]
    · by_cases hparent : l = place
      · subst hparent
        rw [face?_put_parent_eq_link_iff, hsame]
        simp [hsuffix]
      · rw [face?_put_of_not_suffix hsuffix hparent, hsame]
        simp [hsuffix]

/-- Nothing has changed but what shows at that place and in the directory it lies in. -/
lemma confined (h : Written p place text disk after)
    (hlink : ¬ disk.HasLink (entryName p.name :: place)) :
    disk.Confined (Branch place (entryName p.name)) after := by
  obtain ⟨content, between, stamp, -, hhere, hfleeting, hsame, rfl⟩ := h.put
  have hbetween : disk.Confined (Branch place (entryName p.name)) between :=
    ⟨.of_face? hhere hfleeting hsame, fun location _ => hsame location⟩
  refine hbetween.trans (confined_put (grows_put (fun _ => rfl) (by simp) ?_ ?_) (.inl rfl) ?_)
  · simpa only [HasDirectory, hsame] using h.free
  · simpa only [HasLink, hsame] using hlink
  · exact fun location hsuffix => .inr hsuffix

end Written

/-- What a write that succeeds has done. -/
lemma written_of_writeAtomically (hplace : disk.locate p.parent = .ok place)
    (hdirectory : disk.HasDirectory place) (h : writeAtomically chain p text disk = .ok () after) :
    Written p place text disk after := by
  have hresult := writeAtomically_result chain text hplace hdirectory
  rw [h] at hresult
  exact hresult

/-- A write to a name of a directory changes nothing outside the branch of that name. -/
lemma ensures_writeAtomically {old : Disk} {names : List Text}
    (hopens : old.OpensAt p.parent place names) (hname : entryName p.name ∈ names) :
    Ensures (old.Confined (Branch place (entryName p.name))) (writeAtomically chain p text)
      fun _ => True := by
  intro disk hdisk
  have hnow := hopens.grows hdisk.grows
  have hresult := writeAtomically_result chain text hnow.leads hnow.directory
  generalize writeAtomically chain p text disk = result at hresult ⊢
  cases result with
  | error fault after =>
    obtain ⟨hhere, hfleeting, hsame⟩ := hresult
    exact hdisk.trans ⟨.of_face? hhere hfleeting hsame, fun location _ => hsame location⟩
  | ok u after =>
    have hlink := hnow.linkless _ hname _ (List.suffix_refl _)
    exact ⟨hdisk.trans (hresult.confined hlink), trivial⟩

end Storage

end OnePage
