import OnePage.Proofs.Outcome
import OnePage.Proofs.Storage.AtomicWrite
import OnePage.Proofs.Storage.Snapshot

/-!
# What a disk refuses

The disk may refuse an operation.  Other faults come up before anything reaches it: a path holds a
NUL or a surrogate that is no escape, a text holds any surrogate, or too many directories are to be
made at once.  This file says which operations meet faults of the first kind only.

* `Fault.IsRefusal` — the disk itself has refused something.
* `Disk.isRefusal_of_find` and the lemmas after it — whoever looks at a plain path is refused if
  anything.
* `Disk.isRefusal_of_listFiles` — the files of a directory are listed or refused, whatever its path.
* `ensureDirectory_error` and `ensureDirectory_of_fault?` — why a directory cannot be made.
* `isRefusal_of_copyFile` — copying a file from one plain path to another is refused if anything.
-/

namespace OnePage

namespace Storage

/-- **The disk itself has refused something**, as opposed to what never reached it. -/
def Fault.IsRefusal : Fault → Prop
  | system _ _ _ | sameFile _ _ | noDirectory _ => True
  | tooDeep | nul | unencodable _ => False

variable {disk after : Disk} {p source target : Path} {fault : Fault} {chain : Nat}

lemma Path.IsPlain.isRefusal (hp : p.IsPlain) (h : p.fault? = some fault) : fault.IsRefusal := by
  rcases Path.isPlain_iff.1 hp with hnone | hlong
  · simp [hnone] at h
  · obtain rfl := Option.some.inj (hlong.symm.trans h)
    trivial

/-- A path can be handed to the disk, or it never reaches it. -/
lemma Path.isPlain_or (p : Path) :
    p.IsPlain ∨ ∃ fault, p.fault? = some fault ∧ ¬ fault.IsRefusal := by
  cases hfault : p.fault? with
  | none => exact .inl (Path.isPlain_iff.2 (.inl hfault))
  | some fault =>
    rcases Path.fault?_cases hfault with rfl | ⟨surrogates, rfl⟩ | rfl
    · exact .inr ⟨_, rfl, id⟩
    · exact .inr ⟨_, rfl, id⟩
    · exact .inl (Path.isPlain_iff.2 (.inr hfault))

/-! ## Looking -/

namespace Disk

variable {names : List Text} {ending : Text}

lemma isPlain_of_isDirectory (h : disk.isDirectory p = .ok true) : p.IsPlain := by
  obtain ⟨place, hplace, -⟩ := isDirectory_eq_true_iff.1 h
  exact Path.isPlain_iff.2 (.inl (locate_eq_ok_iff.1 hplace).1)

lemma isRefusal_of_follow (hp : p.IsPlain) {making : Bool} {parts : List Text}
    (h : disk.follow making p parts = .error fault) : fault.IsRefusal := by
  rw [follow] at h
  split at h
  · next other hother => exact Except.error.inj h ▸ hp.isRefusal hother
  · cases hwalk : walk disk.root making linkLimit (disk.start p) parts with
    | ok trail => simp [hwalk, Except.mapError] at h
    | error errno =>
      obtain rfl : Fault.system errno p none = fault := by simpa [hwalk, Except.mapError] using h
      trivial

lemma isRefusal_of_find (hp : p.IsPlain) (h : disk.find p = .error fault) : fault.IsRefusal := by
  obtain ⟨errno, -, rfl⟩ := find_error (Path.isPlain_iff.1 hp) h
  trivial

lemma meansAbsent_of_leadsTo {condition : Node → Bool}
    (h : disk.leadsTo condition p = .error fault) : fault.meansAbsent = false := by
  rw [leadsTo] at h
  split at h
  · simp at h
  · split at h
    · simp at h
    · next hpresent => exact Except.error.inj h ▸ Bool.eq_false_of_not_eq_true hpresent

/-- A question about a path is answered or refused, whatever the path. -/
lemma isRefusal_of_leadsTo {condition : Node → Bool}
    (h : disk.leadsTo condition p = .error fault) : fault.IsRefusal := by
  have hpresent := meansAbsent_of_leadsTo h
  have hfind : disk.find p = .error fault := by
    rw [leadsTo] at h
    split at h
    · simp at h
    · next other hother =>
      split at h
      · simp at h
      · rw [hother, Except.error.inj h]
  cases hp : p.fault? with
  | none => exact isRefusal_of_find (Path.isPlain_iff.2 (.inl hp)) hfind
  | some other =>
    obtain rfl : other = fault := by simpa [find, follow, hp] using hfind
    rcases Path.fault?_cases hp with rfl | ⟨surrogates, rfl⟩ | rfl
    · cases hpresent
    · cases hpresent
    · trivial

lemma isRefusal_of_read (hp : p.IsPlain) (h : disk.read p = .error fault) : fault.IsRefusal := by
  rw [read] at h
  split at h
  · simp at h
  · obtain rfl := Except.error.inj h
    trivial
  · next other hfind => exact Except.error.inj h ▸ isRefusal_of_find hp hfind

lemma isRefusal_of_list (hp : p.IsPlain) (h : disk.list p = .error fault) : fault.IsRefusal := by
  rw [list] at h
  split at h
  · next other hfollow => exact Except.error.inj h ▸ isRefusal_of_follow hp hfollow
  · split at h
    · split at h
      · obtain rfl := Except.error.inj h
        trivial
      · simp at h
    · obtain rfl := Except.error.inj h
      trivial
    · obtain rfl := Except.error.inj h
      trivial

lemma isRefusal_of_filesAmong (h : disk.filesAmong p ending names = .error fault) :
    fault.IsRefusal := by
  induction names with
  | nil => simp [filesAmong] at h
  | cons name names ih =>
    have hrest (wanted : Bool) (h : (do
        let rest ← disk.filesAmong p ending names
        return if wanted then name :: rest else rest) = .error fault) : fault.IsRefusal := by
      rcases except_bind_eq_error.1 h with hnames | ⟨rest, -, hlast⟩
      · exact ih hnames
      · exact nomatch hlast
    rw [filesAmong] at h
    split at h
    · rcases except_bind_eq_error.1 h with hfile | ⟨wanted, -, h⟩
      · exact isRefusal_of_leadsTo hfile
      · exact hrest wanted h
    · exact hrest false h

/-- The files of a directory are listed, or the disk refuses that. -/
lemma isRefusal_of_listFiles (h : disk.listFiles p ending = .error fault) : fault.IsRefusal := by
  rcases except_bind_eq_error.1 h with hthere | ⟨there, hthere, h⟩
  · exact isRefusal_of_leadsTo hthere
  · split at h
    · next htrue =>
      subst htrue
      rcases except_bind_eq_error.1 h with hlist | ⟨names, -, hfiles⟩
      · exact isRefusal_of_list (isPlain_of_isDirectory hthere) hlist
      · exact isRefusal_of_filesAmong hfiles
    · exact nomatch h

lemma isRefusal_of_entryPlace (hp : p.IsPlain) (h : disk.entryPlace p = .error fault) :
    fault.IsRefusal := by
  rw [entryPlace] at h
  split at h
  · split at h
    · next other hother => exact Except.error.inj h ▸ hp.isRefusal hother
    · simp at h
  · split at h
    · next other hfollow => exact Except.error.inj h ▸ isRefusal_of_follow hp hfollow
    · split at h
      · obtain rfl := Except.error.inj h
        trivial
      · split_ifs at h
        obtain rfl := Except.error.inj h
        trivial
      · obtain rfl := Except.error.inj h
        trivial

end Disk

/-! ## Making directories -/

lemma isRefusal_of_makeDirectory (hp : p.IsPlain)
    (h : makeDirectory p disk = .error fault after) : fault.IsRefusal := by
  rcases makeDirectory_cases p disk with ⟨other, hresult, hwhy⟩ | ⟨_, -, -, hresult⟩
  · obtain ⟨rfl, -⟩ := EStateM.Result.error.inj (hresult.symm.trans h)
    rcases hwhy with hentry | rfl
    · exact disk.isRefusal_of_entryPlace hp hentry
    · trivial
  · simp [hresult] at h

lemma isRefusal_of_makeUnlessThere (hp : p.IsPlain)
    (h : makeUnlessThere p disk = .error fault after) : fault.IsRefusal := by
  rw [makeUnlessThere] at h
  split at h
  · obtain ⟨rfl, -⟩ := EStateM.Result.error.inj h
    trivial
  · split at h
    · simp at h
    · obtain ⟨rfl, -⟩ := EStateM.Result.error.inj h
      trivial
    · next other hother =>
      obtain ⟨rfl, -⟩ := EStateM.Result.error.inj h
      exact Disk.isRefusal_of_leadsTo hother
  · exact isRefusal_of_makeDirectory hp h

lemma ensureParts_error {anchor : Anchor} {room : Nat} {inner : List Text}
    (hp : (⟨anchor, inner.reverse⟩ : Path).IsPlain)
    (h : ensureParts anchor room inner disk = .error fault after) :
    fault.IsRefusal ∨ fault = .tooDeep := by
  induction room generalizing inner disk after with
  | zero => exact .inr (EStateM.Result.error.inj h).1.symm
  | succ room ih =>
    cases inner with
    | nil => exact .inl (isRefusal_of_makeUnlessThere hp h)
    | cons name outer =>
      have houter : (⟨anchor, outer.reverse⟩ : Path).IsPlain := fun part hpart =>
        hp part (by simp_all)
      rw [ensureParts] at h
      dsimp only at h
      split at h
      · split at h
        · exact .inl (isRefusal_of_makeUnlessThere hp h)
        · next hmore =>
          obtain ⟨rfl, rfl⟩ := EStateM.Result.error.inj h
          exact ih houter hmore
      · exact .inl (isRefusal_of_makeUnlessThere hp h)

/-- Making a directory with all that it lies in is refused, or too many are missing. -/
lemma ensureDirectory_error (hp : p.IsPlain)
    (h : ensureDirectory chain p disk = .error fault after) : fault.IsRefusal ∨ fault = .tooDeep :=
  ensureParts_error (by rwa [List.reverse_reverse]) h

/-- Unless the directory it would lie in is missing, a directory is tried once. -/
lemma ensureParts_of_error {anchor : Anchor} {inner : List Text} (room : Nat)
    (h : makeUnlessThere ⟨anchor, inner.reverse⟩ disk = .error fault after)
    (hnot : ∀ q target, fault ≠ .system .noEntry q target) :
    ensureParts anchor (room + 1) inner disk = .error fault after := by
  cases inner with
  | nil => exact h
  | cons name outer =>
    rw [ensureParts]
    dsimp only
    rw [h]
    split
    · next q target _ heq => exact absurd (EStateM.Result.error.inj heq).1 (hnot q target)
    · rfl

lemma ensureDirectory_of_error (h : makeUnlessThere p disk = .error fault after)
    (hnot : ∀ q target, fault ≠ .system .noEntry q target) :
    ensureDirectory chain p disk = .error fault after :=
  ensureParts_of_error chain (by rwa [List.reverse_reverse]) hnot

/-- A path that cannot be followed is not looked at any further. -/
lemma makeUnlessThere_of_fault? (disk : Disk) (hfault : p.fault? = some fault) :
    ∃ other, makeUnlessThere p disk = .error other disk ∧
      (∀ q target, other ≠ .system .noEntry q target) ∧ (¬ fault.IsRefusal → other = fault) := by
  have hfollow (making : Bool) (parts : List Text) :
      disk.follow making p parts = .error fault := by rw [Disk.follow, hfault]
  have hentry : disk.entryPlace p = .error fault := by
    rw [Disk.entryPlace]
    cases p.parts.getLast? <;> simp [hfollow, hfault]
  have hfind : disk.find p = .error fault := by simp only [Disk.find, hfollow]
  rw [makeUnlessThere, makeDirectory, hentry]
  rcases Path.fault?_cases hfault with rfl | ⟨surrogates, rfl⟩ | rfl
  · exact ⟨_, rfl, by simp, fun _ => rfl⟩
  · exact ⟨_, rfl, by simp, fun _ => rfl⟩
  · refine ⟨.system .nameTooLong p none, ?_, by simp, fun _ => rfl⟩
    simp [Disk.isDirectory, Disk.leadsTo, hfind, Fault.meansAbsent]

/-- No directory is made at a path that never reaches the disk. -/
lemma ensureDirectory_of_fault? (hfault : p.fault? = some fault) (hnot : ¬ fault.IsRefusal) :
    ensureDirectory chain p disk = .error fault disk := by
  obtain ⟨other, hmade, hmissing, hsame⟩ := makeUnlessThere_of_fault? disk hfault
  exact hsame hnot ▸ ensureDirectory_of_error hmade hmissing

/-- What the disk refuses to make is not made, unless it is there. -/
lemma makeUnlessThere_of_error {errno : Errno}
    (hmade : makeDirectory p disk = .error (.system errno p none) disk) (herrno : errno ≠ .noEntry)
    (hnot : disk.isDirectory p ≠ .ok true) :
    ∃ fault, makeUnlessThere p disk = .error fault disk ∧ fault.IsRefusal ∧
      ∀ q target, fault ≠ .system .noEntry q target := by
  rw [makeUnlessThere, hmade]
  cases hthere : disk.isDirectory p with
  | ok is =>
    obtain rfl : is = false := Bool.eq_false_of_not_eq_true fun his => hnot (his ▸ hthere)
    exact ⟨.system errno p none, by cases errno <;> simp_all, trivial, by simp [herrno]⟩
  | error other =>
    refine ⟨other, by cases errno <;> simp_all, Disk.isRefusal_of_leadsTo hthere, ?_⟩
    rintro q target rfl
    cases Disk.meansAbsent_of_leadsTo hthere

/-- Nor is a directory made where the disk does not let anyone go. -/
lemma ensureDirectory_of_entryPlace_error {errno : Errno}
    (hentry : disk.entryPlace p = .error (.system errno p none)) (herrno : errno ≠ .noEntry)
    (hnot : disk.isDirectory p ≠ .ok true) :
    ∃ fault, ensureDirectory chain p disk = .error fault disk ∧ fault.IsRefusal := by
  have hmade : makeDirectory p disk = .error (.system errno p none) disk := by
    rw [makeDirectory, hentry]
  obtain ⟨fault, hfails, hrefused, hmissing⟩ := makeUnlessThere_of_error hmade herrno hnot
  exact ⟨fault, ensureDirectory_of_error hfails hmissing, hrefused⟩

/-- Failing to make a directory changes nothing. -/
lemma disk_of_makeUnlessThere_error (h : makeUnlessThere p disk = .error fault after) :
    after = disk := by
  rw [makeUnlessThere] at h
  rcases makeDirectory_cases p disk with ⟨other, hresult, -⟩ | ⟨place, -, -, hresult⟩
  · rw [hresult] at h
    split at h
    · simp_all
    · split at h <;> simp_all
    · simp_all
  · simp [hresult] at h

/-- A directory that is there is not missing for another one. -/
lemma ne_noEntry_of_makeUnlessThere_child {name : Text} (hp : disk.isDirectory p = .ok true)
    (hvalid : validName name) (h : makeUnlessThere (p.child name) disk = .error fault after) :
    ∀ q target, fault ≠ .system .noEntry q target := by
  cases hfault : (p.child name).fault? with
  | some other =>
    obtain ⟨made, hmade, hmissing, -⟩ := makeUnlessThere_of_fault? disk hfault
    rw [hmade] at h
    obtain ⟨rfl, -⟩ := EStateM.Result.error.inj h
    exact hmissing
  | none =>
    obtain ⟨place, hplace, hdirectory⟩ := Disk.isDirectory_eq_true_iff.1 hp
    have hentry := Disk.entryPlace_child hplace hdirectory hfault hvalid
    by_cases hthere : disk.isDirectory (p.child name) = .ok true
    · simp [makeUnlessThere_of_isDirectory hthere] at h
    cases hnode : disk.node? (name :: place) with
    | none => simp [makeUnlessThere, makeDirectory, hentry, hnode] at h
    | some node =>
      have hmade : makeDirectory (p.child name) disk =
          .error (.system .alreadyThere (p.child name) none) disk := by
        simp only [makeDirectory, hentry, hnode]
      obtain ⟨made, hresult, -, hmissing⟩ := makeUnlessThere_of_error hmade (by simp) hthere
      rw [hresult] at h
      obtain ⟨rfl, -⟩ := EStateM.Result.error.inj h
      exact hmissing

/-- In a directory that is there one directory is made at most. -/
lemma ensureDirectory_child {name : Text} (hp : disk.isDirectory p = .ok true)
    (hvalid : validName name) :
    ensureDirectory chain (p.child name) disk = makeUnlessThere (p.child name) disk := by
  have hpath : (⟨p.anchor, (name :: p.parts.reverse).reverse⟩ : Path) = p.child name := by
    simp [Path.child]
  have hinner : (p.child name).parts.reverse = name :: p.parts.reverse := by simp [Path.child]
  rw [ensureDirectory, hinner, ensureParts]
  dsimp only [Path.child] at hpath ⊢
  rw [hpath]
  split
  · next q target after hresult =>
    exact absurd rfl (ne_noEntry_of_makeUnlessThere_child hp hvalid hresult q target)
  · rfl

/-! ## Writing -/

namespace Disk

variable {making : Bool} {n m : Nat} {l place : Location} {parts : List Text}

/-- Links are followed to the end. -/
lemma Leads.not_hasLink (h : disk.Leads making n l parts m place) (hl : ¬ disk.HasLink l) :
    ¬ disk.HasLink place := by
  induction h with
  | done _ _ => exact hl
  | up hdirectory _ ih => exact ih hdirectory.tail.not_hasLink
  | stay _ _ _ ih => exact ih hl
  | enter _ _ hlink _ ih => exact ih hlink
  | @link n m l place part target parts hdirectory _ _ _ ih =>
    refine ih ?_
    rw [linkStart]
    split
    · exact hasDirectory_root.not_hasLink
    · exact hdirectory.not_hasLink

end Disk

/-- Writing a file lets a disk grow. -/
lemma ensures_write_grows {old : Disk} {content : Bytes} (hparts : p.parts ≠ []) :
    Ensures (fun disk => old.Grows disk) (write p content) fun _ => True := by
  refine ensures_write fun disk place hgrows hplace hnot => hgrows.trans ?_
  obtain ⟨-, m, hleads⟩ := Disk.locateNew_eq_ok_iff.1 hplace
  obtain ⟨part, parts, heq⟩ := List.exists_cons_of_ne_nil hparts
  have hstart := (heq ▸ hleads).hasDirectory
  cases place with
  | nil => exact absurd Disk.hasDirectory_root hnot
  | cons name parent =>
    exact Disk.grows_put (fun _ => rfl) (by simp) hnot (hleads.not_hasLink hstart.not_hasLink)

lemma isRefusal_of_write {content : Bytes} (hp : p.IsPlain)
    (h : write p content disk = .error fault after) : fault.IsRefusal := by
  rw [write] at h
  split at h
  · next other hplace =>
    obtain ⟨rfl, -⟩ := EStateM.Result.error.inj h
    rw [Disk.locateNew] at hplace
    cases hfollow : disk.follow true p p.parts with
    | ok trail => simp [hfollow, Except.map] at hplace
    | error fault =>
      obtain rfl : fault = other := by simpa [hfollow, Except.map] using hplace
      exact Disk.isRefusal_of_follow hp hfollow
  · split at h
    · obtain ⟨rfl, -⟩ := EStateM.Result.error.inj h
      trivial
    · simp at h

lemma isRefusal_of_copyFile (hsource : source.IsPlain) (htarget : target.IsPlain)
    (h : copyFile source target disk = .error fault after) : fault.IsRefusal := by
  rw [copyFile] at h
  split at h
  · next hfault => exact absurd (hsource.isRefusal hfault) id
  · next hfault _ => exact absurd (htarget.isRefusal hfault) id
  · dsimp only at h
    split_ifs at h
    · obtain ⟨rfl, -⟩ := EStateM.Result.error.inj h
      trivial
    · split at h
      · next other hread =>
        obtain ⟨rfl, -⟩ := EStateM.Result.error.inj h
        exact Disk.isRefusal_of_read hsource hread
      · next content _ =>
        rw [writeOnto] at h
        split at h
        · split at h <;>
          · obtain ⟨rfl, -⟩ := EStateM.Result.error.inj h
            trivial
        · exact isRefusal_of_write htarget h

end Storage

end OnePage
