import OnePage.Proofs.Json.Parts
import OnePage.Proofs.Site.Escape
import OnePage.Proofs.Site.Unordered
import OnePage.Proofs.Storage.Listable

/-!
# Loading data and fragments

Both kinds of source lie in a directory, one to a file, and are loaded in the order in which the
directory lists its files.

* `HoldsText`, `HoldsUtf8` and `HoldsDocument` — what a file has to hold.
* `Loaded` — what loading a directory gives: one entry for each of its files.
* `Stops` — what ends the loading instead: the files cannot be listed, or the first of them that
  does not hold what it has to is rejected.
* **`loadFragments_lossless`** — fragments are loaded byte for byte, or the first file that is not
  UTF-8 is named.
* **`loadData_outcome`** — data documents are loaded, or the first file that is rejected ends the
  loading.  `Rejects` lists the ways in which that happens; in two of them the file is not named.
-/

namespace OnePage

namespace Site

open Storage (Disk Path)

variable {α : Type} {settings : Settings} {world after : World} {disk : Disk} {p : Path}
  {purpose : Purpose} {failure : Failure} {ending text : Text} {names : List Text}
  {value : Json.Value}

/-! ## One file -/

/-- A file holds a text: its bytes are what is written for the text. -/
def HoldsText (disk : Disk) (p : Path) (text : Text) : Prop :=
  ∃ bytes, disk.read p = .ok bytes ∧ Utf8.encode text = .ok bytes

/-- A file holds UTF-8. -/
def HoldsUtf8 (disk : Disk) (p : Path) : Prop :=
  ∃ bytes, disk.read p = .ok bytes ∧ bytes.toByteArray.IsValidUTF8

/-- A file holds a JSON document in which at most so many containers lie inside each other. -/
def HoldsDocument (nesting : Nat) (disk : Disk) (p : Path) (value : Json.Value) : Prop :=
  ∃ text, HoldsText disk p text ∧ Json.read nesting text = .ok value

lemma holdsUtf8_iff : HoldsUtf8 disk p ↔ ∃ text, HoldsText disk p text := by
  simp only [HoldsUtf8, HoldsText, Utf8.isValidUTF8_iff]
  constructor
  · rintro ⟨bytes, hread, text, htext⟩
    exact ⟨text, bytes, hread, htext⟩
  · rintro ⟨text, bytes, hread, htext⟩
    exact ⟨bytes, hread, text, htext⟩

/-- What is read from a file is what it holds. -/
lemma readText_eq_ok_iff : readText purpose disk p = .ok text ↔ HoldsText disk p text := by
  rw [readText, HoldsText]
  cases disk.read p with
  | error fault => simp
  | ok bytes =>
    simp only [Except.ok.injEq, exists_eq_left', decode, ← Utf8.decode_eq_ok_iff]
    cases Utf8.decode bytes <;> simp [Except.mapError]

lemma readDocument_eq_ok_iff {nesting : Nat} :
    readDocument nesting disk p = .ok value ↔ HoldsDocument nesting disk p value := by
  rw [readDocument, except_bind_eq_ok, HoldsDocument]
  refine exists_congr fun text => and_congr readText_eq_ok_iff ?_
  cases hread : Json.read nesting text with
  | ok other => simp [pure, Except.pure]
  | error fault => cases fault <;> simp [throw, throwThe, MonadExceptOf.throw]

/-- A failure says that a file does not hold UTF-8. -/
def IsUndecodable (disk : Disk) (p : Path) (failure : Failure) : Prop :=
  ∃ bytes fault, disk.read p = .ok bytes ∧ Utf8.decode bytes = .error fault ∧
    failure = .load ⟨.undecodable .source fault, some p⟩

/-- That a file cannot be read as a text is because of its bytes. -/
lemma isUndecodable_of_readText (hfile : disk.isFile p = .ok true)
    (h : readText .source disk p = .error failure) : IsUndecodable disk p failure := by
  obtain ⟨bytes, hread⟩ := Disk.isFile_eq_true_iff.1 hfile
  rw [readText, hread] at h
  obtain ⟨fault, hdecode, rfl⟩ := mapError_eq_error.1 h
  exact ⟨bytes, fault, hread, hdecode, rfl⟩

/-- **How a data document is rejected.**  Bytes that are no text and a text that is no JSON are
reported together with the file; the size of a number and the depth of containers are not. -/
inductive Rejects (nesting : Nat) (disk : Disk) (p : Path) : Failure → Prop
  /-- The file does not hold UTF-8. -/
  | undecodable {failure : Failure} (h : IsUndecodable disk p failure) :
      Rejects nesting disk p failure
  /-- The text is no JSON. -/
  | malformed {text : Text} {complaint : Json.Complaint} {place : Json.Place}
      (htext : HoldsText disk p text)
      (hread : Json.read nesting text = .error (.malformed complaint place)) :
      Rejects nesting disk p (.load ⟨.malformed complaint place, some p⟩)
  /-- A whole number has too many digits. -/
  | digits {text : Text} {fault : Numeral.TooLong} (htext : HoldsText disk p text)
      (hread : Json.read nesting text = .error (.digits fault)) :
      Rejects nesting disk p (.digits fault)
  /-- Containers lie too deep inside each other. -/
  | nesting {text : Text} {container : Json.Container} (htext : HoldsText disk p text)
      (hread : Json.read nesting text = .error (.nesting container)) :
      Rejects nesting disk p (.nesting container)

/-- A file that does not hold a JSON document is rejected for one of these reasons. -/
lemma rejects_of_readDocument {nesting : Nat} (hfile : disk.isFile p = .ok true)
    (h : readDocument nesting disk p = .error failure) : Rejects nesting disk p failure := by
  rw [readDocument] at h
  rcases except_bind_eq_error.1 h with htext | ⟨text, htext, h⟩
  · exact .undecodable (isUndecodable_of_readText hfile htext)
  · have htext := readText_eq_ok_iff.1 htext
    split at h
    · cases h
    · next complaint place hread => exact Except.error.inj h ▸ .malformed htext hread
    · next fault hread => exact Except.error.inj h ▸ .digits htext hread
    · next container hread => exact Except.error.inj h ▸ .nesting htext hread

/-! ## All files of a directory -/

/-- **What loading a directory gives**: one entry for each of its files with the ending, in the
order in which they are listed.  The key is the name without the ending, and no two keys are the
same. -/
structure Loaded (holds : Path → α → Prop) (disk : Disk) (p : Path) (ending : Text)
    (entries : Keyed α) : Prop where
  /-- The keys are distinct. -/
  distinct : (Keyed.keys entries).Nodup
  /-- Each entry belongs to a file. -/
  entries : List.Forall₂
    (fun name entry => name = entry.1 ++ ending ∧ holds (p.child name) entry.2)
    (disk.filesNamed p ending) entries

/-- **What ends the loading of a directory.** -/
inductive Stops (holds : Path → Prop) (rejects : Path → Failure → Prop) (disk : Disk) (p : Path)
    (ending : Text) : Failure → Prop
  /-- The files cannot be listed. -/
  | unlisted {fault : Storage.Fault} (hnot : ¬ disk.Listable p ending)
      (hlist : disk.listFiles p ending = .error fault) (hrefused : fault.IsRefusal) :
      Stops holds rejects disk p ending (.storage fault)
  /-- The first file that does not hold what it has to is rejected. -/
  | rejected {front rest : List Text} {name : Text} {failure : Failure}
      (hlistable : disk.Listable p ending)
      (hfiles : disk.filesNamed p ending = front ++ name :: rest)
      (hfront : ∀ other ∈ front, holds (p.child other)) (hnot : ¬ holds (p.child name))
      (hname : rejects (p.child name) failure) :
      Stops holds rejects disk p ending failure

section Reading

variable {read : Path → Except Failure α} {entries : Keyed α}

lemma forall₂_of_readEach (hending : ∀ name ∈ names, ending <:+ name)
    (h : readEach read p ending names = .ok entries) : List.Forall₂
      (fun name entry => name = entry.1 ++ ending ∧ read (p.child name) = .ok entry.2) names
      entries := by
  induction names generalizing entries with
  | nil =>
    obtain rfl : [] = entries := Except.ok.inj h
    exact .nil
  | cons name names ih =>
    obtain ⟨hname, hnames⟩ := List.forall_mem_cons.1 hending
    obtain ⟨value, hvalue, h⟩ := except_bind_eq_ok.1 h
    obtain ⟨rest, hrest, h⟩ := except_bind_eq_ok.1 h
    obtain rfl := Except.ok.inj h
    exact .cons ⟨(stem_append hname).symm, hvalue⟩ (ih hnames hrest)

lemma readAll_eq_ok_iff_readEach : readAll read disk p ending = .ok entries ↔
    disk.Listable p ending ∧ readEach read p ending (disk.filesNamed p ending) = .ok entries := by
  rw [readAll]
  cases hlist : disk.listFiles p ending with
  | error fault =>
    refine iff_of_false (by simp) ?_
    rintro ⟨hlistable, -⟩
    simp [Disk.listFiles_eq_ok_iff.2 ⟨hlistable, rfl⟩] at hlist
  | ok found =>
    obtain ⟨hlistable, rfl⟩ := Disk.listFiles_eq_ok_iff.1 hlist
    simp [hlistable]

/-- **What all files of a directory are read as.** -/
lemma loaded_of_readAll (h : readAll read disk p ending = .ok entries) :
    disk.Listable p ending ∧ Loaded (fun q value => read q = .ok value) disk p ending entries := by
  obtain ⟨hlistable, h⟩ := readAll_eq_ok_iff_readEach.1 h
  have hending : ∀ name ∈ disk.filesNamed p ending, ending <:+ name :=
    fun name hname => (Disk.mem_filesNamed_iff.1 hname).2.1
  refine ⟨hlistable, ?_, forall₂_of_readEach hending h⟩
  rw [(readEach_eq_ok h).2]
  exact Disk.nodup_filesNamed.map_on fun name hname other hother =>
    stem_injective (hending name hname) (hending other hother)

/-- **What keeps the files of a directory from being read.** -/
lemma stops_of_readAll {rejects : Path → Failure → Prop}
    (hrejects : ∀ q failure, disk.isFile q = .ok true → read q = .error failure → rejects q failure)
    (h : readAll read disk p ending = .error failure) :
    Stops (fun q => ∃ value, read q = .ok value) rejects disk p ending failure := by
  rw [readAll] at h
  cases hlist : disk.listFiles p ending with
  | error fault =>
    rw [hlist] at h
    obtain rfl := Except.error.inj h
    refine .unlisted (fun hlistable => ?_) hlist (Disk.isRefusal_of_listFiles hlist)
    simp [Disk.listFiles_eq_ok_iff.2 ⟨hlistable, rfl⟩] at hlist
  | ok found =>
    rw [hlist] at h
    obtain ⟨hlistable, rfl⟩ := Disk.listFiles_eq_ok_iff.1 hlist
    obtain ⟨front, name, rest, hfiles, hfront, hname⟩ := readEach_eq_error_iff.1 h
    have hmem : name ∈ disk.filesNamed p ending := by simp [hfiles]
    have hnot : ¬ ∃ value, read (p.child name) = .ok value := by simp [hname]
    exact .rejected hlistable hfiles hfront hnot
      (hrejects _ _ (Disk.mem_filesNamed_iff.1 hmem).2.2 hname)

/-- All files of a directory are read exactly if they can be listed and each of them can be read. -/
lemma exists_readAll_iff : (∃ entries, readAll read disk p ending = .ok entries) ↔
    disk.Listable p ending ∧
      ∀ name ∈ disk.filesNamed p ending, ∃ value, read (p.child name) = .ok value := by
  constructor
  · rintro ⟨entries, h⟩
    obtain ⟨hlistable, hloaded⟩ := loaded_of_readAll h
    refine ⟨hlistable, fun name hname => ?_⟩
    obtain ⟨i, hi, rfl⟩ := List.getElem_of_mem hname
    have hlength := hloaded.entries.length_eq
    exact ⟨_, (hloaded.entries.get hi (hlength ▸ hi)).2⟩
  · rintro ⟨hlistable, hall⟩
    cases h : readAll read disk p ending with
    | ok entries => exact ⟨entries, rfl⟩
    | error failure =>
      have hstops : Stops (fun q => ∃ value, read q = .ok value) (fun _ _ => True) disk p ending
          failure := stops_of_readAll (fun _ _ _ _ => trivial) h
      cases hstops with
      | unlisted hnot => exact absurd hlistable hnot
      | rejected _ hfiles _ hnot => exact absurd (hall _ (by simp [hfiles])) hnot

end Reading

/-! ## Loading -/

/-- A step is quiet if it leaves the disk and the clock as they are. -/
def Quiet (world after : World) : Prop := after.disk = world.disk ∧ after.clock = world.clock

section Program

variable {look : Disk → Except Failure α} {speech : α → Console → Console}

/-- What is loaded has been looked for, and nothing has happened but that something was said. -/
lemma quiet_of_load {found : α} (h : (consult look >>= fun found =>
    speak (speech found) >>= fun _ => pure found) world = .ok found after) :
    look world.disk = .ok found ∧ Quiet world after := by
  obtain ⟨hlook, hclock⟩ := (does_load look speech).ok h
  obtain ⟨hfound, hdisk⟩ := inspect_eq_ok.1 hlook
  exact ⟨hfound, hdisk, hclock⟩

lemma exists_load_iff : (∃ found after, (consult look >>= fun found =>
    speak (speech found) >>= fun _ => pure found) world = .ok found after) ↔
      ∃ found, look world.disk = .ok found := by
  constructor
  · rintro ⟨found, after, h⟩
    exact ⟨found, (quiet_of_load h).1⟩
  · rintro ⟨found, h⟩
    obtain ⟨after, hload, -⟩ := (does_load look speech).of_ok (inspect_eq_ok.2 ⟨h, rfl⟩)
    exact ⟨found, after, hload⟩

lemma load_eq_error (h : (consult look >>= fun found =>
    speak (speech found) >>= fun _ => pure found) world = .error failure after) :
    look world.disk = .error failure ∧ after = world := by
  cases hlook : look world.disk with
  | ok found =>
    have hconsult : consult look world = .ok found world := by rw [consult, hlook]
    simp only [bind, EStateM.bind, hconsult] at h
    cases h
  | error other =>
    have hconsult : consult look world = .error other world := by rw [consult, hlook]
    simp only [bind, EStateM.bind, hconsult] at h
    obtain ⟨rfl, rfl⟩ := EStateM.Result.error.inj h
    exact ⟨rfl, rfl⟩

end Program

/-- **Loading fragments loses nothing.**  It succeeds exactly if the files of the directory can be
listed and each of them holds UTF-8.  Then there is one entry for each file, in the order in which
they are listed, with a text that is written as the bytes of the file.  Otherwise the first file
that does not hold UTF-8 is named, unless the files could not even be listed; nothing has changed
then. -/
theorem loadFragments_lossless (settings : Settings) (p : Path) (world : World) :
    ((∃ found after, loadFragments settings p world = .ok found after) ↔
      world.disk.Listable p fragmentEnding ∧
        ∀ name ∈ world.disk.filesNamed p fragmentEnding, HoldsUtf8 world.disk (p.child name)) ∧
    (∀ found after, loadFragments settings p world = .ok found after → Quiet world after ∧
      Loaded (HoldsText world.disk) world.disk p fragmentEnding found) ∧
    ∀ failure after, loadFragments settings p world = .error failure after → after = world ∧
      Stops (HoldsUtf8 world.disk) (IsUndecodable world.disk) world.disk p fragmentEnding
        failure := by
  have hholds (q : Path) : HoldsUtf8 world.disk q ↔
      ∃ text, readText .source world.disk q = .ok text := by
    simp only [holdsUtf8_iff, readText_eq_ok_iff]
  refine ⟨?_, fun found after h => ?_, fun failure after h => ?_⟩
  · rw [loadFragments]
    simp only [hholds]
    exact exists_load_iff.trans exists_readAll_iff
  · obtain ⟨hfound, hquiet⟩ := quiet_of_load h
    have hloaded := (loaded_of_readAll hfound).2
    simp only [readText_eq_ok_iff] at hloaded
    exact ⟨hquiet, hloaded⟩
  · obtain ⟨hfailure, rfl⟩ := load_eq_error h
    refine ⟨rfl, ?_⟩
    rw [funext fun q => propext (hholds q)]
    exact stops_of_readAll (fun _ _ => isUndecodable_of_readText) hfailure

/-- A directory in which nothing is but a link, to a name that is too long for any file. -/
def strayDisk : Disk :=
  (Disk.empty.putDirectory ["c"]).putLink ["x.html", "c"]
    (List.replicate 256 (CodePoint.ofChar 'a'))

/-- **Fragments may not be loaded though no file is wrong**: it cannot be found out whether a link
is one of the files. -/
theorem loadFragments_stray :
    (Path.parse "c").parts = ["c"] ∧
      strayDisk.list (Path.parse "c") = .ok ["x.html"] ∧
      strayDisk.filesNamed (Path.parse "c") fragmentEnding = [] ∧
      loadFragments plainSettings (Path.parse "c") ⟨strayDisk, .silent, 0.0⟩ =
        .error (.storage (.system .nameTooLong (Path.parse "c/x.html") none))
          ⟨strayDisk, .silent, 0.0⟩ := by
  have hlist : strayDisk.listFiles (Path.parse "c") fragmentEnding =
      .error (.system .nameTooLong (Path.parse "c/x.html") none) := by decide +kernel
  refine ⟨rfl, by decide +kernel, by decide +kernel, ?_⟩
  have hfragments : fragments strayDisk (Path.parse "c") =
      .error (.storage (.system .nameTooLong (Path.parse "c/x.html") none)) := by
    rw [fragments, readAll, hlist]
  simp only [loadFragments, consult, bind, EStateM.bind, hfragments]

/-- **Loading data documents.**  It succeeds exactly if the files of the directory can be listed and
each of them holds a JSON document.  Then there is one entry for each file, in the order in which
they are listed, with the value that is read from the file.  Otherwise the first file that holds
none is rejected, unless the files could not even be listed; nothing has changed then. -/
theorem loadData_outcome (settings : Settings) (p : Path) (world : World) :
    ((∃ found after, loadData settings p world = .ok found after) ↔
      world.disk.Listable p dataEnding ∧ ∀ name ∈ world.disk.filesNamed p dataEnding,
        ∃ value, HoldsDocument settings.nesting world.disk (p.child name) value) ∧
    (∀ found after, loadData settings p world = .ok found after → Quiet world after ∧
      Loaded (HoldsDocument settings.nesting world.disk) world.disk p dataEnding found) ∧
    ∀ failure after, loadData settings p world = .error failure after → after = world ∧
      Stops (fun q => ∃ value, HoldsDocument settings.nesting world.disk q value)
        (Rejects settings.nesting world.disk) world.disk p dataEnding failure := by
  simp only [← readDocument_eq_ok_iff]
  refine ⟨exists_load_iff.trans exists_readAll_iff, fun found after h => ?_,
    fun failure after h => ?_⟩
  · obtain ⟨hfound, hquiet⟩ := quiet_of_load h
    have hloaded := (loaded_of_readAll hfound).2
    simp only [readDocument_eq_ok_iff] at hloaded
    exact ⟨hquiet, hloaded⟩
  · obtain ⟨hfailure, rfl⟩ := load_eq_error h
    exact ⟨rfl, stops_of_readAll (fun _ _ => rejects_of_readDocument) hfailure⟩

/-- A directory with one data document. -/
def documentDisk (text : Text) : Disk :=
  (Disk.empty.putDirectory ["data"]).putFile ["a.json", "data"]
    (text.flatMap Utf8.encodeCodePoint) (.fresh 0)

lemma holdsText_documentDisk (h : ∀ c ∈ text, c.isSurrogate = false) :
    HoldsText (documentDisk text) ((Path.parse "data").child "a.json") text :=
  ⟨_, rfl, Utf8.encode_eq_ok_iff.2 ⟨h, rfl⟩⟩

/-- Loading such a directory fails as reading the document does. -/
lemma loadData_documentDisk {fault : Numeral.TooLong}
    (hlist : (documentDisk text).listFiles (Path.parse "data") dataEnding = .ok ["a.json"])
    (htext : HoldsText (documentDisk text) ((Path.parse "data").child "a.json") text)
    (hread : Json.read plainSettings.nesting text = .error (.digits fault)) :
    loadData plainSettings (Path.parse "data") ⟨documentDisk text, .silent, 0.0⟩ =
      .error (.digits fault) ⟨documentDisk text, .silent, 0.0⟩ := by
  have hdocument : readDocument plainSettings.nesting (documentDisk text)
      ((Path.parse "data").child "a.json") = .error (.digits fault) := by
    rw [readDocument, readText_eq_ok_iff.2 htext]
    simp only [bind, Except.bind, hread]
    rfl
  have hdocuments : documents plainSettings.nesting (documentDisk text) (Path.parse "data") =
      .error (.digits fault) := by
    rw [documents, readAll, hlist]
    exact readEach_eq_error_iff.2 ⟨[], "a.json", [], rfl, by simp, hdocument⟩
  simp only [loadData, consult, bind, EStateM.bind, hdocuments]

/-- **A document that is rejected without being named**: it consists of a number of too many
digits. -/
theorem loadData_ones :
    (documentDisk (Template.ones 4301)).list (Path.parse "data") = .ok ["a.json"] ∧
      HoldsText (documentDisk (Template.ones 4301)) ((Path.parse "data").child "a.json")
        (Template.ones 4301) ∧
      loadData plainSettings (Path.parse "data")
          ⟨documentDisk (Template.ones 4301), .silent, 0.0⟩ =
        .error (.digits ⟨4301⟩) ⟨documentDisk (Template.ones 4301), .silent, 0.0⟩ := by
  have hlength : (Template.ones 4301).length = 4301 := List.length_replicate
  have hplain : ∀ c ∈ Template.ones 4301, c.isSurrogate = false := by
    intro c hc
    rw [List.eq_of_mem_replicate hc]
    decide
  have htext := holdsText_documentDisk hplain
  have hread : Json.read plainSettings.nesting (Template.ones 4301) = _ :=
    Json.read_of_isCanonical (Template.isCanonical_ones (n := 4301) (by decide))
      (by simp [hlength, Numeral.digitLimit])
  rw [hlength] at hread
  exact ⟨by decide +kernel, htext, loadData_documentDisk (by decide +kernel) htext hread⟩

end Site

end OnePage
