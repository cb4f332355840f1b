import OnePage.Proofs.Site.Sources
import OnePage.Proofs.Site.Steps
import OnePage.Proofs.Storage.Proceed
import OnePage.Proofs.Template.Lookup

/-!
# What a build fails with

A command reports the failures of a build that have to do with the files of the site.  This file
finds out which failures are not among them, and what brings them about.

* `isReported_storage_iff` — of the faults of the disk, refusals are reported.
* `Spoils` — what among the sources of a site keeps its page from being put together, without being
  reported.
* `Escapes` — the same for a whole build.
* **`escapes_iff`** — a build fails with something that is not reported exactly if one of these
  causes is there.
-/

namespace OnePage

namespace Site

open Storage (Disk Path Fault validName)

variable {settings : Settings} {config : Config} {disk : Disk} {p : Path} {failure : Failure}

/-! ## What is reported -/

lemma isReported_storage_iff {fault : Fault} :
    (Failure.storage fault).isReported ↔ fault.IsRefusal := by
  cases fault <;> simp [Failure.isReported, Fault.IsRefusal]

lemma isReported_unreadable (purpose : Purpose) (p : Path) {fault : Fault} (h : fault.IsRefusal) :
    (unreadable purpose p fault).isReported := by
  cases fault <;> first | rfl | exact absurd h id

lemma isReported_of_decode {purpose : Purpose} {content : Bytes}
    (h : decode purpose p content = .error failure) : failure.isReported := by
  rw [decode] at h
  cases hdecode : Utf8.decode content with
  | ok text => simp [hdecode, Except.mapError] at h
  | error fault =>
    obtain rfl : Failure.load _ = failure := by simpa [hdecode, Except.mapError] using h
    rfl

/-- That a file at a plain path cannot be read as a text is reported. -/
lemma isReported_of_readText {purpose : Purpose} (hp : p.IsPlain)
    (h : readText purpose disk p = .error failure) : failure.isReported := by
  rw [readText] at h
  split at h
  · exact isReported_of_decode h
  · next fault hread =>
    exact Except.error.inj h ▸ isReported_unreadable purpose p (Disk.isRefusal_of_read hp hread)

/-- A directory without a plain path has no files. -/
lemma isPlain_of_listFiles {ending name : Text} {names : List Text}
    (h : disk.listFiles p ending = .ok names) (hname : name ∈ names) : p.IsPlain := by
  obtain ⟨there, hthere, h⟩ := except_bind_eq_ok.1 h
  split at h
  · next htrue => exact Disk.isPlain_of_isDirectory (htrue ▸ hthere)
  · obtain rfl := Except.ok.inj h
    simp at hname

/-- The path to a file that has been listed is plain. -/
lemma isPlain_child_of_listFiles {ending name : Text} {names : List Text}
    (h : disk.listFiles p ending = .ok names) (hname : name ∈ names) : (p.child name).IsPlain :=
  (isPlain_of_listFiles h hname).child (Disk.validName_of_listFiles h hname)

lemma isPlain_join_of_listFiles {ending name : Text} {names : List Text}
    (h : disk.listFiles p ending = .ok names) (hname : name ∈ names) : (p.join name).IsPlain :=
  Path.join_of_validName (Disk.validName_of_listFiles h hname) p ▸
    isPlain_child_of_listFiles h hname

lemma readEach_eq_error_iff {α : Type} {read : Path → Except Failure α} {ending : Text}
    {names : List Text} : readEach read p ending names = .error failure ↔
      Template.FirstFails (fun name => read (p.child name)) names failure := by
  induction names with
  | nil => simp [readEach, Template.FirstFails]
  | cons name names ih =>
    rw [readEach, Template.firstFails_cons, ← ih]
    cases read (p.child name) with
    | error other => simp [bind, Except.bind]
    | ok value =>
      cases readEach read p ending names <;> simp [bind, Except.bind, pure, Except.pure]

/-- Reading all files of a directory fails as reading the first of them that cannot be read, unless
that is reported. -/
lemma readAll_eq_error {α : Type} {read : Path → Except Failure α} {ending : Text}
    (h : readAll read disk p ending = .error failure) : failure.isReported ∨
      ∃ names, disk.listFiles p ending = .ok names ∧
        Template.FirstFails (fun name => read (p.child name)) names failure := by
  rw [readAll] at h
  split at h
  · next fault hlist =>
    exact .inl (Except.error.inj h ▸ isReported_storage_iff.2 (Disk.isRefusal_of_listFiles hlist))
  · next names hlist => exact .inr ⟨names, hlist, readEach_eq_error_iff.1 h⟩

/-- Whatever is wrong with a fragment is reported. -/
lemma isReported_of_fragments (h : fragments disk p = .error failure) : failure.isReported := by
  rcases readAll_eq_error h with h | ⟨names, hlist, front, name, rest, rfl, -, hread⟩
  · exact h
  · exact isReported_of_readText (isPlain_child_of_listFiles hlist (by simp)) hread

/-- What is wrong with a data document is reported, unless it is the size of a number or the depth
of its containers. -/
lemma readDocument_eq_error {nesting : Nat} (hp : p.IsPlain)
    (h : readDocument nesting disk p = .error failure) :
    failure.isReported ∨ ∃ text, readText .source disk p = .ok text ∧
      ((∃ fault, Json.read nesting text = .error (.digits fault) ∧ failure = .digits fault) ∨
        ∃ container, Json.read nesting text = .error (.nesting container) ∧
          failure = .nesting container) := by
  rcases except_bind_eq_error.1 h with htext | ⟨text, htext, h⟩
  · exact .inl (isReported_of_readText hp htext)
  · split at h
    · exact nomatch h
    · exact .inl (Except.error.inj h ▸ rfl)
    · next fault hread => exact .inr ⟨text, htext, .inl ⟨fault, hread, (Except.error.inj h).symm⟩⟩
    · next container hread =>
      exact .inr ⟨text, htext, .inr ⟨container, hread, (Except.error.inj h).symm⟩⟩

/-- That a file that may be missing cannot be read as a text is reported too. -/
lemma isReported_of_optional {α : Type} {purpose : Purpose} {view : Text → α} {absent : α}
    (hp : p.IsPlain) (h : (match disk.read p with
      | .ok content => (decode purpose p content).map view
      | .error (.system .noEntry _ _) => .ok absent
      | .error fault => .error (unreadable purpose p fault)) = .error failure) :
    failure.isReported := by
  split at h
  · next content _ =>
    cases hdecode : decode purpose p content with
    | ok text => simp [hdecode, Except.map] at h
    | error other =>
      obtain rfl : other = failure := by simpa [hdecode, Except.map] using h
      exact isReported_of_decode hdecode
  · simp at h
  · next fault _ hread =>
    exact Except.error.inj h ▸ isReported_unreadable purpose p (Disk.isRefusal_of_read hp hread)

lemma isReported_of_readTemplate (hp : p.IsPlain) (h : readTemplate disk p = .error failure) :
    failure.isReported :=
  isReported_of_optional hp h

/-- A path that never reaches the disk leads to no template. -/
lemma readTemplate_of_fault? {fault : Fault} (hfault : p.fault? = some fault)
    (hnot : ¬ fault.IsRefusal) : readTemplate disk p = .error (.storage fault) := by
  have hread : disk.read p = .error fault := by simp [Disk.read, Disk.find, Disk.follow, hfault]
  obtain rfl | ⟨surrogates, rfl⟩ | rfl := Path.fault?_cases hfault
  · simp [readTemplate, hread, unreadable]
  · simp [readTemplate, hread, unreadable]
  · exact absurd trivial hnot

lemma isRefusal_of_discover {styles scripts : Path} {fault : Fault}
    (h : discover disk styles scripts = .error fault) : fault.IsRefusal := by
  rcases except_bind_eq_error.1 h with h | ⟨_, -, h⟩
  · exact Disk.isRefusal_of_listFiles h
  · rcases except_bind_eq_error.1 h with h | ⟨_, -, h⟩
    · exact Disk.isRefusal_of_listFiles h
    · exact nomatch h

lemma contents_eq_error {read : AssetKind → Text → Except Failure (Option Text)}
    {kind : AssetKind} {names : List Text} (h : Page.contents read kind names = .error failure) :
    ∃ name ∈ names, read kind name = .error failure := by
  induction names with
  | nil => exact nomatch h
  | cons name names ih =>
    rcases except_bind_eq_error.1 h with hname | ⟨found, -, h⟩
    · exact ⟨name, by simp, hname⟩
    · rcases except_bind_eq_error.1 h with hrest | ⟨rest, -, h⟩
      · obtain ⟨other, hmem, hother⟩ := ih hrest
        exact ⟨other, by simp [hmem], hother⟩
      · exact nomatch h

lemma isReported_of_readAsset {styles scripts : Path} {kind : AssetKind} {name : Text}
    (hname : validName name)
    (hplain : (Path.join (match kind with
      | .style => styles
      | .script => scripts) name).IsPlain)
    (h : readAsset disk styles scripts kind name = .error failure) : failure.isReported := by
  have hlast : (Path.parse name).name = name := by
    rw [Path.parse_of_validName hname]
    rfl
  unfold readAsset at h
  rw [hlast] at h
  exact isReported_of_optional hplain h

/-- Whatever is wrong with the assets that become part of a page is reported. -/
lemma isReported_of_slotTexts {manifest : Manifest}
    (hmanifest : discover disk config.styles config.scripts = .ok manifest)
    (h : slotTexts disk config manifest = .error failure) : failure.isReported := by
  obtain ⟨styles, hstyles, hrest⟩ := except_bind_eq_ok.1 hmanifest
  obtain ⟨scripts, hscripts, hlast⟩ := except_bind_eq_ok.1 hrest
  obtain rfl := Except.ok.inj hlast
  rw [slotTexts] at h
  split at h
  · simp at h
  · rcases except_bind_eq_error.1 h with h | ⟨_, -, h⟩
    · obtain ⟨name, hmem, hread⟩ := contents_eq_error h
      exact isReported_of_readAsset (Disk.validName_of_listFiles hstyles hmem)
        (isPlain_join_of_listFiles hstyles hmem) hread
    · rcases except_bind_eq_error.1 h with h | ⟨_, -, h⟩
      · obtain ⟨name, hmem, hread⟩ := contents_eq_error h
        exact isReported_of_readAsset (Disk.validName_of_listFiles hscripts hmem)
          (isPlain_join_of_listFiles hscripts hmem) hread
      · cases h

/-! ## What spoils a page -/

/-- Loading the data documents comes to one with this text. -/
def ComesTo (settings : Settings) (config : Config) (disk : Disk) (text : Text) : Prop :=
  ∃ front name rest, disk.listFiles config.data dataEnding = .ok (front ++ name :: rest) ∧
    (∀ other ∈ front, ∃ value,
      readDocument settings.nesting disk (config.data.child other) = .ok value) ∧
    readText .source disk (config.data.child name) = .ok text

/-- What is wrong with the text of a document ends the loading of the documents. -/
lemma ComesTo.documents {text : Text} (h : ComesTo settings config disk text)
    (hcause : (∃ fault, Json.read settings.nesting text = .error (.digits fault) ∧
        failure = .digits fault) ∨
      ∃ container, Json.read settings.nesting text = .error (.nesting container) ∧
        failure = .nesting container) :
    documents settings.nesting disk config.data = .error failure := by
  obtain ⟨front, name, rest, hlist, hfront, htext⟩ := h
  have hname : readDocument settings.nesting disk (config.data.child name) = .error failure := by
    rw [readDocument, htext]
    rcases hcause with ⟨fault, hread, rfl⟩ | ⟨container, hread, rfl⟩
    · simp only [bind, Except.bind, hread]
      rfl
    · simp only [bind, Except.bind, hread]
      rfl
  rw [Site.documents, readAll, hlist]
  exact readEach_eq_error_iff.2 ⟨front, name, rest, rfl, hfront, hname⟩

/-- Resolving the template with these data comes to a placeholder with this path. -/
structure AsksFor (settings : Settings) (config : Config) (disk : Disk) (data : Keyed Json.Value)
    (found : Keyed Text) (path : List Text) : Prop where
  /-- The documents have been loaded. -/
  documents : Site.documents settings.nesting disk config.data = .ok data
  /-- So have the fragments. -/
  fragments : Site.fragments disk config.components = .ok found
  /-- The placeholder is in the template, and each one before it can be looked up. -/
  template : ∃ template usedDefault front raw rest,
    readTemplate disk config.template = .ok (template, usedDefault) ∧
    Template.scan template = front ++ .data raw path :: rest ∧
    ∀ token ∈ front, ∃ text,
      token.replacement ⟨.object data, found, settings.encoder⟩ = .ok text

/-- **What spoils a page** without being reported. -/
inductive Spoils (settings : Settings) (config : Config) (disk : Disk) : Failure → Prop
  /-- A number in a data document has too many digits. -/
  | digits {text : Text} {fault : Numeral.TooLong} (htext : ComesTo settings config disk text)
      (hread : Json.read settings.nesting text = .error (.digits fault)) :
      Spoils settings config disk (.digits fault)
  /-- Containers in a data document lie too deep inside each other. -/
  | nesting {text : Text} {container : Json.Container} (htext : ComesTo settings config disk text)
      (hread : Json.read settings.nesting text = .error (.nesting container)) :
      Spoils settings config disk (.nesting container)
  /-- The path to the template never reaches the disk. -/
  | template {data : Keyed Json.Value} {found : Keyed Text} {fault : Fault}
      (hdata : documents settings.nesting disk config.data = .ok data)
      (hfound : fragments disk config.components = .ok found)
      (hfault : config.template.fault? = some fault) (hnot : ¬ fault.IsRefusal) :
      Spoils settings config disk (.storage fault)
  /-- The path of a placeholder in the template overruns. -/
  | placeholder {data : Keyed Json.Value} {found : Keyed Text} {path : List Text} {digits : Nat}
      (hasks : AsksFor settings config disk data found path)
      (hoverruns : Template.Overruns (.object data) path digits) :
      Spoils settings config disk (.digits ⟨digits⟩)
  /-- It leads to a value that cannot be written. -/
  | value {data : Keyed Json.Value} {found : Keyed Text} {path : List Text} {v : Json.Value}
      (hasks : AsksFor settings config disk data found path)
      (hv : Template.lookup (.object data) path = .ok (some v))
      (hbeyond : Template.IsBeyond settings.encoder v) :
      Spoils settings config disk (.unwritable .nesting)

/-- A placeholder whose value is not shown keeps the page from being put together. -/
lemma AsksFor.gather {data : Keyed Json.Value} {found : Keyed Text} {path : List Text}
    {fault : Template.ShowFault} (h : AsksFor settings config disk data found path)
    (hunshown : Template.Unshown ⟨.object data, found, settings.encoder⟩ path fault) :
    gather settings config disk = .error (.ofShow fault) := by
  obtain ⟨hdata, hfound, template, usedDefault, front, raw, rest, htemplate, hscan, hfront⟩ := h
  have hresolve := Template.resolveTokens_eq_error_iff.2 ⟨_, _, _, hscan, hfront,
    Template.Token.replacement_eq_error_iff.2 ⟨_, _, rfl, hunshown⟩⟩
  simp [Site.gather, hdata, hfound, htemplate, resolveTemplate, Template.resolve, hresolve, bind,
    Except.bind, Except.mapError]

/-- Putting a page together fails without a report only if something spoils it. -/
lemma spoils_of_gather (h : gather settings config disk = .error failure)
    (hnot : failure.isReported = false) : Spoils settings config disk failure := by
  have hreported : ¬ failure.isReported := by simp [hnot]
  rcases except_bind_eq_error.1 h with h | ⟨data, hdata, h⟩
  · -- a data document cannot be used
    obtain ⟨names, hlist, front, name, rest, rfl, hfront, hname⟩ :=
      (readAll_eq_error h).resolve_left hreported
    obtain ⟨text, htext, hcause⟩ := (readDocument_eq_error
      (isPlain_child_of_listFiles hlist (by simp)) hname).resolve_left hreported
    have hcomes : ComesTo settings config disk text := ⟨front, name, rest, hlist, hfront, htext⟩
    rcases hcause with ⟨fault, hread, rfl⟩ | ⟨container, hread, rfl⟩
    · exact .digits hcomes hread
    · exact .nesting hcomes hread
  rcases except_bind_eq_error.1 h with h | ⟨found, hfound, h⟩
  · exact absurd (isReported_of_fragments h) hreported
  rcases except_bind_eq_error.1 h with h | ⟨⟨template, usedDefault⟩, htemplate, h⟩
  · -- the template cannot be read
    rcases config.template.isPlain_or with hplain | ⟨fault, hfault, hrefused⟩
    · exact absurd (isReported_of_readTemplate hplain h) hreported
    · rw [readTemplate_of_fault? hfault hrefused] at h
      obtain rfl := Except.error.inj h
      exact .template hdata hfound hfault hrefused
  rcases except_bind_eq_error.1 h with h | ⟨resolved, -, h⟩
  · -- a placeholder cannot be looked up
    obtain ⟨fault, hresolve, rfl⟩ := mapError_eq_error.1 h
    obtain ⟨front, token, rest, hscan, hfront, htoken⟩ :=
      Template.resolveTokens_eq_error_iff.1 hresolve
    obtain ⟨raw, path, rfl, hunshown⟩ := Template.Token.replacement_eq_error_iff.1 htoken
    have hasks : AsksFor settings config disk data found path :=
      ⟨hdata, hfound, template, usedDefault, front, raw, rest, htemplate, hscan, hfront⟩
    cases hunshown with
    | digits hoverruns => exact .placeholder hasks hoverruns
    | beyond hv hbeyond => exact .value hasks hv hbeyond
  rcases except_bind_eq_error.1 h with h | ⟨manifest, hmanifest, h⟩
  · obtain ⟨fault, hdiscover, rfl⟩ := mapError_eq_error.1 h
    exact absurd (isReported_storage_iff.2 (isRefusal_of_discover hdiscover)) hreported
  rcases except_bind_eq_error.1 h with h | ⟨slots, -, h⟩
  · exact absurd (isReported_of_slotTexts (mapError_eq_ok.1 hmanifest) h) hreported
  · exact nomatch h

/-- Whatever spoils a page keeps it from being put together. -/
lemma Spoils.gather (h : Spoils settings config disk failure) :
    gather settings config disk = .error failure ∧ failure.isReported = false := by
  cases h with
  | digits htext hread =>
    refine ⟨?_, rfl⟩
    simp [gather, htext.documents (.inl ⟨_, hread, rfl⟩), bind, Except.bind]
  | nesting htext hread =>
    refine ⟨?_, rfl⟩
    simp [gather, htext.documents (.inr ⟨_, hread, rfl⟩), bind, Except.bind]
  | template hdata hfound hfault hnot =>
    refine ⟨?_, by simpa using mt isReported_storage_iff.1 hnot⟩
    simp [gather, hdata, hfound, readTemplate_of_fault? hfault hnot, bind, Except.bind]
  | placeholder hasks hoverruns => exact ⟨hasks.gather (.digits hoverruns), rfl⟩
  | value hasks hv hbeyond => exact ⟨hasks.gather (.beyond hv hbeyond), rfl⟩

/-! ## What a build does not report -/

/-- **Copying assets proceeds** beside a page that has just been written. -/
lemma proceeds_copyAssets {ready written : Disk} {html : Text}
    (hoffers : ready.Offers config.output)
    (hwrite : Storage.writeAtomically settings.chain config.page html ready = .ok () written) :
    Storage.Proceeds (copyAssets settings.chain config) written fun _ _ => True := by
  have hcopies {name : Text} (hname : validName name) :
      config.output.join name = config.output.child name :=
    Path.join_of_validName hname config.output
  obtain ⟨place, hplace, hdirectory⟩ := Disk.isDirectory_eq_true_iff.1 hoffers.directory
  have hwritten :=
    Storage.written_of_writeAtomically (config.parent_page ▸ hplace) hdirectory hwrite
  have hnow := hwritten.isDirectory_or_refuses settings.chain (config.parent_page ▸ hplace)
    hdirectory config.validName_page
  rw [config.parent_page] at hnow
  rw [copyAssets, hcopies (by decide), hcopies (by decide), hcopies (by decide)]
  rcases hnow with hstill | hrefuses
  · have hstyles : written.Offers config.output := ⟨hoffers.clean, hstill⟩
    refine Storage.proceeds_bind (Storage.proceeds_copyTree hstyles (by decide))
      fun _ _ hgrows _ => ?_
    have hscripts := hstyles.grows hgrows
    refine Storage.proceeds_bind (Storage.proceeds_copyTree hscripts (by decide))
      fun _ _ hgrows _ => ?_
    have hassets := hscripts.grows hgrows
    exact Storage.proceeds_bind (Storage.proceeds_copyTree hassets (by decide))
      fun _ _ _ _ => Storage.proceeds_pure trivial
  · -- the page has taken the place of a link that led to its directory
    have hcopy (source : Path) {name : Text} (hname : validName name) :
        Storage.Proceeds (Storage.copyTree settings.chain source (config.output.child name)) written
          fun _ after => after = written := by
      obtain ⟨fault, hfault, hrefused⟩ := hrefuses name hname
      exact Storage.proceeds_copyTree_of_error hfault hrefused
    refine Storage.proceeds_bind (hcopy config.styles (by decide)) ?_
    rintro _ _ - rfl
    refine Storage.proceeds_bind (hcopy config.scripts (by decide)) ?_
    rintro _ _ - rfl
    exact Storage.proceeds_bind (hcopy config.assets (by decide))
      fun _ _ _ _ => Storage.proceeds_pure trivial

/-- **What a build does not report.** -/
inductive Escapes (settings : Settings) (config : Config) (disk : Disk) (now : Float) :
    Failure → Prop
  /-- The path to the output directory never reaches the disk. -/
  | output {fault : Fault} (hfault : config.output.fault? = some fault)
      (hnot : ¬ fault.IsRefusal) : Escapes settings config disk now (.storage fault)
  /-- Too many directories on the way to the output directory are missing. -/
  | deep {after : Disk}
      (hmake : Storage.ensureDirectory settings.chain config.output disk = .error .tooDeep after) :
      Escapes settings config disk now (.storage .tooDeep)
  /-- Something spoils the page. -/
  | sources {failure : Failure} {ready : Disk}
      (hready : Storage.ensureDirectory settings.chain config.output disk = .ok () ready)
      (hspoils : Spoils settings config ready failure) :
      Escapes settings config disk now failure
  /-- The page holds a surrogate, which is found out when it is to be written. -/
  | page {ready made : Disk} {materials : Materials} {place : Storage.Location}
      {surrogates : Utf8.EncodeFault}
      (hready : Storage.ensureDirectory settings.chain config.output disk = .ok () ready)
      (hgather : gather settings config ready = .ok materials)
      (hmade : Storage.createNew (Storage.temporaryPath ready config.page) ready = .ok place made)
      (hsurrogates : Utf8.firstSurrogates? 0 materials.html = some surrogates) :
      Escapes settings config disk now (.storage (.unencodable surrogates))
  /-- The time that it took is none. -/
  | clock {ready written copied : Disk} {materials : Materials} {count : Nat}
      {fault : Decimal.RangeFault}
      (hready : Storage.ensureDirectory settings.chain config.output disk = .ok () ready)
      (hgather : gather settings config ready = .ok materials)
      (hwrite : Storage.writeAtomically settings.chain config.page materials.html ready =
        .ok () written)
      (hcopy : copyAssets settings.chain config written = .ok count copied)
      (hclock : Decimal.milliseconds now now = .error fault) :
      Escapes settings config disk now (.range fault)

/-- A build fails without a report only for one of these causes. -/
lemma escapes_of_build {world after : World} (hclean : config.output.IsClean)
    (hbuild : build settings config world = .error failure after)
    (hnot : failure.isReported = false) :
    Escapes settings config world.disk world.clock failure := by
  have hreported : ¬ failure.isReported := by simp [hnot]
  rcases exists_build_eq_error_iff.1 ⟨after, hbuild⟩ with
    ⟨left, h⟩ | ⟨prepared, written, hpublish, left, h⟩
  · rcases publishing_eq_error.1 h with ⟨fault, hmake, rfl⟩ |
      ⟨ready, hready, ⟨hsurvey, -⟩ | ⟨prepared, hsurvey, fault, hwrite, rfl⟩⟩
    · -- the output directory cannot be made
      have hrefused := mt isReported_storage_iff.2 hreported
      rcases config.output.isPlain_or with hplain | ⟨other, hfault, hother⟩
      · obtain rfl := (Storage.ensureDirectory_error hplain hmake).resolve_left hrefused
        exact .deep hmake
      · rw [Storage.ensureDirectory_of_fault? hfault hother] at hmake
        obtain ⟨rfl, -⟩ := EStateM.Result.error.inj hmake
        exact .output hfault hother
    · exact .sources hready (spoils_of_gather (survey_eq_error_iff.1 hsurvey) hnot)
    · -- the page cannot be written
      have hoffers : ready.Offers config.output :=
        ⟨hclean, Storage.isDirectory_of_ensureDirectory hclean hready⟩
      have hplain : config.page.IsPlain := config.page_eq ▸ hoffers.isPlain.child (by decide)
      obtain ⟨materials, hgather, hhtml⟩ := gather_of_survey hsurvey
      obtain ⟨place, made, surrogates, hmade, hsurrogates, rfl⟩ :=
        (Storage.writeAtomically_error (config.parent_page.symm ▸ hoffers.directory) hplain
          (config.name_page ▸ by decide) hwrite).resolve_left
          (mt isReported_storage_iff.2 hreported)
      exact .page hready hgather hmade (hhtml ▸ hsurrogates)
  · obtain ⟨ready, hready, hsurvey, hwrite⟩ := publishing_eq_ok.1 hpublish
    rcases concluding_eq_error.1 h with ⟨fault, hcopy, rfl⟩ | ⟨count, hcopy, fault, hclock, rfl⟩
    · have hoffers : ready.Offers config.output :=
        ⟨hclean, Storage.isDirectory_of_ensureDirectory hclean hready⟩
      exact absurd (isReported_storage_iff.2
        ((proceeds_copyAssets hoffers hwrite).isRefusal hcopy)) hreported
    · obtain ⟨materials, hgather, hhtml⟩ := gather_of_survey hsurvey
      have hstart := start_of_survey hsurvey
      exact .clock hready hgather (hhtml.symm ▸ hwrite) hcopy (hstart ▸ hclock)

/-- Each of these causes ends a build. -/
lemma Escapes.build {world : World} (hclean : config.output.IsClean)
    (h : Escapes settings config world.disk world.clock failure) :
    (∃ after, build settings config world = .error failure after) ∧ failure.isReported = false := by
  rw [exists_build_eq_error_iff]
  cases h with
  | output hfault hnot =>
    exact ⟨.inl ⟨_, publishing_eq_error.2
      (.inl ⟨_, Storage.ensureDirectory_of_fault? hfault hnot, rfl⟩)⟩,
      by simpa using mt isReported_storage_iff.1 hnot⟩
  | deep hmake => exact ⟨.inl ⟨_, publishing_eq_error.2 (.inl ⟨_, hmake, rfl⟩)⟩, rfl⟩
  | sources hready hspoils =>
    obtain ⟨hgather, hnot⟩ := hspoils.gather
    exact ⟨.inl ⟨_, publishing_eq_error.2
      (.inr ⟨_, hready, .inl ⟨survey_eq_error_iff.2 hgather, rfl⟩⟩)⟩, hnot⟩
  | page hready hgather hmade hsurrogates =>
    have hparent := Storage.isDirectory_of_ensureDirectory hclean hready
    obtain ⟨prepared, hsurvey, hhtml⟩ := survey_of_gather world.clock hgather
    obtain ⟨left, hwrite⟩ := Storage.writeAtomically_of_surrogates
      (config.parent_page.symm ▸ hparent) hmade (hhtml.symm ▸ hsurrogates)
    exact ⟨.inl ⟨left, publishing_eq_error.2
      (.inr ⟨_, hready, .inr ⟨prepared, hsurvey, _, hwrite, rfl⟩⟩)⟩, rfl⟩
  | clock hready hgather hwrite hcopy hclock =>
    obtain ⟨prepared, hsurvey, hhtml⟩ := survey_of_gather world.clock hgather
    have hpublish := publishing_eq_ok.2 ⟨_, hready, hsurvey, hhtml.symm ▸ hwrite⟩
    refine ⟨.inr ⟨prepared, _, hpublish, _,
      concluding_eq_error.2 (.inr ⟨_, hcopy, _, ?_, rfl⟩)⟩, rfl⟩
    rw [start_of_survey hsurvey]
    exact hclock

/-- **Why a build fails with something that is not reported**: exactly for one of these causes. -/
theorem escapes_iff {world : World} (hclean : config.output.IsClean) :
    (∃ after, build settings config world = .error failure after) ∧ failure.isReported = false ↔
      Escapes settings config world.disk world.clock failure :=
  ⟨fun ⟨⟨_, hbuild⟩, hnot⟩ => escapes_of_build hclean hbuild hnot, Escapes.build hclean⟩

end Site

end OnePage
