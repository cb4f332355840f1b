import OnePage.Proofs.Site.Materials
import OnePage.Proofs.Storage.Keep

/-!
# What a build does, step by step

A build makes its directory, looks for everything that its page is made of, writes the page, copies
assets and tells how long that has taken.  In between it says something, which makes no difference
to any of this.

* `Does` — a program does what an operation on the disk does; the lemmas around it put steps
  together.
* `publish` and `conclude` are the two parts of a build, up to the page and from there; `build_eq`
  puts them together.
* `publishing` and `concluding` are what these two do to the disk.
* **`does_build`** — a build does these things and nothing else to the disk, whether it succeeds or
  fails.
* **`build_steps`** — the steps of a build that succeeds, with what each of them gives.
* `build_of_steps` — a build for which all steps can be taken succeeds with what they give.
* `publishing_eq_error`, `concluding_eq_error` and `exists_build_eq_error_iff` — where a build
  fails.
* `ensures_build` — what the steps keep is kept by the build, also if it fails.
-/

namespace OnePage

namespace Site

open Storage (Disk Path Operation Ensures)

variable {α β : Type} {settings : Settings} {config : Config} {world after : World}
  {failure : Failure} {now : Float} {a : α}

/-! ## What a program does -/

/-- Looks at the disk, as an operation that changes nothing. -/
def inspect (look : Disk → Except Failure α) : EStateM Failure Disk α := fun disk =>
  match look disk with
  | .ok a => .ok a disk
  | .error failure => .error failure disk

/-- An operation on the disk whose faults are failures of a program. -/
def perform (operation : Operation α) : EStateM Failure Disk α :=
  EStateM.adaptExcept .storage operation

/-- What something that is done to a disk comes to among everything else that there is. -/
def among (console : Console) (now : Float) :
    EStateM.Result Failure Disk α → EStateM.Result Failure World α
  | .ok a disk => .ok a ⟨disk, console, now⟩
  | .error failure disk => .error failure ⟨disk, console, now⟩

/-- **What a program does.**  At a certain time, it comes to what an operation on the disk comes to.
Besides it may say things, and no time passes. -/
def Does (now : Float) (program : Program α) (operation : EStateM Failure Disk α) : Prop :=
  ∀ world, world.clock = now → ∃ console, program world = among console now (operation world.disk)

section Looking

variable {disk left : Disk} {look : Disk → Except Failure α}

lemma inspect_eq_ok : inspect look disk = .ok a left ↔ look disk = .ok a ∧ left = disk := by
  rw [inspect]
  cases look disk <;> simp [eq_comm]

lemma inspect_eq_error :
    inspect look disk = .error failure left ↔ look disk = .error failure ∧ left = disk := by
  rw [inspect]
  cases look disk <;> simp [eq_comm]

lemma inspect_bind (look : Disk → Except Failure α) (next : α → Disk → Except Failure β) :
    inspect (fun disk => look disk >>= fun a => next a disk) =
      inspect look >>= fun a => inspect (next a) := by
  funext disk
  simp only [inspect, bind, EStateM.bind, Except.bind]
  cases look disk <;> rfl

lemma ensures_inspect {keeps : Disk → Prop} (look : Disk → Except Failure α) :
    Ensures keeps (inspect look) fun _ => True := by
  intro disk hdisk
  rw [inspect]
  cases look disk with
  | ok a => exact ⟨hdisk, trivial⟩
  | error failure => exact hdisk

variable {operation : Operation α}

lemma perform_eq_ok : perform operation disk = .ok a left ↔ operation disk = .ok a left := by
  rw [perform, EStateM.adaptExcept]
  cases operation disk <;> simp

lemma perform_eq_error : perform operation disk = .error failure left ↔
    ∃ fault, operation disk = .error fault left ∧ failure = .storage fault := by
  rw [perform, EStateM.adaptExcept]
  cases operation disk <;> simp [and_comm, eq_comm]

lemma ensures_perform {keeps : Disk → Prop} {post : α → Prop} (h : Ensures keeps operation post) :
    Ensures keeps (perform operation) post := by
  intro disk hdisk
  have hresult := h disk hdisk
  rw [perform, EStateM.adaptExcept]
  generalize operation disk = result at hresult ⊢
  cases result with
  | ok a after => exact hresult
  | error fault after => exact hresult

end Looking

lemma consult_eq_ok {look : Disk → Except Failure α} :
    consult look world = .ok a after ↔ look world.disk = .ok a ∧ after = world := by
  rw [consult]
  cases look world.disk <;> simp [eq_comm]

section Does

variable {program : Program α} {next : α → Program β} {operation : EStateM Failure Disk α}

lemma does_pure (a : α) : Does now (pure a) (pure a) := by
  rintro world rfl
  exact ⟨world.console, rfl⟩

lemma does_bind {following : α → EStateM Failure Disk β} (h : Does now program operation)
    (hnext : ∀ a, Does now (next a) (following a)) :
    Does now (program >>= next) (operation >>= following) := by
  intro world hnow
  obtain ⟨console, hprogram⟩ := h world hnow
  simp only [bind, EStateM.bind, hprogram]
  cases operation world.disk with
  | ok a disk => exact hnext a ⟨disk, console, now⟩ rfl
  | error failure disk => exact ⟨console, rfl⟩

lemma does_consult (look : Disk → Except Failure α) : Does now (consult look) (inspect look) := by
  rintro world rfl
  refine ⟨world.console, ?_⟩
  rw [consult, inspect]
  cases look world.disk <;> rfl

lemma does_onDisk (operation : Operation α) : Does now (onDisk operation) (perform operation) := by
  rintro world rfl
  refine ⟨world.console, ?_⟩
  rw [onDisk, perform, EStateM.adaptExcept]
  cases operation world.disk <;> rfl

/-- One look, and then others. -/
lemma does_look {look : Disk → Except Failure α} {others : α → Disk → Except Failure β}
    (h : ∀ a, Does now (next a) (inspect (others a))) :
    Does now (consult look >>= next) (inspect fun disk => look disk >>= fun a => others a disk) :=
  inspect_bind look others ▸ does_bind (does_consult look) h

lemma does_speak {next : Unit → Program α} (speech : Console → Console)
    (h : Does now (next ()) operation) : Does now (speak speech >>= next) operation :=
  fun world hnow => h { world with console := speech world.console } hnow

lemma does_time {next : Float → Program α} (h : Does now (next now) operation) :
    Does now (time >>= next) operation := by
  rintro world rfl
  exact h world rfl

lemma does_get {next : World → Program α} (h : ∀ w, Does now (next w) operation) :
    Does now (get >>= next) operation := fun world hnow => h world world hnow

/-- Whether or not something is said on the way makes no difference. -/
lemma does_ite {c : Prop} [Decidable c] {speech : Console → Console} {first second : Program α}
    {next : Unit → Program α} (hfirst : first = next () ∨ first = (speak speech >>= next))
    (hsecond : second = next () ∨ second = (speak speech >>= next))
    (h : Does now (next ()) operation) : Does now (if c then first else second) operation := by
  have hany : ∀ program, program = next () ∨ program = (speak speech >>= next) →
      Does now program operation := by
    rintro program (rfl | rfl)
    · exact h
    · exact does_speak speech h
  split
  · exact hany first hfirst
  · exact hany second hsecond

namespace Does

lemma ok (h : Does world.clock program operation) (hprogram : program world = .ok a after) :
    operation world.disk = .ok a after.disk ∧ after.clock = world.clock := by
  obtain ⟨console, hsame⟩ := h world rfl
  rw [hprogram] at hsame
  cases hoperation : operation world.disk with
  | ok b disk =>
    rw [hoperation] at hsame
    obtain ⟨rfl, rfl⟩ := EStateM.Result.ok.inj hsame
    exact ⟨rfl, rfl⟩
  | error failure disk =>
    rw [hoperation] at hsame
    cases hsame

lemma error (h : Does world.clock program operation)
    (hprogram : program world = .error failure after) :
    operation world.disk = .error failure after.disk := by
  obtain ⟨console, hsame⟩ := h world rfl
  rw [hprogram] at hsame
  cases hoperation : operation world.disk with
  | ok b disk =>
    rw [hoperation] at hsame
    cases hsame
  | error other disk =>
    rw [hoperation] at hsame
    obtain ⟨rfl, rfl⟩ := EStateM.Result.error.inj hsame
    rfl

lemma of_ok {disk : Disk} (h : Does world.clock program operation)
    (hoperation : operation world.disk = .ok a disk) :
    ∃ after, program world = .ok a after ∧ after.disk = disk := by
  obtain ⟨console, hsame⟩ := h world rfl
  rw [hoperation] at hsame
  exact ⟨_, hsame, rfl⟩

lemma of_error {disk : Disk} (h : Does world.clock program operation)
    (hoperation : operation world.disk = .error failure disk) :
    ∃ after, program world = .error failure after ∧ after.disk = disk := by
  obtain ⟨console, hsame⟩ := h world rfl
  rw [hoperation] at hsame
  exact ⟨_, hsame, rfl⟩

/-- **What the operation keeps, the program keeps.** -/
lemma ensures {operation : Float → EStateM Failure Disk α} {keeps : Disk → Prop} {post : α → Prop}
    (h : ∀ now, Does now program (operation now))
    (hkeeps : ∀ now, Ensures keeps (operation now) post) :
    Ensures (fun world : World => keeps world.disk) program post := by
  intro world hworld
  obtain ⟨console, hsame⟩ := h world.clock world rfl
  have hresult := hkeeps world.clock world.disk hworld
  rw [hsame]
  cases hoperation : operation world.clock world.disk with
  | ok a disk =>
    rw [hoperation] at hresult
    exact hresult
  | error failure disk =>
    rw [hoperation] at hresult
    exact hresult

end Does

end Does

/-! ## The page and the rest -/

/-- Finds out everything for the page. -/
def prepare (settings : Settings) (config : Config) (start : Float) : Program Prepared := do
  inform "Loading data files..."
  let data ← loadData settings config.data
  inform "Loading components..."
  let fragments ← loadFragments settings config.components
  inform "Building HTML..."
  let (template, usedDefault) ← consult fun disk => readTemplate disk config.template
  if usedDefault then
    inform ("No template at " ++ config.template.text ++ "; using the built-in default")
  let resolved ← consult fun _ => resolveTemplate settings data fragments template
  let manifest ← consult fun disk =>
    (discover disk config.styles config.scripts).mapError .storage
  let html ← consult fun disk => linkAssets disk config resolved.text manifest
  return ⟨start, data, fragments, usedDefault, resolved, manifest, html⟩

/-- A build up to and with the page. -/
def publish (settings : Settings) (config : Config) : Program Prepared := do
  let start ← time
  inform ("Building " ++ config.source.text ++ " -> " ++ config.output.text ++ " (mode=" ++
    config.mode.word ++ ")")
  onDisk (Storage.ensureDirectory settings.chain config.output)
  let prepared ← prepare settings config start
  onDisk (Storage.writeAtomically settings.chain config.page prepared.html)
  return prepared

/-- The rest of a build: it copies the assets and says what it has done. -/
def conclude (settings : Settings) (config : Config) (prepared : Prepared) :
    Program BuildResult := do
  unless prepared.resolved.missed.isEmpty do warn (unresolvedMessage prepared.resolved.missed)
  inform "Processing assets..."
  let copied ← onDisk (copyAssets settings.chain config)
  let finish ← time
  let elapsed ← consult fun _ => (Decimal.milliseconds prepared.start finish).mapError .range
  inform ("Build completed: " ++ (config.page.absolute (← get).disk.here).text)
  observe settings "pipeline" "build.ok" [
    ("ms", Numeral.ofInt elapsed),
    ("mode", config.mode.word),
    ("data", Numeral.ofNat prepared.data.length),
    ("fragments", Numeral.ofNat prepared.fragments.length),
    ("styles", Numeral.ofNat prepared.manifest.styles.length),
    ("scripts", Numeral.ofNat prepared.manifest.scripts.length),
    ("copied", Numeral.ofNat copied),
    ("unresolved", Numeral.ofNat prepared.resolved.missed.length)]
  return {
    page := config.page
    mode := config.mode
    dataKeys := Keyed.keys prepared.data
    fragmentNames := Keyed.keys prepared.fragments
    manifest := prepared.manifest
    usedDefault := prepared.usedDefault
    unresolved := prepared.resolved.missed
    copied
    elapsed }

lemma ite_bind {c : Prop} [Decidable c] (first second : Program α) (next : α → Program β) :
    (if c then first else second) >>= next = if c then first >>= next else second >>= next := by
  split <;> rfl

/-- A build makes its page and concludes. -/
lemma build_eq : build settings config = publish settings config >>= conclude settings config := by
  simp only [build, publish, prepare, conclude, bind_assoc, pure_bind, ite_bind]

/-! ## What a build does -/

/-- What a build tells about what it has found, copied and taken. -/
def Prepared.told (config : Config) (prepared : Prepared) (copied : Nat) (elapsed : Int) :
    BuildResult where
  page := config.page
  mode := config.mode
  dataKeys := Keyed.keys prepared.data
  fragmentNames := Keyed.keys prepared.fragments
  manifest := prepared.manifest
  usedDefault := prepared.usedDefault
  unresolved := prepared.resolved.missed
  copied
  elapsed

/-- What a build does up to and with the page. -/
def publishing (settings : Settings) (config : Config) (now : Float) :
    EStateM Failure Disk Prepared := do
  perform (Storage.ensureDirectory settings.chain config.output)
  let prepared ← inspect (survey settings config now)
  perform (Storage.writeAtomically settings.chain config.page prepared.html)
  return prepared

/-- What the rest of a build does. -/
def concluding (settings : Settings) (config : Config) (now : Float) (prepared : Prepared) :
    EStateM Failure Disk BuildResult := do
  let copied ← perform (copyAssets settings.chain config)
  let elapsed ← inspect fun _ => (Decimal.milliseconds prepared.start now).mapError .range
  return prepared.told config copied elapsed

/-- Loading says something and looks. -/
lemma does_load (look : Disk → Except Failure α) (speech : α → Console → Console) :
    Does now (consult look >>= fun found => speak (speech found) >>= fun _ => pure found)
      (inspect look) := by
  have hlook : inspect look = inspect look >>= pure := (bind_pure _).symm
  rw [hlook]
  exact does_bind (does_consult look) fun found => does_speak _ (does_pure found)

/-- Preparing a page is a survey. -/
lemma does_prepare (start : Float) :
    Does now (prepare settings config start) (inspect (survey settings config start)) := by
  simp only [prepare, loadData, loadFragments, bind_assoc, pure_bind]
  unfold survey
  refine does_speak _ ?_
  refine does_look fun data => ?_
  refine does_speak _ ?_
  refine does_speak _ ?_
  refine does_look fun found => ?_
  refine does_speak _ ?_
  refine does_speak _ ?_
  refine does_look fun template => ?_
  refine does_ite (.inr rfl) (.inl rfl) ?_
  refine does_look fun resolved => ?_
  refine does_look fun manifest => ?_
  refine does_look fun html => ?_
  exact does_pure _

/-- Up to and with the page, a build makes its directory, looks and writes. -/
lemma does_publish : Does now (publish settings config) (publishing settings config now) := by
  refine does_time ?_
  refine does_speak _ ?_
  refine does_bind (does_onDisk _) fun _ => ?_
  refine does_bind (does_prepare now) fun prepared => ?_
  refine does_bind (does_onDisk _) fun _ => ?_
  exact does_pure prepared

/-- Then it copies and tells. -/
lemma does_conclude (prepared : Prepared) :
    Does now (conclude settings config prepared) (concluding settings config now prepared) := by
  refine does_ite (.inl rfl) (.inr rfl) ?_
  refine does_speak _ ?_
  refine does_bind (does_onDisk _) fun copied => ?_
  refine does_time ?_
  refine does_bind (does_consult _) fun elapsed => ?_
  refine does_get fun _ => ?_
  refine does_speak _ ?_
  refine does_speak _ ?_
  exact does_pure _

/-- **What a build does to the disk.** -/
lemma does_build : Does now (build settings config)
    (publishing settings config now >>= concluding settings config now) :=
  build_eq ▸ does_bind does_publish does_conclude

/-! ## Builds that succeed -/

/-- **The steps of a build**, with what each of them gives and leaves behind. -/
structure BuildSteps (settings : Settings) (config : Config) (now : Float) (old : Disk)
    (result : BuildResult) (new : Disk) (ready written : Disk) (prepared : Prepared) : Prop where
  /-- The directory is made. -/
  make : Storage.ensureDirectory settings.chain config.output old = .ok () ready
  /-- Everything is found. -/
  survey : Site.survey settings config now ready = .ok prepared
  /-- The page is written. -/
  write : Storage.writeAtomically settings.chain config.page prepared.html ready = .ok () written
  /-- The assets are copied. -/
  copy : copyAssets settings.chain config written = .ok result.copied new
  /-- The time that has passed can be told. -/
  time : Decimal.milliseconds now now = .ok result.elapsed
  /-- All of that is told. -/
  tell : result = prepared.told config result.copied result.elapsed

variable {old new : Disk} {prepared : Prepared} {result : BuildResult}

lemma publishing_eq_ok : publishing settings config now old = .ok prepared new ↔
    ∃ ready, Storage.ensureDirectory settings.chain config.output old = .ok () ready ∧
      survey settings config now ready = .ok prepared ∧
      Storage.writeAtomically settings.chain config.page prepared.html ready = .ok () new := by
  simp only [publishing, bind_eq_ok, perform_eq_ok, inspect_eq_ok]
  constructor
  · rintro ⟨_, ready, hready, found, _, ⟨hfound, rfl⟩, _, written, hwritten, hlast⟩
    obtain ⟨rfl, rfl⟩ := EStateM.Result.ok.inj hlast
    exact ⟨_, hready, hfound, hwritten⟩
  · rintro ⟨ready, hready, hfound, hwritten⟩
    exact ⟨(), ready, hready, prepared, ready, ⟨hfound, rfl⟩, (), new, hwritten, rfl⟩

lemma concluding_eq_ok : concluding settings config now prepared old = .ok result new ↔
    copyAssets settings.chain config old = .ok result.copied new ∧
      Decimal.milliseconds prepared.start now = .ok result.elapsed ∧
      result = prepared.told config result.copied result.elapsed := by
  simp only [concluding, bind_eq_ok, perform_eq_ok, inspect_eq_ok, mapError_eq_ok]
  constructor
  · rintro ⟨copied, _, hcopied, elapsed, _, ⟨helapsed, rfl⟩, hlast⟩
    obtain ⟨rfl, rfl⟩ := EStateM.Result.ok.inj hlast
    exact ⟨hcopied, helapsed, rfl⟩
  · rintro ⟨hcopied, helapsed, htell⟩
    refine ⟨_, new, hcopied, result.elapsed, new, ⟨helapsed, rfl⟩, ?_⟩
    rw [← htell]
    rfl

/-- A build takes these steps, or it does not succeed. -/
lemma building_eq_ok :
    (publishing settings config now >>= concluding settings config now) old = .ok result new ↔
      ∃ ready written prepared,
        BuildSteps settings config now old result new ready written prepared := by
  simp only [bind_eq_ok, publishing_eq_ok, concluding_eq_ok]
  constructor
  · rintro ⟨prepared, written, ⟨ready, hmake, hsurvey, hwrite⟩, hcopy, htime, htell⟩
    have hstart := start_of_survey hsurvey
    exact ⟨ready, written, prepared, hmake, hsurvey, hwrite, hcopy, hstart ▸ htime, htell⟩
  · rintro ⟨ready, written, prepared, hmake, hsurvey, hwrite, hcopy, htime, htell⟩
    have hstart := start_of_survey hsurvey
    refine ⟨prepared, written, ⟨ready, hmake, hsurvey, hwrite⟩, hcopy, ?_, htell⟩
    rw [hstart]
    exact htime

/-- **A build that succeeds** has taken these steps, and no time has passed. -/
lemma build_steps (hbuild : build settings config world = .ok result after) :
    after.clock = world.clock ∧ ∃ ready written prepared,
      BuildSteps settings config world.clock world.disk result after.disk ready written prepared :=
  have hdone := does_build.ok hbuild
  ⟨hdone.2, building_eq_ok.1 hdone.1⟩

/-- **A build for which these steps can be taken** succeeds and leaves what they leave. -/
lemma build_of_steps {ready written : Disk}
    (h : BuildSteps settings config world.clock world.disk result new ready written prepared) :
    ∃ after, build settings config world = .ok result after ∧ after.disk = new :=
  does_build.of_ok (building_eq_ok.2 ⟨ready, written, prepared, h⟩)

/-- The page of a build that succeeds is made of what there was to gather in the directory made for
it. -/
lemma build_eq_ok (hbuild : build settings config world = .ok result after) :
    ∃ ready materials written copied,
      Storage.ensureDirectory settings.chain config.output world.disk = .ok () ready ∧
      gather settings config ready = .ok materials ∧
      Storage.writeAtomically settings.chain config.page materials.html ready = .ok () written ∧
      copyAssets settings.chain config written = .ok copied after.disk := by
  obtain ⟨-, ready, written, prepared, hsteps⟩ := build_steps hbuild
  obtain ⟨materials, hgather, hhtml⟩ := gather_of_survey hsteps.survey
  exact ⟨ready, materials, written, result.copied, hsteps.make, hgather, hhtml ▸ hsteps.write,
    hsteps.copy⟩

/-! ## Builds that fail -/

/-- Up to the page, a build fails to make its directory, to find something or to write. -/
lemma publishing_eq_error : publishing settings config now old = .error failure new ↔
    (∃ fault, Storage.ensureDirectory settings.chain config.output old = .error fault new ∧
      failure = .storage fault) ∨
    ∃ ready, Storage.ensureDirectory settings.chain config.output old = .ok () ready ∧
      (survey settings config now ready = .error failure ∧ new = ready ∨
        ∃ prepared, survey settings config now ready = .ok prepared ∧
          ∃ fault,
            Storage.writeAtomically settings.chain config.page prepared.html ready =
              .error fault new ∧
            failure = .storage fault) := by
  simp only [publishing, bind_eq_error, perform_eq_ok, perform_eq_error, inspect_eq_ok,
    inspect_eq_error]
  constructor
  · rintro (hmake | ⟨_, ready, hmake, hsurvey |
      ⟨prepared, _, ⟨hsurvey, rfl⟩, hwrite | ⟨_, _, _, hlast⟩⟩⟩)
    · exact .inl hmake
    · exact .inr ⟨ready, hmake, .inl hsurvey⟩
    · exact .inr ⟨_, hmake, .inr ⟨prepared, hsurvey, hwrite⟩⟩
    · exact nomatch hlast
  · rintro (hmake | ⟨ready, hmake, hsurvey | ⟨prepared, hsurvey, hwrite⟩⟩)
    · exact .inl hmake
    · exact .inr ⟨(), ready, hmake, .inl hsurvey⟩
    · exact .inr ⟨(), ready, hmake, .inr ⟨prepared, ready, ⟨hsurvey, rfl⟩, .inl hwrite⟩⟩

/-- From there, it fails to copy or to tell how long it has taken. -/
lemma concluding_eq_error : concluding settings config now prepared old = .error failure new ↔
    (∃ fault, copyAssets settings.chain config old = .error fault new ∧ failure = .storage fault) ∨
    ∃ copied, copyAssets settings.chain config old = .ok copied new ∧
      ∃ fault, Decimal.milliseconds prepared.start now = .error fault ∧
        failure = .range fault := by
  simp only [concluding, bind_eq_error, perform_eq_ok, perform_eq_error, inspect_eq_error,
    mapError_eq_error]
  constructor
  · rintro (hcopy | ⟨copied, _, hcopy, ⟨⟨fault, hrange, rfl⟩, rfl⟩ | ⟨_, _, _, hlast⟩⟩)
    · exact .inl hcopy
    · exact .inr ⟨copied, hcopy, fault, hrange, rfl⟩
    · exact nomatch hlast
  · rintro (hcopy | ⟨copied, hcopy, fault, hrange, rfl⟩)
    · exact .inl hcopy
    · exact .inr ⟨copied, new, hcopy, .inl ⟨⟨fault, hrange, rfl⟩, rfl⟩⟩

/-- **A build fails** up to the page or from there. -/
lemma exists_build_eq_error_iff : (∃ after, build settings config world = .error failure after) ↔
    (∃ left, publishing settings config world.clock world.disk = .error failure left) ∨
    ∃ prepared written, publishing settings config world.clock world.disk = .ok prepared written ∧
      ∃ left, concluding settings config world.clock prepared written = .error failure left := by
  constructor
  · rintro ⟨after, hbuild⟩
    rcases bind_eq_error.1 (does_build.error hbuild) with h | ⟨prepared, written, hpublish, h⟩
    · exact .inl ⟨_, h⟩
    · exact .inr ⟨prepared, written, hpublish, _, h⟩
  · intro h
    have hfails : ∃ left, (publishing settings config world.clock >>=
        concluding settings config world.clock) world.disk = .error failure left := by
      rcases h with ⟨left, h⟩ | ⟨prepared, written, hpublish, left, h⟩
      · exact ⟨left, bind_eq_error.2 (.inl h)⟩
      · exact ⟨left, bind_eq_error.2 (.inr ⟨prepared, written, hpublish, h⟩)⟩
    obtain ⟨left, hfails⟩ := hfails
    obtain ⟨after, hbuild, -⟩ := does_build.of_error hfails
    exact ⟨after, hbuild⟩

/-! ## What a build keeps -/

/-- What the steps of a build keep, the build keeps, also if it fails. -/
lemma ensures_build {keeps : Disk → Prop}
    (hready : Ensures keeps (Storage.ensureDirectory settings.chain config.output) fun _ => True)
    (hwrite : ∀ text,
      Ensures keeps (Storage.writeAtomically settings.chain config.page text) fun _ => True)
    (hcopy : Ensures keeps (copyAssets settings.chain config) fun _ => True) :
    Ensures (fun world : World => keeps world.disk) (build settings config) fun _ => True := by
  have hpublishing (now : Float) :
      Ensures keeps (publishing settings config now) fun _ => True := by
    refine Storage.ensures_bind (ensures_perform hready) fun _ _ => ?_
    refine Storage.ensures_bind (ensures_inspect _) fun prepared _ => ?_
    refine Storage.ensures_bind (ensures_perform (hwrite prepared.html)) fun _ _ => ?_
    exact Storage.ensures_pure trivial
  have hconcluding (now : Float) (prepared : Prepared) :
      Ensures keeps (concluding settings config now prepared) fun _ => True := by
    refine Storage.ensures_bind (ensures_perform hcopy) fun copied _ => ?_
    refine Storage.ensures_bind (ensures_inspect _) fun elapsed _ => ?_
    exact Storage.ensures_pure trivial
  exact Does.ensures (fun now => does_build) fun now =>
    Storage.ensures_bind (hpublishing now) fun prepared _ => hconcluding now prepared

end Site

end OnePage
