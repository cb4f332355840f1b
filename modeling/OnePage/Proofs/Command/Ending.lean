import OnePage.Command.Build
import OnePage.Proofs.Site.Escape

/-!
# How the command ends

A command that is not to go on watching makes a plan, builds a site once and ends.

* `plan_eq_ok` — what a plan takes over from its request.
* `execute_eq` — carrying out a plan comes to a single build.
* `Ends` — the ways in which the command can end, and `Raises` — what it raises if it neither
  returns nor exits.
* **`run_ends`** — the command ends in one of these ways, and it raises what `Raises` says.
* `run_raises_surrogate` — a string in a data document can be enough for that.
-/

namespace OnePage

namespace Command

namespace Build

open Site (Settings World Failure BuildResult Unset)
open Storage (Disk)

variable {settings : Settings} {request : Request} {p : Plan} {world : World}

/-! ## Plans -/

/-- **What a plan takes over from its request.** -/
lemma plan_eq_ok {environment : Environment} (h : plan environment request = .ok p) :
    p.watch = request.watch ∧ ∃ source output assets mode,
      p.config = .ofTexts source output assets mode := by
  obtain ⟨interval, -, h⟩ := except_bind_eq_ok.1 h
  dsimp only at h
  split at h
  · exact nomatch h
  obtain ⟨debounce, -, h⟩ := except_bind_eq_ok.1 h
  split at h
  · exact nomatch h
  have hlast (mode : BuildMode) (h : (do
      let source ← required .directory request.source
      let output ← required .directory request.output
      let assets ← required .directory request.assets
      return (⟨.ofTexts source output assets mode, request.watch, interval, debounce⟩ : Plan)) =
        .ok p) : p.watch = request.watch ∧ ∃ source output assets mode,
          p.config = .ofTexts source output assets mode := by
    obtain ⟨source, -, h⟩ := except_bind_eq_ok.1 h
    obtain ⟨output, -, h⟩ := except_bind_eq_ok.1 h
    obtain ⟨assets, -, h⟩ := except_bind_eq_ok.1 h
    obtain rfl := Except.ok.inj h
    exact ⟨rfl, source, output, assets, mode, rfl⟩
  split at h
  · exact hlast .inline h
  · obtain ⟨mode, -, h⟩ := except_bind_eq_ok.1 h
    exact hlast mode h

/-- The path of the output directory in a plan has been read from a text. -/
lemma isClean_output {environment : Environment} (h : plan environment request = .ok p) :
    p.config.output.IsClean := by
  obtain ⟨-, source, output, assets, mode, hconfig⟩ := plan_eq_ok h
  rw [hconfig]
  exact Storage.Path.isClean_parse output

/-- **Carrying out a plan comes to a single build**, if it is not to go on watching. -/
lemma execute_eq (hwatch : p.watch = false) (pauses : List Watch.Pause) :
    execute settings p pauses world =
      match Site.build settings p.config world with
      | .ok _ after => .ok (.returned 0) after
      | .error failure after =>
        if failure.isReported then .ok (.returned 2)
          { after with console := after.console.complain ("Build failed: " ++ failure.message) }
        else .error failure after := by
  simp only [execute, bind, EStateM.bind, tryCatch, tryCatchThe, MonadExceptOf.tryCatch,
    EStateM.tryCatch]
  cases Site.build settings p.config world with
  | ok result after => simp [hwatch, pure, EStateM.pure]
  | error failure after =>
    dsimp only
    by_cases hreported : failure.isReported
    · rw [if_pos hreported, if_pos hreported]
      rfl
    · rw [if_neg hreported, if_neg hreported]
      rfl

/-! ## Endings -/

/-- **How the command ends** that is not to go on watching. -/
inductive Ends (settings : Settings) (request : Request) (world : World) :
    EStateM.Result Failure World Ending → Prop
  /-- It breaks off before anything has happened. -/
  | refused {words : Text}
      (hplan : plan settings.environment request = .error (.breakOff words)) :
      Ends settings request world (.ok (.exitedWith words) world)
  /-- It has built the site and returns. -/
  | built {p : Plan} {result : BuildResult} {after : World}
      (hplan : plan settings.environment request = .ok p)
      (hbuild : Site.build settings p.config world = .ok result after) :
      Ends settings request world (.ok (.returned 0) after)
  /-- It says why the build has failed and returns. -/
  | reported {p : Plan} {failure : Failure} {after : World}
      (hplan : plan settings.environment request = .ok p)
      (hbuild : Site.build settings p.config world = .error failure after)
      (hreported : failure.isReported) :
      Ends settings request world (.ok (.returned 2)
        { after with console := after.console.complain ("Build failed: " ++ failure.message) })
  /-- A setting has no value, which nobody deals with. -/
  | unset {what : Unset}
      (hplan : plan settings.environment request = .error (.unset what)) :
      Ends settings request world (.error (.unset what) world)
  /-- The build has failed in a way that nobody deals with. -/
  | escaped {p : Plan} {failure : Failure} {after : World}
      (hplan : plan settings.environment request = .ok p)
      (hbuild : Site.build settings p.config world = .error failure after)
      (hreported : failure.isReported = false) :
      Ends settings request world (.error failure after)

/-- There is one way in which the command ends. -/
lemma Ends.unique {first second : EStateM.Result Failure World Ending}
    (h : Ends settings request world first) (h' : Ends settings request world second) :
    first = second := by
  cases h <;> cases h' <;> simp_all

lemma ends_run (world : World) {arguments : List Text}
    (hread : readOptions options (.standard settings.environment) arguments = .ok request)
    (hwatch : request.watch = false) (pauses : List Watch.Pause) :
    Ends settings request world (run settings arguments pauses world) := by
  rw [run, hread]
  dsimp only
  cases hplan : plan settings.environment request with
  | error refusal =>
    cases refusal with
    | breakOff words => exact .refused hplan
    | unset what => exact .unset hplan
  | ok p =>
    dsimp only
    rw [execute_eq ((plan_eq_ok hplan).1.trans hwatch)]
    cases hbuild : Site.build settings p.config world with
    | ok result after => exact .built hplan hbuild
    | error failure after =>
      dsimp only
      by_cases hreported : failure.isReported
      · rw [if_pos hreported]
        exact .reported hplan hbuild hreported
      · rw [if_neg hreported]
        exact .escaped hplan hbuild (by simpa using hreported)

/-- **What the command raises** that is not to go on watching. -/
inductive Raises (settings : Settings) (request : Request) (world : World) : Failure → Prop
  /-- A setting has no value. -/
  | unset {what : Unset}
      (hplan : plan settings.environment request = .error (.unset what)) :
      Raises settings request world (.unset what)
  /-- There is a cause for which a build fails without a report. -/
  | escaped {p : Plan} {failure : Failure}
      (hplan : plan settings.environment request = .ok p)
      (hescapes : Site.Escapes settings p.config world.disk world.clock failure) :
      Raises settings request world failure

/-- **How the command ends**, with any arguments that can be read and do not ask it to go on
watching.  It breaks off, it returns `0` after a build that has succeeded, or it returns `2` and
says why the build has failed; otherwise it raises something, which happens exactly if a setting has
no value or one of the causes of `Site.Escapes` is there. -/
theorem run_ends (settings : Settings) (arguments : List Text) (pauses : List Watch.Pause)
    (request : Request) (world : World)
    (hread : readOptions options (.standard settings.environment) arguments = .ok request)
    (hwatch : request.watch = false) :
    (∀ result, run settings arguments pauses world = result ↔
      Ends settings request world result) ∧
    ∀ failure, (∃ after, run settings arguments pauses world = .error failure after) ↔
      Raises settings request world failure := by
  have hends := ends_run world hread hwatch pauses
  have hiff (result) : run settings arguments pauses world = result ↔
      Ends settings request world result := by
    constructor
    · rintro rfl
      exact hends
    · exact hends.unique
  refine ⟨hiff, fun failure => ?_⟩
  constructor
  · rintro ⟨after, h⟩
    cases (hiff _).1 h with
    | unset hplan => exact .unset hplan
    | escaped hplan hbuild hreported =>
      exact .escaped hplan
        ((Site.escapes_iff (isClean_output hplan)).1 ⟨⟨after, hbuild⟩, hreported⟩)
  · intro h
    cases h with
    | unset hplan => exact ⟨world, (hiff _).2 (.unset hplan)⟩
    | escaped hplan hescapes =>
      obtain ⟨⟨after, hbuild⟩, hreported⟩ :=
        (Site.escapes_iff (isClean_output hplan)).2 hescapes
      exact ⟨after, (hiff _).2 (.escaped hplan hbuild hreported)⟩

/-! ### Two documents -/

/-- A site with a data document. -/
def documentDisk (document : Text) : Disk :=
  ((Disk.empty.putDirectory ["src"]).putDirectory ["data", "src"]).putFile
    ["a.json", "data", "src"] ((Utf8.encode document).toOption.getD []) (.fresh 0)

/-- A document that is no JSON ends the command, which says so and raises nothing. -/
theorem run_ends_malformed :
    readOptions options (.standard []) [] = .ok (.standard []) ∧
    (Request.standard []).watch = false ∧
    (∃ after, run (.usual []) [] [] ⟨documentDisk "[", .silent, 0.0⟩ = .ok (.returned 2) after ∧
      after.console.err = "[pagesmith] ERROR: Build failed: Malformed JSON in src/data/a.json " ++
        Text.ofString "(line 1, column 2): Expecting value\n") ∧
    ∀ failure, ¬ Raises (.usual []) (.standard []) ⟨documentDisk "[", .silent, 0.0⟩ failure := by
  refine ⟨rfl, rfl, ?_⟩
  have hends : succeeds (run (.usual []) [] [] ⟨documentDisk "[", .silent, 0.0⟩)
      fun ending after => decide (ending = .returned 2 ∧ after.console.err =
        "[pagesmith] ERROR: Build failed: Malformed JSON in src/data/a.json " ++
          Text.ofString "(line 1, column 2): Expecting value\n") := by decide +kernel
  obtain ⟨ending, after, hrun, hfound⟩ := exists_of_succeeds hends
  obtain ⟨rfl, herr⟩ := of_decide_eq_true hfound
  refine ⟨⟨after, hrun, herr⟩, fun failure hraises => ?_⟩
  obtain ⟨raised, hfailed⟩ := ((run_ends (.usual []) [] [] (.standard [])
    ⟨documentDisk "[", .silent, 0.0⟩ rfl rfl).2 failure).2 hraises
  rw [hrun] at hfailed
  cases hfailed

/-- A site whose page consists of a string with a surrogate, which its document spells out. -/
def surrogateDisk : Disk :=
  ((documentDisk r#"{"x":"\ud800"}"#).putDirectory ["templates", "src"]).putFile
    ["page.html", "templates", "src"] ((Utf8.encode (Template.placeholder "a.x")).toOption.getD [])
    (.fresh 1)

/-- **A document that is sound JSON makes the command raise** what nobody deals with. -/
theorem run_raises_surrogate :
    readOptions options (.standard []) [] = .ok (.standard []) ∧
    (Request.standard []).watch = false ∧
    ∃ after, run (.usual []) [] [] ⟨surrogateDisk, .silent, 0.0⟩ =
      .error (.storage (.unencodable ⟨0, .ofNat 0xD800, 0⟩)) after := by
  refine ⟨rfl, rfl, ?_⟩
  have hends : fails (run (.usual []) [] [] ⟨surrogateDisk, .silent, 0.0⟩)
      fun failure _ => decide (failure = .storage (.unencodable ⟨0, .ofNat 0xD800, 0⟩)) := by
    decide +kernel
  obtain ⟨failure, after, hrun, hfailure⟩ := exists_of_fails hends
  exact ⟨after, of_decide_eq_true hfailure ▸ hrun⟩

end Build

end Command

end OnePage
