import OnePage.Command.Manual
import OnePage.Decimal.Notation
import OnePage.Storage.Path
import OnePage.Text.Blank

/-!
# The gate

Before a change to a project is let in, its checks are run one after the other, up to the first that
fails.

* `Gate.steps` lists the checks that a command line asks for.
* `Gate.pass` runs them. What running a check comes to is not decided here: it takes one `Outcome`
  after the other from a list, and a check without one succeeds at once.
* `Gate.run` is the command. Its `Transcript` says what was run.
-/

namespace OnePage

namespace Command

namespace Gate

/-! ## What is run -/

/-- A check. -/
structure Step where
  /-- What it is called. -/
  label : Text
  /-- The command that carries it out. -/
  command : List Text
deriving DecidableEq

/-- What a command line asks for. -/
structure Request where
  /-- Whether the smoke build makes all its checks. -/
  strict : Bool
  /-- Whether not to compile everything. -/
  skipCompile : Bool
  /-- Whether not to look for bad style. -/
  skipLint : Bool
  /-- Whether not to run the tests. -/
  skipTests : Bool
  /-- Whether not to run the smoke build. -/
  skipSmoke : Bool
  /-- Whether to check the layout of the code, too. -/
  layout : Bool

/-- What a project is checked with. -/
structure Tools where
  /-- The interpreter. -/
  interpreter : Text
  /-- The directory of the project. -/
  repository : Storage.Path
  /-- Whether the program that looks for bad style is there. -/
  hasLinter : Bool

/-- The tag of the gate's lines. -/
def tag : Text := "[pagesmith-ci]"

/-- The check for bad style and, on request, the check of the layout. -/
def lintSteps (request : Request) : List Step :=
  ⟨"ruff check", ["ruff", "check", "."]⟩ ::
    if request.layout then [⟨"ruff format --check", ["ruff", "format", "--check", "."]⟩] else []

/-- Whether style is to be checked and cannot be. -/
def lacksLinter (tools : Tools) (request : Request) : Bool :=
  !request.skipLint && !tools.hasLinter

/-- The checks that are asked for and possible, in order. -/
def steps (tools : Tools) (request : Request) : List Step :=
  let run (words : List Text) : List Text := tools.interpreter :: "-m" :: words
  let sources := (tools.repository.join "pagesmith").text
  (if request.skipCompile then [] else [⟨"compileall", run ["compileall", "-q", sources]⟩]) ++
  (if request.skipLint || !tools.hasLinter then [] else lintSteps request) ++
  (if request.skipTests then [] else [⟨"unittest", run ["unittest", "discover", "-s", "tests"]⟩]) ++
  (if request.skipSmoke then []
    else [⟨"smoke",
      run ("pagesmith.tools.smoke_build" :: if request.strict then ["--strict"] else [])⟩])

/-- The environment that checks are run in: the project is found there, and notes on events are not
asked for. -/
def childEnvironment (tools : Tools) (environment : Environment) : Environment :=
  (Keyed.put "PYTHONPATH" tools.repository.text environment).filter fun (name, _) =>
    name ≠ Console.observationKey

/-! ## What comes of it -/

/-- What running a check comes to. -/
structure Outcome where
  /-- The code it ends with. -/
  code : Int
  /-- What goes out. -/
  out : Text
  /-- What goes to the side. -/
  err : Text
  /-- How many seconds it takes. -/
  seconds : Float

/-- What running a check comes to if nothing is known about it. -/
def Outcome.success : Outcome := ⟨0, [], [], 0.0⟩

/-- What a check has said on both channels, without blanks at the ends. -/
def Outcome.said (outcome : Outcome) : Text :=
  Text.join Text.newline ([outcome.out.trim, outcome.err.trim].filter (· ≠ []))

/-- A time in milliseconds as people read it: from a second on in seconds, if a double can hold
them. -/
def elapsedText (milliseconds : Int) : Except Decimal.RangeFault Text :=
  if milliseconds < 1000 then .ok (Numeral.ofInt milliseconds ++ "ms")
  else (Decimal.ofWhole milliseconds).map fun x => Decimal.hundredths (x / 1000.0) ++ "s"

/-- The time between two readings of the clock as people read it. -/
def elapsedBetween (start finish : Float) : Except Decimal.RangeFault Text := do
  elapsedText (← Decimal.milliseconds start finish)

/-- What is said about a check that has been run and has taken the given time. -/
def report (step : Step) (outcome : Outcome) (elapsed : Text) (console : Console) : Console :=
  let verdict : Text := if outcome.code = 0 then "OK" else "FAIL"
  let console := console.print
    (tag ++ " " ++ verdict ++ ": " ++ step.label ++ " (" ++ elapsed ++ ")")
  if outcome.said.isEmpty then console else console.print outcome.said

/-- What a gate has done so far. -/
structure Transcript where
  /-- What has been said. -/
  console : Console
  /-- The time in seconds. -/
  clock : Float
  /-- The checks that have been run. -/
  ran : List Step

/-- Runs checks up to the first that fails, which is the second result. A check whose time cannot be
told is the last one, too. -/
def pass : List Step → List Outcome → Transcript →
    Transcript × Except Decimal.RangeFault (Option Step)
  | [], _, transcript => (transcript, .ok none)
  | step :: steps, outcomes, transcript =>
    let outcome := outcomes.head?.getD .success
    let clock := transcript.clock + outcome.seconds
    let ran := transcript.ran ++ [step]
    match elapsedBetween transcript.clock clock with
    | .error fault => (⟨transcript.console, clock, ran⟩, .error fault)
    | .ok elapsed =>
      let transcript : Transcript := ⟨report step outcome elapsed transcript.console, clock, ran⟩
      if outcome.code = 0 then pass steps outcomes.tail transcript
      else (transcript, .ok (some step))

/-! ## The command -/

/-- The options of the command. -/
def options : List (CommandOption Request) := [
  ⟨["--strict"], .flag fun request => { request with strict := true }⟩,
  ⟨["--skip-compileall"], .flag fun request => { request with skipCompile := true }⟩,
  ⟨["--skip-lint"], .flag fun request => { request with skipLint := true }⟩,
  ⟨["--skip-tests"], .flag fun request => { request with skipTests := true }⟩,
  ⟨["--skip-smoke"], .flag fun request => { request with skipSmoke := true }⟩,
  ⟨["--format"], .flag fun request => { request with layout := true }⟩]

/-- What the command says about itself. -/
def manual : Manual where
  program := "pagesmith-ci"
  usage := [
    "usage: pagesmith-ci [-h] [--strict] [--skip-compileall] [--skip-lint]",
    "                    [--skip-tests] [--skip-smoke] [--format]"]
  details := [
    "One-command CI gate.",
    "",
    "options:",
    "  -h, --help         show this help message and exit",
    "  --strict           Run the smoke build with strict invariants.",
    "  --skip-compileall  Skip python -m compileall.",
    "  --skip-lint        Skip ruff checks (if installed).",
    "  --skip-tests       Skip unit/contract tests.",
    "  --skip-smoke       Skip the synthetic smoke build.",
    "  --format           Also run 'ruff format --check' (only if ruff is",
    "                     installed)."]

/-- The last line of a gate, and the code it returns. -/
def conclude (failed : Option Step) (total : Text) : Text × Nat :=
  let (verdict, code) : Text × Nat := match failed with
    | some step => ("FAIL at " ++ step.label, 2)
    | none => ("OK", 0)
  (tag ++ " RESULT: " ++ verdict ++ " (" ++ total ++ ")", code)

/-- The command, with what running each check comes to. It breaks off at a time that cannot be
told. -/
def run (tools : Tools) (arguments : List Text) (outcomes : List Outcome) :
    Transcript × Except Decimal.RangeFault Ending :=
  match readOptions options ⟨false, false, false, false, false, false⟩ arguments with
  | .error halt =>
    let (console, ending) := manual.halt .silent halt
    (⟨console, 0.0, []⟩, .ok ending)
  | .ok request =>
    let console := if lacksLinter tools request
      then Console.silent.print (tag ++ " WARN: ruff not found; skipping lint")
      else Console.silent
    let (transcript, failed) := pass (steps tools request) outcomes ⟨console, 0.0, []⟩
    let concluded := do return conclude (← failed) (← elapsedBetween 0.0 transcript.clock)
    match concluded with
    | .error fault => (transcript, .error fault)
    | .ok (line, code) =>
      ({ transcript with console := transcript.console.print line }, .ok (.returned code))

end Gate

end Command

end OnePage
