import OnePage.Command.Manual
import OnePage.Decimal.Literal
import OnePage.Site.Build
import OnePage.Watch.Session

/-!
# The command that builds a site

* `Build.Request` is what its command line asks for. The environment has a say in what is not asked
  for: `Build.Request.standard` and `Build.defaultMode`.
* `Build.plan` makes sense of a request, or tells by a `Build.Refusal` why it makes none.
* `Build.run` builds the site once and, if asked to, goes on watching its sources. A failure of the
  first build that has to do with the site's files is reported and returns `2`.
-/

namespace OnePage

namespace Command

namespace Build

open Site (Program Settings)

/-- What a command line asks for. A setting is missing where an option was left without a value. -/
structure Request where
  /-- The directory of the sources. -/
  source : Option Text
  /-- The directory of the output. -/
  output : Option Text
  /-- The directory of other assets. -/
  assets : Option Text
  /-- Whether the page is to hold the contents of its assets. -/
  inline : Bool
  /-- Whether to go on watching the sources. -/
  watch : Bool
  /-- How many seconds there are between two looks at the sources. -/
  interval : Option Float
  /-- How many seconds the sources must be quiet before they are built again. -/
  debounce : Option Float

/-- The setting for the directory of the sources. -/
def sourceKey : Text := "PAGESMITH_SRC"

/-- The setting for the directory of the output. -/
def outputKey : Text := "PAGESMITH_DIST"

/-- The setting for the directory of other assets. -/
def assetsKey : Text := "PAGESMITH_ASSETS"

/-- The setting for the mode. -/
def modeKey : Text := "PAGESMITH_MODE"

/-- All settings that the command looks at. -/
def settingKeys : List Text := [sourceKey, outputKey, assetsKey, modeKey, Console.observationKey]

/-- What is asked for if the command line is empty. -/
def Request.standard (environment : Environment) : Request where
  source := some ((environment.get? sourceKey).getD Site.Config.defaultSource)
  output := some ((environment.get? outputKey).getD Site.Config.defaultOutput)
  assets := some ((environment.get? assetsKey).getD Site.Config.defaultAssets)
  inline := false
  watch := false
  interval := some Watch.defaultInterval
  debounce := some 0.0

/-- A value that has to be a number, if it is there. -/
def number (set : Option Float → Request → Request) (given : Option Text) (request : Request) :
    Except ValueFault Request :=
  match given with
  | none => .ok (set none request)
  | some text =>
    match Decimal.parse? text with
    | some x => .ok (set (some x) request)
    | none => .error (.notNumber text)

/-- The options of the command. -/
def options : List (CommandOption Request) := [
  ⟨["--src"], .value fun given request => .ok { request with source := given }⟩,
  ⟨["--dist"], .value fun given request => .ok { request with output := given }⟩,
  ⟨["--assets"], .value fun given request => .ok { request with assets := given }⟩,
  ⟨["--optimize", "--inline"], .flag fun request => { request with inline := true }⟩,
  ⟨["--watch"], .flag fun request => { request with watch := true }⟩,
  ⟨["--poll-interval"], .value (number fun x request => { request with interval := x })⟩,
  ⟨["--debounce"], .value (number fun x request => { request with debounce := x })⟩]

/-- What the command says about itself. -/
def manual : Manual where
  program := "pagesmith"
  usage := [
    "usage: pagesmith [-h] [--src SRC] [--dist DIST] [--assets ASSETS] [--optimize]",
    "                 [--watch] [--poll-interval POLL_INTERVAL]",
    "                 [--debounce DEBOUNCE]"]
  details := [
    "Assemble a single HTML page from a template, components, JSON data and CSS/JS",
    "assets.",
    "",
    "options:",
    "  -h, --help            show this help message and exit",
    "  --src SRC             Source directory (default: env PAGESMITH_SRC or ./src)",
    "  --dist DIST           Output directory (default: env PAGESMITH_DIST or",
    "                        ./dist)",
    "  --assets ASSETS       Top-level assets directory copied to <dist>/assets",
    "                        (default: env PAGESMITH_ASSETS or ./assets)",
    "  --optimize, --inline  Inline CSS/JS into the page instead of linking to them",
    "                        (env PAGESMITH_MODE=inline)",
    "  --watch               Rebuild whenever a file under --src changes",
    "  --poll-interval POLL_INTERVAL",
    "                        Watch polling interval in seconds (default: 0.5)",
    "  --debounce DEBOUNCE   Collapse changes within this many seconds into one",
    "                        rebuild (default: 0, off)"]

/-- The mode if the command line does not ask for one. -/
def defaultMode (environment : Environment) : Except ModeFault BuildMode :=
  BuildMode.parse (some ((environment.get? modeKey).getD BuildMode.reference.word))

/-- What a request that makes sense comes to. -/
structure Plan where
  /-- What to build. -/
  config : Site.Config
  /-- Whether to go on watching the sources. -/
  watch : Bool
  /-- How many seconds there are between two looks at the sources. -/
  interval : Float
  /-- How many seconds the sources must be quiet before they are built again. -/
  debounce : Float

/-- Why a request makes no sense. -/
inductive Refusal where
  /-- The command breaks off with these words. -/
  | breakOff (words : Text)
  /-- A setting has no value. -/
  | unset (what : Site.Unset)

/-- The value of a setting that cannot do without. -/
def required {α : Type} (what : Site.Unset) : Option α → Except Refusal α
  | some a => .ok a
  | none => .error (.unset what)

/-- What a request comes to. Numbers are looked at first, then the mode, then directories. -/
def plan (environment : Environment) (request : Request) : Except Refusal Plan := do
  let interval ← required .interval request.interval
  if interval ≤ 0.0 then throw (.breakOff "--poll-interval must be > 0")
  let debounce ← required .debounce request.debounce
  if debounce < 0.0 then throw (.breakOff "--debounce must be >= 0")
  let mode ←
    if request.inline then pure BuildMode.inline
    else (defaultMode environment).mapError fun fault =>
      .breakOff ("Invalid " ++ modeKey ++ " value: " ++ fault.message)
  let source ← required .directory request.source
  let output ← required .directory request.output
  let assets ← required .directory request.assets
  return ⟨.ofTexts source output assets mode, request.watch, interval, debounce⟩

/-- Builds a site and goes on watching it if that was asked for. -/
def execute (settings : Settings) (plan : Plan) (pauses : List Watch.Pause) : Program Ending := do
  let built ←
    try
      let _ ← Site.build settings plan.config
      pure true
    catch failure =>
      if failure.isReported then
        Site.complain ("Build failed: " ++ failure.message)
        pure false
      else throw failure
  if built then
    if plan.watch then
      let _ ← Watch.watch settings plan.config.source (Site.buildAgain settings plan.config)
        (.real plan.interval) plan.debounce false pauses
    return .returned 0
  else return .returned 2

/-- The command. -/
def run (settings : Settings) (arguments : List Text) (pauses : List Watch.Pause) :
    Program Ending := do
  match readOptions options (.standard settings.environment) arguments with
  | .error halt =>
    let (console, ending) := manual.halt (← get).console halt
    modify fun world => { world with console }
    return ending
  | .ok request =>
    match plan settings.environment request with
    | .error (.breakOff words) => return .exitedWith words
    | .error (.unset what) => throw (.unset what)
    | .ok plan => execute settings plan pauses

end Build

end Command

end OnePage
