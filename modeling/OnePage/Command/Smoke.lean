import OnePage.Command.Manual
import OnePage.Site.Build

/-!
# The smoke build

The smoke build lays out a small site, builds it in one mode or both and checks what comes out.

* `Smoke.site` is the site, and `Smoke.layOut` writes it.
* `Smoke.check` goes through a page and returns the first `Smoke.Flaw` it finds.
* `Smoke.run` is the command.
-/

namespace OnePage

namespace Command

namespace Smoke

open Site (Program Settings Failure)
open Storage (Path)

/-! ## The site -/

/-- The template of the smoke site. -/
def template : Text := Text.join Text.newline [
  "<!DOCTYPE html>",
  "<html lang=\"en\">",
  "<head>",
  "<meta charset=\"utf-8\">",
  "<title>{{site.name}}</title>",
  "{{CSS_LINKS}}",
  "</head>",
  "<body>",
  "{{component:header}}",
  "<p>{{site.tagline}}</p>",
  "{{component:footer}}",
  "{{JS_SCRIPTS}}",
  "</body>",
  "</html>",
  ""]

/-- The files of the smoke site with their contents, in the order in which they are written. -/
def site : List (Text × Text) := [
  ("src/data/site.json",
    r#"{"name": "SMOKE: Acme", "tagline": "Built by pagesmith"}"#),
  ("src/components/header.html", "<header>SMOKE: header</header>"),
  ("src/components/footer.html", "<footer>{{site.name}}</footer>"),
  ("src/templates/page.html", template),
  ("src/styles/a.css", "body{color:red}"),
  ("src/styles/nested/deep.css", "h2{margin:0}"),
  ("src/scripts/main.js", "console.log('smoke');"),
  ("assets/img/logo.svg", "<svg xmlns=\"http://www.w3.org/2000/svg\"/>")]

/-- Writes files below a directory, making the directories they lie in. -/
def layOut (chain : Nat) (root : Path) : List (Text × Text) → Storage.Operation Unit
  | [] => pure ()
  | (name, text) :: files => do
    let p := root.join name
    Storage.ensureDirectory chain p.parent
    Storage.write p (text.flatMap Utf8.encodeCodePoint)
    layOut chain root files

/-! ## The checks -/

/-- What can be wrong with the page of the smoke site. -/
inductive Flaw where
  /-- A placeholder that should have been replaced is still there. -/
  | marker (found : Text)
  /-- The placeholder inside a fragment is there this many times, and not once. -/
  | nested (count : Nat)
  /-- The data is missing. -/
  | data
  /-- A fragment is missing. -/
  | component
  /-- The page does not refer to its style sheet. -/
  | styleLink
  /-- The page does not refer to its script. -/
  | scriptTag
  /-- The page holds a style block although it should refer to style sheets. -/
  | styleBlock
  /-- The page does not hold its style sheet in exactly one block. -/
  | inlineStyle
  /-- The page does not hold its script. -/
  | inlineScript
  /-- The page refers to a style sheet although it should hold it. -/
  | inlineLink
  /-- The page has no document type. -/
  | documentType
  /-- A style sheet from a directory inside is in the page. -/
  | nestedStyle
  /-- A file has not been copied. -/
  | notCopied (name : Text)
deriving DecidableEq

/-- The words for what is wrong. -/
def Flaw.message : Flaw → Text
  | marker found => "Template marker " ++ found ++ " still present in generated HTML."
  | nested count =>
    "Expected {{site.name}} once (from the footer fragment), found " ++
      Numeral.ofNat count ++ "."
  | data => "Expected data substitution missing from HTML output."
  | component => "Expected component substitution missing from HTML output."
  | styleLink => "Reference mode: stylesheet link missing."
  | scriptTag => "Reference mode: script tag missing."
  | styleBlock => "Reference mode: unexpected <style> block."
  | inlineStyle => "Inline mode: expected exactly one <style> block with the stylesheet."
  | inlineScript => "Inline mode: script contents missing."
  | inlineLink => "Inline mode: unexpected stylesheet link."
  | documentType => "Strict: missing <!DOCTYPE html>."
  | nestedStyle => "Strict: nested stylesheet leaked into the page."
  | notCopied name => "Copied asset missing from output: " ++ name

/-- A check: what is wrong if a condition holds. -/
abbrev Checkpoint := Bool × Flaw

/-- The checks of a page in any mode. -/
def commonChecks (html : Text) : List Checkpoint :=
  let markers : List Text :=
    ["{{CSS_LINKS}}", "{{JS_SCRIPTS}}", "{{component:header}}"]
  let count := Text.occurrences "{{site.name}}" html
  let remaining : List Checkpoint :=
    markers.map fun marker => (Text.contains marker html, .marker marker)
  remaining ++ [
    (count != 1, .nested count),
    (!Text.contains "<title>SMOKE: Acme</title>" html, .data),
    (!Text.contains "<header>SMOKE: header</header>" html, .component)]

/-- The checks of a page in one mode. -/
def modeChecks (html : Text) : BuildMode → List Checkpoint
  | .reference => [
    (!Text.contains "<link rel=\"stylesheet\" href=\"./styles/a.css\">" html, .styleLink),
    (!Text.contains "<script src=\"./scripts/main.js\"></script>" html, .scriptTag),
    (Text.contains "<style>" html, .styleBlock)]
  | .inline => [
    (Text.occurrences "<style>" html != 1 || !Text.contains "body{color:red}" html,
      .inlineStyle),
    (!Text.contains "console.log('smoke');" html, .inlineScript),
    (Text.contains "rel=\"stylesheet\"" html, .inlineLink)]

/-- The checks that are made only on request. -/
def strictChecks (html : Text) : List Checkpoint := [
  (!Text.contains "<!doctype html>" html.toLower, .documentType),
  (Text.contains "deep.css" html || Text.contains "h2{margin:0}" html, .nestedStyle)]

/-- The first thing that is wrong with a page. -/
def check (html : Text) (mode : BuildMode) (strict : Bool) : Option Flaw :=
  let checks :=
    commonChecks html ++ modeChecks html mode ++ if strict then strictChecks html else []
  (checks.find? (·.1)).map (·.2)

/-- The files that a build copies, by their paths in the output. -/
def copies : List Text :=
  ["styles/a.css", "styles/nested/deep.css", "scripts/main.js", "assets/img/logo.svg"]

/-- The first of several files that is not there. -/
def missingCopy (disk : Storage.Disk) (output : Path) :
    List Text → Except Storage.Fault (Option Text)
  | [] => .ok none
  | name :: names => do
    if ← disk.isFile (output.join name) then missingCopy disk output names
    else return some name

/-- Builds the site below a directory in one mode and checks the result. -/
def buildAndCheck (settings : Settings) (root : Path) (mode : BuildMode) (strict : Bool) :
    Program (Except Flaw Path) := do
  let output := (root.join "dist").join mode.word
  let result ← Site.build settings ⟨root.join "src", output, root.join "assets", mode⟩
  let html ← Site.consult fun disk =>
    match disk.read result.page with
    | .error fault => .error (.storage fault)
    | .ok content => (Utf8.decode content).mapError .undecodable
  match check html mode strict with
  | some flaw => return .error flaw
  | none =>
    let missing ← Site.consult fun disk => (missingCopy disk output copies).mapError .storage
    match missing with
    | some name => return .error (.notCopied name)
    | none => return .ok result.page

/-! ## The command -/

/-- What a command line asks for. -/
structure Request where
  /-- Where to lay out the site, if not in a temporary directory. -/
  root : Option Text
  /-- The modes to build it in, unless the option for them was left without a value. -/
  modes : Option (List BuildMode)
  /-- Whether to make all checks. -/
  strict : Bool

/-- The words for the modes to build in. -/
def modeChoices : List (Text × List BuildMode) :=
  BuildMode.all.map (fun mode => (mode.word, [mode])) ++ [(Text.ofString "both", BuildMode.all)]

/-- The options of the command. -/
def options : List (CommandOption Request) := [
  ⟨["--out"], .value fun given request => .ok { request with root := given }⟩,
  ⟨["--mode"], .value fun given request =>
    match given with
    | none => .ok { request with modes := none }
    | some word =>
      match modeChoices.lookup word with
      | some modes => .ok { request with modes }
      | none => .error (.notChoice word (modeChoices.map (·.1)))⟩,
  ⟨["--strict"], .flag fun request => { request with strict := true }⟩]

/-- What the command says about itself. -/
def manual : Manual where
  program := "pagesmith-smoke-build"
  usage := [
    "usage: pagesmith-smoke-build [-h] [--out OUT] [--mode {reference,inline,both}]",
    "                             [--strict]"]
  details := [
    "options:",
    "  -h, --help            show this help message and exit",
    "  --out OUT             Directory to build the smoke site in (default: a temp",
    "                        dir)",
    "  --mode {reference,inline,both}",
    "                        Build mode(s) to exercise (default: both)",
    "  --strict              Enable strict smoke gating (stronger HTML invariants)."]

/-- Reports what keeps a mode from passing, and returns `2`. -/
def die (mode : BuildMode) (message : Text) : Program Ending := do
  Site.speak fun console => console.printAside
    ("[pagesmith-smoke-build] ERROR: " ++ mode.word ++ ": " ++ message)
  return .returned 2

/-- Whether the command reports a failure and ends with it. Besides the failures of a site's files
these are containers and directories too deep inside each other. -/
def reports : Failure → Bool
  | .nesting _ | .unwritable _ | .storage .tooDeep => true
  | failure => failure.isReported

/-- Builds the laid-out site in one mode after the other, up to the first that does not pass. -/
def buildModes (settings : Settings) (root : Path) (strict : Bool) :
    List BuildMode → Program Ending
  | [] => return .returned 0
  | mode :: modes => do
    let outcome ←
      try
        let checked ← buildAndCheck settings root mode strict
        pure (checked.mapError Flaw.message)
      catch failure =>
        if reports failure then pure (.error failure.message) else throw failure
    match outcome with
    | .error message => die mode message
    | .ok page =>
      Site.speak fun console => console.print
        ("[pagesmith] smoke html (" ++ mode.word ++ "): " ++ page.text)
      buildModes settings root strict modes

/-- Does some work while a temporary directory is there, and removes the directory afterwards. -/
def withTemporary {α : Type} (directory : Path) (work : Program α) : Program α := do
  Site.onDisk (Storage.makeDirectory directory)
  let cleanUp : Program Unit := modify fun world =>
    match world.disk.entryPlace directory with
    | .ok (some location) => { world with disk := world.disk.remove location }
    | _ => world
  let result ←
    try work
    catch failure =>
      cleanUp
      throw failure
  cleanUp
  return result

/-- The command; `temporary` is a path that is free for a temporary directory. -/
def run (settings : Settings) (temporary : Path) (arguments : List Text) : Program Ending := do
  match readOptions options ⟨none, some BuildMode.all, false⟩ arguments with
  | .error halt =>
    let (console, ending) := manual.halt (← get).console halt
    modify fun world => { world with console }
    return ending
  | .ok request =>
    match request.modes with
    | none => throw (.mode .unset)
    | some modes =>
      withTemporary temporary do
        let root := match request.root with
          | none | some [] => temporary
          | some given => Path.parse given
        Site.onDisk (layOut settings.chain root site)
        buildModes settings root request.strict modes

end Smoke

end Command

end OnePage
