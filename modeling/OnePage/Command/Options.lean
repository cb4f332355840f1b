import OnePage.Text.DecimalDigit
import OnePage.Text.Quoted

/-!
# Options on a command line

A command is given options and nothing else. An option is named with two dashes, in full or by as
much of its name as no other option shares; its value, if it takes one, follows as the next argument
or after an equals sign. Two dashes alone separate options from words, and also after an equals sign
they are a separator and no value. Every command has `-h` and `--help`.

* `CommandOption` is an option with what it does to the settings `σ` collected so far.
* `Argument.classify` decides what a single argument is. All arguments are classified before any
  takes effect, so an ambiguous name is reported first.
* `collect` lets the options take effect from left to right. Arguments that belong to nothing are
  reported at the end. `givenBy` is the value that an option gets.
* `UsageFault.message` has the words for what is wrong with a command line.
-/

namespace OnePage

namespace Command

/-! ## Faults -/

/-- Why a value is refused. -/
inductive ValueFault where
  /-- It is no number. -/
  | notNumber (given : Text)
  /-- It is none of the words that can be chosen. -/
  | notChoice (given : Text) (choices : List Text)
deriving DecidableEq

/-- The words for a value that is refused. -/
def ValueFault.message : ValueFault → Text
  | notNumber given => "invalid float value: " ++ given.quoted
  | notChoice given choices =>
    "invalid choice: " ++ given.quoted ++ " (choose from " ++
      Text.join ", " (choices.map Text.quoted) ++ ")"

/-- What is wrong with a command line. -/
inductive UsageFault where
  /-- A name was cut so short that several options have it. -/
  | ambiguous (given : Text) (candidates : List Text)
  /-- An option has no value. -/
  | missingValue (names : List Text)
  /-- An option that takes no value was given one. -/
  | unwantedValue (names : List Text) (given : Text)
  /-- An option was given a value that it refuses. -/
  | badValue (names : List Text) (fault : ValueFault)
  /-- Some arguments belong to nothing. -/
  | unrecognized (arguments : List Text)
deriving DecidableEq

/-- The names of one option as messages show them. -/
def shownNames (names : List Text) : Text := "argument " ++ Text.join "/" names ++ ": "

/-- The words for what is wrong. -/
def UsageFault.message : UsageFault → Text
  | ambiguous given candidates =>
    "ambiguous option: " ++ given ++ " could match " ++ Text.join ", " candidates
  | missingValue names => shownNames names ++ "expected one argument"
  | unwantedValue names given => shownNames names ++ "ignored explicit argument " ++ given.quoted
  | badValue names fault => shownNames names ++ fault.message
  | unrecognized arguments => "unrecognized arguments: " ++ Text.join " " arguments

/-! ## Options -/

/-- What an option does to the settings. -/
inductive Effect (σ : Type) where
  /-- It asks for the manual and ends everything else. -/
  | help
  /-- It sets something. -/
  | flag (set : σ → σ)
  /-- It takes a value, which may be left out where a separator stands in its place. -/
  | value (set : Option Text → σ → Except ValueFault σ)

/-- An option. -/
structure CommandOption (σ : Type) where
  /-- Its names, dashes included. -/
  names : List Text
  /-- What it does. -/
  effect : Effect σ

variable {σ : Type}

/-- The option that every command has. -/
def CommandOption.help : CommandOption σ := ⟨["-h", "--help"], .help⟩

/-- All names with the options they belong to. -/
def namesOf (options : List (CommandOption σ)) : List (Text × CommandOption σ) :=
  options.flatMap fun meant => meant.names.map fun name => (name, meant)

/-! ## What a single argument is -/

/-- The dash that options begin with. -/
def dash : CodePoint := CodePoint.ofChar '-'

/-- The two dashes that long names begin with and that separate options from words. -/
def doubleDash : Text := [dash, dash]

/-- The sign between an option and its value. -/
def equalsSign : CodePoint := CodePoint.ofChar '='

/-- What an argument is. -/
inductive Argument (σ : Type) where
  /-- Something that can be the value of an option. -/
  | word
  /-- The two dashes after which there are only words. -/
  | separator
  /-- An option; `joined` is what was written onto a long name after an equals sign, and `run` what
  was written onto a single letter, with such a sign or without. -/
  | named (meant : CommandOption σ) (joined run : Option Text)
  /-- Something like an option that no option has as its name. -/
  | unknown

/-- Whether the text is a negative number without an exponent. -/
def looksNegative (text : Text) : Bool :=
  let digit (c : CodePoint) : Bool := c.decimalValue?.isSome
  match text with
  | [] => false
  | c :: rest =>
    let body := if rest.getLast? = some (CodePoint.ofChar '\n') then rest.dropLast else rest
    let fraction := body.dropWhile digit
    c = dash && match fraction with
      | [] => !body.isEmpty
      | point :: places => point = CodePoint.ofChar '.' && !places.isEmpty && places.all digit

namespace Argument

/-- The parts before and after the first equals sign, if there is one. -/
def splitValue (text : Text) : Text × Option Text :=
  match Text.cutAt? [equalsSign] text with
  | some (name, value) => (name, some value)
  | none => (text, none)

/-- The option of a name that something was written onto. -/
def attach (name : Text) (meant : CommandOption σ) (value : Text) : Argument σ :=
  if doubleDash.isPrefixOf name then .named meant (some value) none
  else .named meant none (some value)

/-- The options an argument may mean by a part of its name: after two dashes, all whose names begin
with what comes before an equals sign; after one, the option of that letter, with the rest of the
argument run onto it. -/
def candidates (options : List (CommandOption σ)) (text : Text) : List (Text × Argument σ) :=
  match text with
  | _ :: second :: run =>
    if second = dash then
      let (beginning, value) := splitValue text
      (namesOf options).filterMap fun (name, meant) =>
        if beginning.isPrefixOf name then some (name, .named meant value none) else none
    else
      (namesOf options).filterMap fun (name, meant) =>
        if name = [dash, second] then some (name, .named meant none (some run)) else none
  | _ => []

/-- What an argument is, if it comes before any separator. -/
def classify (options : List (CommandOption σ)) (text : Text) :
    Except UsageFault (Argument σ) :=
  let known (name : Text) : Option (CommandOption σ) := (namesOf options).lookup name
  if text.head? ≠ some dash ∨ text = [dash] then .ok .word
  else match known text with
    | some meant => .ok (.named meant none none)
    | none =>
      let (name, value) := splitValue text
      match known name, value with
      | some meant, some value => .ok (attach name meant value)
      | _, _ =>
        match candidates options text with
        | [(_, argument)] => .ok argument
        | [] =>
          if looksNegative text ∨ CodePoint.ofChar ' ' ∈ text then .ok .word else .ok .unknown
        | several => .error (.ambiguous text (several.map (·.1)))

/-- What each of several arguments is; after a separator there are only words. -/
def classifyAll (options : List (CommandOption σ)) :
    List Text → Except UsageFault (List (Text × Argument σ))
  | [] => .ok []
  | text :: rest =>
    if text = doubleDash then .ok ((text, .separator) :: rest.map fun word => (word, .word))
    else do
      let argument ← classify options text
      let arguments ← classifyAll options rest
      return (text, argument) :: arguments

end Argument

/-! ## Taking effect -/

/-- Why a command does not begin its work. -/
inductive Halt where
  /-- The manual was asked for. -/
  | help
  /-- The command line is wrong. -/
  | fault (fault : UsageFault)
deriving DecidableEq

/-- What is unwanted in a run written onto the letter `h`. A run may only repeat the letter, which
is the one letter that commands know; what is left after the repetitions is unwanted, and so is an
empty run. -/
def unwantedRun? (run : Text) : Option Text :=
  match run.dropWhile (· = CodePoint.ofChar 'h') with
  | [] => if run.isEmpty then some [] else none
  | left => some left

/-- The value that an option gets from the text in the place of its value: a separator gives it
none. -/
def givenBy (text : Text) : Option Text := if text = doubleDash then none else some text

/-- Lets the options take effect one after the other; `extras` are the arguments so far that belong
to nothing. -/
def collect (extras : List Text) : List (Text × Argument σ) → σ → Except Halt σ
  | [], settings => if extras.isEmpty then .ok settings else .error (.fault (.unrecognized extras))
  | (_, .named ⟨names, .help⟩ joined run) :: _, _ =>
    match joined, run.bind unwantedRun? with
    | some value, _ | none, some value => .error (.fault (.unwantedValue names value))
    | none, none => .error .help
  | (_, .named ⟨names, .flag set⟩ joined run) :: rest, settings =>
    match joined, run with
    | some value, _ | none, some value => .error (.fault (.unwantedValue names value))
    | none, none => collect extras rest (set settings)
  | (_, .named ⟨names, .value set⟩ (some value) _) :: rest, settings
  | (_, .named ⟨names, .value set⟩ none (some value)) :: rest, settings
  | (_, .named ⟨names, .value set⟩ none none) :: (value, .word) :: rest, settings =>
    match set (givenBy value) settings with
    | .ok settings => collect extras rest settings
    | .error fault => .error (.fault (.badValue names fault))
  | (_, .named ⟨names, .value _⟩ none none) :: _, _ => .error (.fault (.missingValue names))
  | (text, _) :: rest, settings => collect (extras ++ [text]) rest settings

/-- The settings that a command line asks for, starting from `settings`. -/
def readOptions (options : List (CommandOption σ)) (settings : σ) (arguments : List Text) :
    Except Halt σ :=
  match Argument.classifyAll (.help :: options) arguments with
  | .error fault => .error (.fault fault)
  | .ok classified => collect [] classified settings

end Command

end OnePage
