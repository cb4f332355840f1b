import OnePage.Keyed
import OnePage.Text.Blank

/-!
# What a program says

A program says things in lines, on one of two channels: what it is doing goes out, and what it finds
wrong goes to the side.

* `Console` is what has been said so far.
* `Console.inform`, `Console.warn` and `Console.complain` say a line with the program's tag.
* `Console.observe` notes an event for whoever asked for such notes by setting `observationKey`.
-/

namespace OnePage

/-- The named settings a program is started with. -/
abbrev Environment := Keyed Text

/-- What has been said so far. -/
structure Console where
  /-- What went out. -/
  out : Text
  /-- What went to the side. -/
  err : Text
deriving DecidableEq

namespace Console

/-- Nothing has been said. -/
def silent : Console := ⟨[], []⟩

/-- Says a line. -/
def print (console : Console) (line : Text) : Console :=
  { console with out := console.out ++ line ++ Text.newline }

/-- Says a line to the side. -/
def printAside (console : Console) (line : Text) : Console :=
  { console with err := console.err ++ line ++ Text.newline }

/-- The tag of the program's own lines. -/
def tag : Text := "[pagesmith]"

/-- Says what the program is doing. -/
def inform (console : Console) (message : Text) : Console := console.print (tag ++ " " ++ message)

/-- Says that something may be wrong. -/
def warn (console : Console) (message : Text) : Console :=
  console.printAside (tag ++ " WARN: " ++ message)

/-- Says that something is wrong. -/
def complain (console : Console) (message : Text) : Console :=
  console.printAside (tag ++ " ERROR: " ++ message)

/-- The setting that asks for notes on events. -/
def observationKey : Text := "PAGESMITH_OBS_LOG"

/-- The words that say yes. -/
def affirmations : List Text := ["1", "true", "yes", "on"]

/-- Whether notes on events were asked for. -/
def observes (environment : Environment) : Bool :=
  affirmations.contains ((environment.get? observationKey).getD []).trim.toLower

/-- The line that notes an event, with what is to be known about it. -/
def observation (area event : Text) (facts : List (Text × Text)) : Text :=
  let shown := Text.join " " (facts.map fun (name, value) => name ++ "=" ++ value)
  let ending : Text := if shown.isEmpty then [] else " " ++ shown
  "[pagesmith." ++ area ++ "] " ++ event ++ ending

/-- Notes an event, if that was asked for. -/
def observe (console : Console) (environment : Environment) (area event : Text)
    (facts : List (Text × Text)) : Console :=
  if observes environment then console.printAside (observation area event facts) else console

end Console

end OnePage
