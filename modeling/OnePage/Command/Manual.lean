import OnePage.Command.Options
import OnePage.Console

/-!
# Manuals and endings

* `Manual` is what a command says about itself: how it is called, and what its options mean.
* `Ending` is how a command ends: it returns a code, or it breaks off.
* `Manual.halt` is what happens when a command line keeps a command from its work.
-/

namespace OnePage

namespace Command

/-- What a command says about itself. -/
structure Manual where
  /-- Its name. -/
  program : Text
  /-- How it is called, line by line. -/
  usage : List Text
  /-- What it does and what its options mean, line by line. -/
  details : List Text

/-- How a command ends. -/
inductive Ending where
  /-- It has done its work and returns a code. -/
  | returned (code : Nat)
  /-- It breaks off with a code. -/
  | exited (code : Nat)
  /-- It breaks off with a message in place of a code. -/
  | exitedWith (message : Text)
deriving DecidableEq

/-- The ending of a command that runs as a program of its own: a code returned ends the program. -/
def Ending.asProgram : Ending → Ending
  | returned code => exited code
  | ending => ending

namespace Manual

/-- Says several lines. -/
def say (print : Console → Text → Console) (lines : List Text) (console : Console) : Console :=
  lines.foldl print console

/-- What is said, and how the command ends, when its command line keeps it from its work. -/
def halt (manual : Manual) (console : Console) : Halt → Console × Ending
  | .help => (say .print (manual.usage ++ [] :: manual.details) console, .exited 0)
  | .fault fault =>
    let line := manual.program ++ ": error: " ++ fault.message
    (say .printAside (manual.usage ++ [line]) console, .exited 2)

end Manual

end Command

end OnePage
