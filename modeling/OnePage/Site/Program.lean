import OnePage.Console
import OnePage.Json.Writer
import OnePage.Site.Failure
import OnePage.Storage.Access

/-!
# Programs

A program works on a disk, says things and looks at a clock.

* `World` is all that a program can see and change; `Program` is a step that may fail and keeps what
  it has changed when it does.
* `Settings` are the circumstances a program runs under and does not change.
* `onDisk` makes a program of an operation on the disk.
-/

namespace OnePage

namespace Site

/-- What programs see and change. -/
structure World where
  /-- The disk. -/
  disk : Storage.Disk
  /-- What has been said. -/
  console : Console
  /-- The time in seconds. -/
  clock : Float

/-- A step that may change the world and may fail. -/
abbrev Program (α : Type) := EStateM Failure World α

/-- What a program runs under. How deep things may nest is told for the place where the program is
called: the more calls it lies in, the less is left to it. -/
structure Settings where
  /-- The named settings. -/
  environment : Environment
  /-- The encoders at hand. -/
  encoder : Json.Encoder
  /-- At most this many containers lie inside each other in a data document. -/
  nesting : Nat
  /-- At most this many of the directories that another one lies in are made along with it. -/
  chain : Nat

/-- The settings of a program that is called from nowhere deep. -/
def Settings.usual (environment : Environment) : Settings where
  environment := environment
  encoder := .usual
  nesting := Json.usualNesting
  chain := Storage.usualChain

variable {α : Type}

/-- Carries out an operation on the disk. -/
def onDisk (operation : Storage.Operation α) : Program α := fun world =>
  match operation world.disk with
  | .ok a disk => .ok a { world with disk }
  | .error fault disk => .error (.storage fault) { world with disk }

/-- Looks at the disk. -/
def consult (look : Storage.Disk → Except Failure α) : Program α := fun world =>
  match look world.disk with
  | .ok a => .ok a world
  | .error failure => .error failure world

/-- Says something. -/
def speak (speech : Console → Console) : Program Unit :=
  modify fun world => { world with console := speech world.console }

/-- Says what the program is doing. -/
def inform (message : Text) : Program Unit := speak (·.inform message)

/-- Says that something may be wrong. -/
def warn (message : Text) : Program Unit := speak (·.warn message)

/-- Says that something is wrong. -/
def complain (message : Text) : Program Unit := speak (·.complain message)

/-- Notes an event, if that was asked for. -/
def observe (settings : Settings) (area event : Text) (facts : List (Text × Text)) :
    Program Unit :=
  speak (·.observe settings.environment area event facts)

/-- The time. -/
def time : Program Float := do return (← get).clock

/-- Lets time pass. -/
def wait (seconds : Float) : Program Unit :=
  modify fun world => { world with clock := world.clock + seconds }

end Site

end OnePage
