import OnePage.Command.Build

/-!
# The command on real files

`main` runs the command that builds a site on the files whose paths it is given on standard input,
one to a line and in the order in which their directories list them. They are put on a disk, the
command runs on that, and what it has made there is written out. Nobody edits that disk, so a watch
ends with its first sleep.

* `Run.load` and `Run.store` go between the files and the disk; neither decides anything.
* The setting `PWD` names the working directory.
-/

namespace OnePage

namespace Run

open Storage (Disk Node Path)

/-- The lines that are still to be read. -/
partial def lines (input : IO.FS.Stream) : IO (List String) := do
  let line ← input.getLine
  if line.isEmpty then return []
  else return (if line.endsWith "\n" then (line.dropEnd 1).toString else line) :: (← lines input)

/-- The settings that the command looks at, as far as they are set. -/
def environment : IO Environment := do
  let found ← Command.Build.settingKeys.mapM fun key => do
    return (← IO.getEnv key.toString).map fun value => (key, Text.ofString value)
  return found.filterMap id

/-- The disk with a directory that is also where relative paths start from. -/
def standIn (disk : Disk) (p : Path) : Disk :=
  { disk.edit [⟨p, .directory⟩] with here := p.parts.reverse }

/-- The disk with the files of these names on it. -/
def load (disk : Disk) : List String → IO Disk
  | [] => return disk
  | name :: names => do
    let content ← IO.FS.readBinFile name
    let change : Storage.Change := .file content.toList (.given (.whole 0))
    load (disk.edit [⟨Path.parse name, change⟩]) names

/-- Writes what a disk holds: its directories, and the files that a program wrote. -/
def store : List (Text × Node) → IO Unit
  | [] => return
  | (name, .directory _) :: rest => do
    IO.FS.createDirAll name.toString
    store rest
  | (name, .file content (.fresh _)) :: rest => do
    IO.FS.writeBinFile name.toString ⟨content.toArray⟩
    store rest
  | _ :: rest => store rest

/-- Prints what has been said. -/
def tell (console : Console) : IO Unit := do
  IO.print console.out.toString
  IO.eprint console.err.toString

/-- The code that an ending stands for; a message takes the place of a code. -/
def code : Command.Ending → IO UInt32
  | .returned n | .exited n => return n.toUInt32
  | .exitedWith message => do
    IO.eprintln message.toString
    return 1

/-- Writes out a world that a command has left and says what it has said. -/
def finish (world : Site.World) : IO Unit := do
  match world.disk.inventory ⟨.root, []⟩ with
  | .ok found => store found
  | .error fault => IO.eprintln fault.message.toString
  tell world.console

end Run

end OnePage

open OnePage in
/-- Builds the site whose files are named on standard input. -/
def main (arguments : List String) : IO UInt32 := do
  let here := Storage.Path.parse ((← IO.getEnv "PWD").getD "/")
  let disk ← Run.load (Run.standIn .empty here) (← Run.lines (← IO.getStdin))
  let settings := Site.Settings.usual (← Run.environment)
  let command := Command.Build.run settings (arguments.map Text.ofString) []
  match command ⟨disk, .silent, 0.0⟩ with
  | .ok ending world =>
    Run.finish world
    Run.code ending
  | .error failure world =>
    Run.finish world
    IO.eprintln failure.message.toString
    return 1
