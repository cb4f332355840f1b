import OnePage.Storage.Disk
import OnePage.Storage.Fault

/-!
# Where a path leads

A path is followed part by part. A symbolic link on the way puts the parts of its target in its
place; at most `linkLimit` links are followed for one path.

* `walk` follows parts from the end of a trail. Every part but the last has to name a directory; the
  last may name nothing yet, and then the result ends where it could be made.
* `Disk.locate` follows a path to its end, and `Disk.find` says what lies there. `Disk.locateNew`
  does so for a file that is to be written.
* `Disk.entryPlace` follows a path up to its last part, which is what making, renaming and removing
  an entry are about: a link in the last place is not followed.
-/

namespace OnePage

namespace Storage

/-- At most this many symbolic links are followed for one path. -/
def linkLimit : Nat := 40

/-- A path has at most this many bytes. -/
def pathLimit : Nat := 4095

/-- The parts of a link's target. A slash at the end asks for a directory, as a single dot does, and
counts as an empty part. -/
def targetParts (target : Text) : List Text :=
  let parts := (Text.splitOn slash target).filter (· ≠ [])
  if target.getLast? = some slash ∧ parts ≠ [] then parts ++ [[]] else parts

/-- Where a link's target starts from, the link lying in the directory at the end of a trail. -/
def targetStart (target : Text) (directory : Trail) : Trail :=
  if target.head? = some slash then [] else directory

/-- Follows parts from the end of a trail, with `follow` for what comes after a link. When a file
may be made at the end (`making`), a slash after the last name makes the name that of a directory,
whatever is there. -/
def walkWith (root : Node) (making : Bool) (follow : Trail → List Text → Except Errno Trail) :
    Trail → List Text → Except Errno Trail
  | trail, [] => .ok trail
  | trail, part :: parts =>
    match trail.node? root with
    | none => .error .noEntry
    | some (.directory _) =>
      if part = dotDot then walkWith root making follow trail.tail parts
      else if part = dot ∨ part = [] then walkWith root making follow trail parts
      else if making ∧ parts = [[]] then .error .isDirectory
      else if nameLimit < byteLength part then .error .nameTooLong
      else
        let next := trail.step root (entryName part)
        match next.node? root with
        | some (.link target) => follow (targetStart target trail) (targetParts target ++ parts)
        | _ => walkWith root making follow next parts
    | some _ => .error .notDirectory

/-- Follows parts from the end of a trail, and at most `linksLeft` links on the way. -/
def walk (root : Node) (making : Bool) : (linksLeft : Nat) → Trail → List Text → Except Errno Trail
  | 0 => walkWith root making fun _ _ => .error .tooManyLinks
  | linksLeft + 1 => walkWith root making (walk root making linksLeft)

/-- Why a path does not even reach the disk, if so. -/
def Path.fault? (p : Path) : Option Fault :=
  match Name.fault? 0 p.text with
  | some fault => some (.unencodable fault)
  | none =>
    if CodePoint.ofNat 0 ∈ p.text then some .nul
    else if pathLimit < byteLength p.text then some (.system .nameTooLong p none)
    else none

namespace Disk

/-- Where a path starts. -/
def start (disk : Disk) (p : Path) : Trail :=
  match p.anchor with
  | .here => disk.trail disk.here
  | _ => []

/-- Where parts lead from the start of a path; faults are those of the path. -/
def follow (disk : Disk) (making : Bool) (p : Path) (parts : List Text) : Except Fault Trail :=
  match p.fault? with
  | some fault => .error fault
  | none =>
    (walk disk.root making linkLimit (disk.start p) parts).mapError fun errno =>
      .system errno p none

/-- Where a path leads, links followed to the end. There may be nothing there yet. -/
def locate (disk : Disk) (p : Path) : Except Fault Location :=
  (disk.follow false p p.parts).map Trail.location

/-- Where a path leads if a file is to be there afterwards, links followed to the end. -/
def locateNew (disk : Disk) (p : Path) : Except Fault Location :=
  (disk.follow true p p.parts).map Trail.location

/-- What lies where a path leads. -/
def find (disk : Disk) (p : Path) : Except Fault Node :=
  match disk.follow false p p.parts with
  | .error fault => .error fault
  | .ok trail =>
    match trail.node? disk.root with
    | some node => .ok node
    | none => .error (.system .noEntry p none)

/-- The place of the entry that the last part of a path names, in a directory that is there. Without
a last part, or with a step up, there is none. -/
def entryPlace (disk : Disk) (p : Path) : Except Fault (Option Location) :=
  match p.parts.getLast? with
  | none => match p.fault? with
    | some fault => .error fault
    | none => .ok none
  | some name =>
    match disk.follow false p p.parts.dropLast with
    | .error fault => .error fault
    | .ok trail =>
      match trail.node? disk.root with
      | none => .error (.system .noEntry p none)
      | some (.directory _) =>
        if name = dotDot then .ok none
        else if nameLimit < byteLength name then .error (.system .nameTooLong p none)
        else .ok (some (entryName name :: trail.location))
      | some _ => .error (.system .notDirectory p none)

/-- Whether a path leads to something that satisfies a condition. -/
def leadsTo (disk : Disk) (condition : Node → Bool) (p : Path) : Except Fault Bool :=
  match disk.find p with
  | .ok node => .ok (condition node)
  | .error fault => if fault.meansAbsent then .ok false else .error fault

/-- Whether a path leads to a directory. -/
def isDirectory (disk : Disk) (p : Path) : Except Fault Bool := disk.leadsTo Node.isDirectory p

/-- Whether a path leads to a file. -/
def isFile (disk : Disk) (p : Path) : Except Fault Bool :=
  disk.leadsTo (fun node => match node with | .file _ _ => true | _ => false) p

end Disk

end Storage

end OnePage
