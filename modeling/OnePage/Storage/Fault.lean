import OnePage.Storage.Path

/-!
# Faults of the disk

* `Errno` lists what an operation on a path can run into.
* `Fault` is such a thing together with the paths concerned, or one of the reasons for which a path
  or a text does not even reach the disk.
* `Fault.meansAbsent` singles out the faults that a question such as “is this a directory?” takes
  for a no.
-/

namespace OnePage

namespace Storage

/-- What an operation on a path can run into. -/
inductive Errno where
  /-- There is nothing of this name. -/
  | noEntry
  /-- The name stands for a directory that is in use. -/
  | busy
  /-- There is something of this name already. -/
  | alreadyThere
  /-- A directory was needed, and this is none. -/
  | notDirectory
  /-- Something other than a directory was needed. -/
  | isDirectory
  /-- A name or the path as a whole is too long. -/
  | nameTooLong
  /-- More symbolic links were met than are followed. -/
  | tooManyLinks
deriving DecidableEq

/-- The number of a fault. -/
def Errno.number : Errno → Nat
  | noEntry => 2
  | busy => 16
  | alreadyThere => 17
  | notDirectory => 20
  | isDirectory => 21
  | nameTooLong => 36
  | tooManyLinks => 40

/-- The words for a fault. -/
def Errno.message : Errno → Text
  | noEntry => "No such file or directory"
  | busy => "Device or resource busy"
  | alreadyThere => "File exists"
  | notDirectory => "Not a directory"
  | isDirectory => "Is a directory"
  | nameTooLong => "File name too long"
  | tooManyLinks => "Too many levels of symbolic links"

/-- Why an operation failed. -/
inductive Fault where
  /-- The disk refused an operation on a path, or on a path and the one it was to become. -/
  | system (errno : Errno) (path : Path) (target : Option Path)
  /-- A file was to be copied onto itself. -/
  | sameFile (source target : Path)
  /-- A path asks for a directory that is not there. -/
  | noDirectory (path : Path)
  /-- Too many directories inside each other were to be made at once. -/
  | tooDeep
  /-- A path holds a NUL. -/
  | nul
  /-- A path or a text cannot be written as bytes. -/
  | unencodable (fault : Utf8.EncodeFault)
deriving DecidableEq

/-- The words for a fault. -/
def Fault.message : Fault → Text
  | system errno path target =>
    let goal : Text := match target with
      | some target => " -> " ++ target.quoted
      | none => []
    "[Errno " ++ Numeral.ofNat errno.number ++ "] " ++ errno.message ++ ": " ++ path.quoted ++ goal
  | sameFile source target =>
    "PosixPath(" ++ source.quoted ++ ") and PosixPath(" ++ target.quoted ++ ") are the same file"
  | noDirectory path => "Directory does not exist: " ++ path.text
  | tooDeep => "maximum recursion depth exceeded while calling a Python object"
  | nul => "embedded null byte"
  | unencodable fault => fault.message

/-- Whether a question about a path takes the fault for a no. -/
def Fault.meansAbsent : Fault → Bool
  | system .noEntry _ _ | system .notDirectory _ _ | system .tooManyLinks _ _ => true
  | nul | unencodable _ => true
  | _ => false

end Storage

end OnePage
