import OnePage.Decimal.Exact
import OnePage.Json.Reader
import OnePage.Json.Writer
import OnePage.Page.Mode
import OnePage.Storage.Fault

/-!
# Why a build fails

* `LoadFault` is about one file of a site that cannot be read or understood; a build does not go on
  after it. `LoadFault.message` names the file.
* `Unset` is a setting without which a build cannot even be begun.
* `Failure` is whatever can end a build, or something that was given from outside as a failure.
-/

namespace OnePage

namespace Site

/-- What a file was to be read for. -/
inductive Purpose where
  /-- A data document or a fragment. -/
  | source
  /-- The template of the page. -/
  | template
  /-- A style sheet or script that becomes part of the page. -/
  | asset
deriving DecidableEq

/-- How messages name a file with a purpose of its own. -/
def Purpose.word : Purpose → Text
  | source => []
  | template => "template "
  | asset => "asset "

/-- What is wrong with a file. -/
inductive LoadCause where
  /-- The disk does not give out its contents. -/
  | unreadable (purpose : Purpose) (fault : Storage.Fault)
  /-- Its contents are no text. -/
  | undecodable (purpose : Purpose) (fault : Utf8.DecodeFault)
  /-- Its text is no JSON. -/
  | malformed (complaint : Json.Complaint) (place : Json.Place)
  /-- Something else, in words of its own. -/
  | stated (words : Text)
deriving DecidableEq

/-- A file that a build needs and cannot use. -/
structure LoadFault where
  /-- What is wrong with it. -/
  cause : LoadCause
  /-- Where it is, if that is known. -/
  path : Option Storage.Path
deriving DecidableEq

/-- The words for a file that cannot be used. -/
def LoadFault.message (fault : LoadFault) : Text :=
  let place := (fault.path.map Storage.Path.text).getD []
  match fault.cause with
  | .unreadable purpose reason =>
    "Failed to read " ++ purpose.word ++ place ++ ": " ++ reason.message
  | .undecodable purpose reason =>
    "Failed to read " ++ purpose.word ++ place ++ ": " ++ reason.message
  | .malformed complaint position =>
    "Malformed JSON in " ++ place ++ " (line " ++ Numeral.ofNat position.line ++ ", column " ++
      Numeral.ofNat position.column ++ "): " ++ complaint.message
  | .stated words => words

/-- What an option was to set that was left without a value. -/
inductive Unset where
  /-- A directory. -/
  | directory
  /-- The time between two looks at the sources, which has to be positive. -/
  | interval
  /-- The time for which the sources must be quiet, which must not be negative. -/
  | debounce
deriving DecidableEq

/-- The words for a setting without a value. -/
def Unset.message : Unset → Text
  | directory => "expected str, bytes or os.PathLike object, not list"
  | interval => "'<=' not supported between instances of 'list' and 'int'"
  | debounce => "'<' not supported between instances of 'list' and 'int'"

/-- Whatever can end a build. -/
inductive Failure where
  /-- A file cannot be used. -/
  | load (fault : LoadFault)
  /-- The disk refused something. -/
  | storage (fault : Storage.Fault)
  /-- A whole number has too many digits. -/
  | digits (fault : Numeral.TooLong)
  /-- Containers in a document lie too deep inside each other. -/
  | nesting (container : Json.Container)
  /-- A value cannot be put into the page. -/
  | unwritable (fault : Json.WriteFault)
  /-- Bytes that were to be a text are none. -/
  | undecodable (fault : Utf8.DecodeFault)
  /-- A time cannot be told in milliseconds. -/
  | range (fault : Decimal.RangeFault)
  /-- There is no mode to build in. -/
  | mode (fault : ModeFault)
  /-- A setting has no value. -/
  | unset (what : Unset)
  /-- Something else, in words of its own. -/
  | stated (words : Text)
deriving DecidableEq

/-- The words for a failure. -/
def Failure.message : Failure → Text
  | load fault => fault.message
  | storage fault => fault.message
  | digits fault => fault.message
  | nesting container => (Json.ReadFault.nesting container).message
  | unwritable fault => fault.message
  | undecodable fault => fault.message
  | range fault => fault.message
  | mode fault => fault.message
  | unset what => what.message
  | stated words => words

/-- Whether the failure is one that a command reports and ends with: a file that cannot be used, or
something that the disk refused. A path with a NUL and a text that cannot be written are not. -/
def Failure.isReported : Failure → Bool
  | load _ => true
  | storage (.system _ _ _) | storage (.sameFile _ _) | storage (.noDirectory _) => true
  | _ => false

end Site

end OnePage
