import OnePage.Json.Writer
import OnePage.Template.Scan

/-!
# Resolving a template

Placeholders are replaced in one pass over the template; what is put in is never scanned again. A
placeholder for which there is nothing stays as it is and is reported.

* `lookup` follows a path into the data: a step is the key of an object or, as a canonical numeral,
  the index of an array.
* `textAt` is how the value at the end of a path is shown. Only the documents all together, which
  no placeholder can ask for, are not.
* `Token.replacement` is what takes the place of one token.
* `resolve` puts the replacements together and lists the placeholders that were missed.
-/

namespace OnePage

namespace Template

open Json (Value Encoder)

/-- The value that a path leads to. An index with too many digits is a fault. -/
def lookup : Value → List Text → Except Numeral.TooLong (Option Value)
  | value, [] => .ok (some value)
  | .object members, step :: path =>
    match Keyed.get? members step with
    | some value => lookup value path
    | none => .ok none
  | .array items, step :: path =>
    if Numeral.isCanonical step then
      match Numeral.read step with
      | .error fault => .error fault
      | .ok index =>
        match items[index]? with
        | some value => lookup value path
        | none => .ok none
    else .ok none
  | _, _ :: _ => .ok none

/-- Why it cannot be told how the value at the end of a path appears in a page. -/
inductive ShowFault where
  /-- An index has too many digits. -/
  | digits (fault : Numeral.TooLong)
  /-- The value cannot be written. -/
  | unwritable (fault : Json.WriteFault)
deriving DecidableEq

/-- The words for a value that cannot be told or written. -/
def ShowFault.message : ShowFault → Text
  | digits fault => fault.message
  | unwritable fault => fault.message

/-- How the value that a path leads to appears in a page. -/
def lookupText (encoder : Encoder) (data : Value) (path : List Text) :
    Except ShowFault (Option Text) := do
  match ← (lookup data path).mapError .digits with
  | some value => return some (← (Json.embed encoder value).mapError .unwritable)
  | none => return none

/-- Why it cannot be told how the value at the end of any path is shown. -/
inductive PathFault where
  /-- There is such a value, or an index has too many digits. -/
  | value (fault : ShowFault)
  /-- The path has no steps and leads to the documents all together. -/
  | documents
deriving DecidableEq

/-- The words for a path that leads to nothing that can be shown. -/
def PathFault.message : PathFault → Text
  | value fault => fault.message
  | documents => "Object of type mappingproxy is not JSON serializable"

/-- How the value at the end of any path is shown, if there is one. -/
def textAt (encoder : Encoder) (data : Value) (path : List Text) :
    Except PathFault (Option Text) :=
  match data, path with
  | .object _, [] => .error .documents
  | _, _ => (lookupText encoder data path).mapError .value

/-- What a page is made from. -/
structure Sources where
  /-- The data that paths lead into. -/
  data : Value
  /-- The fragments by name. -/
  fragments : Keyed Text
  /-- The encoder for arrays and objects. -/
  encoder : Encoder

/-- What takes the place of a token, if there is anything. Literals and slots stay. -/
def Token.replacement (sources : Sources) : Token → Except ShowFault (Option Text)
  | .literal text => .ok (some text)
  | .sentinel raw _ => .ok (some raw)
  | .component _ name => .ok (sources.fragments.get? name)
  | .data _ path => lookupText sources.encoder sources.data path

/-- A page and the placeholders that were missed on the way to it. -/
structure Resolved where
  /-- The text with everything put in. -/
  text : Text
  /-- The raw text of the placeholders that stayed, in order. -/
  missed : List Text
deriving DecidableEq

/-- The page that tokens make up. -/
def resolveTokens (sources : Sources) : List Token → Except ShowFault Resolved
  | [] => .ok ⟨[], []⟩
  | token :: tokens => do
    let replacement ← token.replacement sources
    let rest ← resolveTokens sources tokens
    match replacement with
    | some text => return ⟨text ++ rest.text, rest.missed⟩
    | none => return ⟨token.text ++ rest.text, token.text :: rest.missed⟩

/-- The page that a template makes up. -/
def resolve (sources : Sources) (template : Text) : Except ShowFault Resolved :=
  resolveTokens sources (scan template)

end Template

end OnePage
