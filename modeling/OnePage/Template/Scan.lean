import OnePage.Json.Value
import OnePage.Template.Token

/-!
# Scanning a template

* `contentAt?` says whether a placeholder begins here: two opening braces, at least one code point
  other than a closing brace, and then two closing braces. The content runs up to the first closing
  brace, so it may hold opening braces and line breaks.
* `scan` takes the leftmost placeholder each time and makes literals of everything between. The
  texts of the tokens put together are the template again.
* `unresolved` lists the placeholders in a text that ask for data or for a fragment.
-/

namespace OnePage

namespace Template

/-- The content of the placeholder that the text begins with. -/
def contentAt? (text : Text) : Option Text :=
  match Text.after? [openBrace, openBrace] text with
  | none => none
  | some body =>
    let content := body.takeWhile (· ≠ closeBrace)
    let closed := Text.after? [closeBrace, closeBrace] (body.dropWhile (· ≠ closeBrace))
    if content ≠ [] ∧ closed.isSome then some content else none

/-- The tokens with one more code point of literal text before them. -/
def addLiteral (c : CodePoint) : List Token → List Token
  | .literal text :: tokens => .literal (c :: text) :: tokens
  | tokens => .literal [c] :: tokens

/-- The tokens of a text of which the first `skip` code points belong to a placeholder already
taken. -/
def scanFrom : (skip : Nat) → Text → List Token
  | _, [] => []
  | skip + 1, _ :: text => scanFrom skip text
  | 0, c :: text =>
    match contentAt? (c :: text) with
    | some content =>
      .classify (placeholder content) content :: scanFrom (content.length + 3) text
    | none => addLiteral c (scanFrom 0 text)

/-- The tokens of a template, from left to right. -/
def scan (text : Text) : List Token := scanFrom 0 text

/-- The placeholders of a text that ask for data or for a fragment, in order. -/
def unresolved (text : Text) : List Text := (scan text).filterMap Token.wanted?

/-- A template given as a value has to be a string. -/
def ofValue : Json.Value → Except Json.KindFault Text
  | .string text => .ok text
  | value => .error ⟨"template", "str", value.kind⟩

end Template

end OnePage
