import OnePage.Text.CodePoint

/-!
# Keyed lists

A `Keyed α` is a list of texts with a value each, in the order in which the keys first came up. The
members of a JSON object, the documents and fragments of a page and the files of a snapshot are all
kept this way, because their order can be seen in what the program writes.

* `Keyed.get?` finds the value of a key.
* `Keyed.put` gives a key a value: a key that is already there keeps its place.
* `Keyed.ofPairs` puts pairs in one after the other, so that a repeated key has its first place and
  its last value.
-/

namespace OnePage

/-- Texts with a value each, in order. -/
abbrev Keyed (α : Type) := List (Text × α)

namespace Keyed

variable {α : Type}

/-- The value of a key. -/
def get? (entries : Keyed α) (key : Text) : Option α := entries.lookup key

/-- Whether a key has a value. -/
def has (entries : Keyed α) (key : Text) : Bool := (entries.get? key).isSome

/-- The entries after `key` has been given a value: in its old place if it had one, and otherwise at
the end. -/
def put (key : Text) (value : α) : Keyed α → Keyed α
  | [] => [(key, value)]
  | (k, v) :: entries =>
    if k = key then (key, value) :: entries else (k, v) :: put key value entries

/-- The entries that remain when pairs are put in one after the other. -/
def ofPairs (pairs : List (Text × α)) : Keyed α :=
  pairs.foldl (fun entries (key, value) => put key value entries) []

/-- The keys in order. -/
def keys (entries : Keyed α) : List Text := entries.map (·.1)

end Keyed

end OnePage
