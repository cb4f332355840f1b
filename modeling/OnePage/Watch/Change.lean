import OnePage.Storage.Path
import OnePage.Keyed

/-!
# What has changed in a tree

* `FileChange` is a file that has been added, modified or deleted.
* `differences` compares two snapshots of a tree, which give every file a stamp: first the files of
  the newer one in their order, then the deleted ones in theirs. Any other stamp counts as a
  modification, an older one too.
-/

namespace OnePage

namespace Watch

/-- What has happened to a file. -/
inductive ChangeKind where
  /-- It was not there before. -/
  | added
  /-- It was written. -/
  | modified
  /-- It is no longer there. -/
  | deleted
deriving DecidableEq

/-- The word for what has happened. -/
def ChangeKind.word : ChangeKind → Text
  | added => "added"
  | modified => "modified"
  | deleted => "deleted"

/-- A file that something has happened to. -/
structure FileChange where
  /-- What has happened. -/
  kind : ChangeKind
  /-- The file. -/
  path : Storage.Path
deriving DecidableEq

variable {σ : Type} [DecidableEq σ]

/-- What has happened to a file of the newer snapshot, if anything. -/
def arrival (root : Storage.Path) (old : Keyed σ) (name : Text) (stamp : σ) : Option FileChange :=
  match old.get? name with
  | none => some ⟨.added, root.join name⟩
  | some before => if before = stamp then none else some ⟨.modified, root.join name⟩

/-- The deletion of a file of the older snapshot, if it is gone. -/
def departure (root : Storage.Path) (new : Keyed σ) (name : Text) : Option FileChange :=
  if new.has name then none else some ⟨.deleted, root.join name⟩

/-- What has happened between two snapshots of the tree below `root`. -/
def differences (root : Storage.Path) (old new : Keyed σ) : List FileChange :=
  new.filterMap (fun (name, stamp) => arrival root old name stamp) ++
    old.filterMap fun (name, _) => departure root new name

end Watch

end OnePage
