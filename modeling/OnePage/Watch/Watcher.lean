import OnePage.Storage.Walk
import OnePage.Watch.Change

/-!
# Watching a tree

A watcher looks at a tree from time to time and hands on what has changed. Changes can be held back
until the tree has been quiet for a while, so that a burst of them is handed on as one batch.

* `Watcher` is what a watcher remembers between two looks: the last snapshot, the changes held back
  and the time of the last look that found any.
* `Watcher.look` is one look. It returns what is handed on, if anything.
-/

namespace OnePage

namespace Watch

/-- What a watcher remembers. -/
structure Watcher where
  /-- The tree as it was last seen. -/
  snapshot : Storage.Snapshot
  /-- The changes that have not been handed on, in the order in which they were found. -/
  pending : List FileChange
  /-- When changes were last found. -/
  lastChange : Float

namespace Watcher

/-- A watcher that begins with a snapshot and ignores whatever led to it. -/
def start (snapshot : Storage.Snapshot) : Watcher := ⟨snapshot, [], 0.0⟩

/-- Whether changes are still held back at the time `now`: with a positive `debounce`, as long as
the tree keeps changing and until it has been quiet for that many seconds. -/
def holdsBack (debounce now lastChange : Float) (changing : Bool) : Bool :=
  0.0 < debounce && (changing || now - lastChange < debounce)

/-- One look at the tree below `root`, which finds `snapshot` at the time `now`. -/
def look (root : Storage.Path) (debounce now : Float) (snapshot : Storage.Snapshot)
    (watcher : Watcher) : Watcher × Option (List FileChange) :=
  let changes := differences root watcher.snapshot snapshot
  let pending := watcher.pending ++ changes
  let changing := !changes.isEmpty
  let lastChange := if changing then now else watcher.lastChange
  if pending.isEmpty || holdsBack debounce now lastChange changing then
    (⟨snapshot, pending, lastChange⟩, none)
  else (⟨snapshot, [], lastChange⟩, some pending)

end Watcher

end Watch

end OnePage
