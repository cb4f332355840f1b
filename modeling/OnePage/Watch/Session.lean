import OnePage.Json.Shown
import OnePage.Site.Program
import OnePage.Storage.Edit
import OnePage.Watch.Watcher

/-!
# A watching session

Between two looks a watcher sleeps, and meanwhile time passes and files are changed. A session
follows a list of such pauses and ends when it is told to stop or when it is interrupted.

* `Pause` is what happens during one sleep, and `Report` is what a session has handed on.
* `poll` is one sleep and the look after it, and `follow` goes from one to the next; every batch is
  dealt with before the next sleep.
* `rebuild` deals with a batch by doing a piece of work once more. Whatever that fails with is
  reported, and watching goes on. `respond` says what has changed first.
* `watch` is a session that responds so, with a line at its beginning and one when it is
  interrupted.
-/

namespace OnePage

namespace Watch

open Site (Program Settings)

/-- What happens while a watcher sleeps. -/
structure Pause where
  /-- How many seconds pass. -/
  seconds : Float
  /-- Which files are changed. -/
  edits : List Storage.Edit
  /-- Whether the watcher is told to stop, so that the look after this sleep is its last. -/
  stop : Bool

/-- How a session ends. -/
inductive Ending where
  /-- It was told to stop. -/
  | stopped
  /-- It was interrupted in its sleep. -/
  | interrupted
deriving DecidableEq

/-- What a session has handed on. -/
structure Report where
  /-- Every batch with the number of the look that handed it on, counted from one. -/
  batches : List (Nat × List FileChange)
  /-- How the session ended. -/
  ending : Ending
deriving DecidableEq

/-- The state of the tree below a path. -/
def takeSnapshot (root : Storage.Path) : Program Storage.Snapshot :=
  Site.consult fun disk => (disk.snapshot root).mapError .storage

/-- Sleeps through a pause. -/
def sleep (pause : Pause) : Program Unit := do
  Site.wait pause.seconds
  modify fun world => { world with disk := world.disk.edit pause.edits }

variable {β : Type}

/-- Sleeps through a pause, looks and lets `deliver` deal with what is handed on. The result is what
the watcher remembers and, if something was handed on, that with what came of it. -/
def poll (root : Storage.Path) (debounce : Float) (deliver : List FileChange → Program β)
    (watcher : Watcher) (pause : Pause) : Program (Watcher × Option (List FileChange × β)) := do
  sleep pause
  let snapshot ← takeSnapshot root
  match watcher.look root debounce (← Site.time) snapshot with
  | (watcher, none) => return (watcher, none)
  | (watcher, some changes) =>
    let outcome ← deliver changes
    return (watcher, some (changes, outcome))

/-- Goes on after `done` looks, until there is no pause left or the watcher is told to stop. -/
def follow (root : Storage.Path) (debounce : Float) (deliver : List FileChange → Program β) :
    (done : Nat) → Watcher → List Pause → Program Report
  | _, _, [] => return ⟨[], .interrupted⟩
  | done, watcher, pause :: pauses => do
    let (watcher, handed) ← poll root debounce deliver watcher pause
    let rest ←
      if pause.stop then pure ⟨[], .stopped⟩
      else follow root debounce deliver (done + 1) watcher pauses
    match handed with
    | some (changes, _) => return { rest with batches := (done + 1, changes) :: rest.batches }
    | none => return rest

/-- A session from its first snapshot on. One that is told to stop beforehand does not look
again. -/
def session (root : Storage.Path) (debounce : Float) (deliver : List FileChange → Program β)
    (stopped : Bool) (pauses : List Pause) : Program Report := do
  let snapshot ← takeSnapshot root
  if stopped then return ⟨[], .stopped⟩
  else follow root debounce deliver 0 (.start snapshot) pauses

/-- Does the work once more because of some changes, and says whether it succeeded. How long that
took is noted if it can be told. -/
def rebuild (settings : Settings) (work : Program Unit) (changes : List FileChange) :
    Program Bool := do
  let start ← Site.time
  let succeeded ←
    try
      work
      pure true
    catch failure =>
      Site.complain ("Rebuild failed: " ++ failure.message)
      pure false
  if succeeded then
    if let .ok elapsed := Decimal.milliseconds start (← Site.time) then
      Site.observe settings "watch" "rebuild.ok"
        [("ms", Numeral.ofInt elapsed), ("changes", Numeral.ofNat changes.length)]
  return succeeded

/-- Says what has changed, one file after the other. -/
def announce : List FileChange → Program Unit
  | [] => return
  | change :: changes => do
    Site.inform ("File " ++ change.kind.word ++ ": " ++ change.path.text)
    announce changes

/-- Says what has changed and does the work once more. -/
def respond (settings : Settings) (work : Program Unit) (changes : List FileChange) :
    Program Bool := do
  announce changes
  rebuild settings work changes

/-- How often a watcher looks unless told otherwise, in seconds. -/
def defaultInterval : Float := 0.5

/-- Watches a tree and does the work once more for every batch. The `interval` between two looks is
only told to the user. -/
def watch (settings : Settings) (root : Storage.Path) (work : Program Unit)
    (interval : Json.Number) (debounce : Float) (stopped : Bool) (pauses : List Pause) :
    Program Report := do
  Site.inform ("Watch mode started on " ++ root.text ++ " (polling every " ++ interval.shown ++
    "s). Press Ctrl+C to stop.")
  let report ← session root debounce (respond settings work) stopped pauses
  if report.ending = .interrupted then Site.inform "Watch mode stopped."
  return report

end Watch

end OnePage
