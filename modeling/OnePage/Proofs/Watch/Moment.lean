import OnePage.Proofs.Site.Steps
import OnePage.Watch.Session

/-!
# A session, look by look

A session that does work is followed from one look to the next.

* `poll_eq_ok_iff` and `poll_eq_ok` — what one look comes to.
* `respond_cases` — what comes of a batch: it is always dealt with, and work that fails is reported.
* `Moment` is a session between two looks; `Moment.next` goes on to the look after a pause and
  `Moment.run` through a list of pauses.
* **`session_eq_ok`** — a session is such a run, through all of its pauses or the first of them.
-/

namespace OnePage

namespace Watch

open Site (Program Settings Config World)
open Storage (Disk Path Snapshot)

/-! ## One look -/

/-- What a look comes to: everything found so far is held back, or handed on. -/
lemma Watcher.look_cases (root : Path) (debounce now : Float) (snapshot : Snapshot)
    (watcher : Watcher) :
    (∃ lastChange, watcher.look root debounce now snapshot =
      (⟨snapshot, watcher.pending ++ differences root watcher.snapshot snapshot, lastChange⟩,
        none)) ∨
      ∃ lastChange changes, watcher.look root debounce now snapshot =
        (⟨snapshot, [], lastChange⟩, some changes) := by
  rw [look]
  generalize (if (!(differences root watcher.snapshot snapshot).isEmpty) = true then now
    else watcher.lastChange) = lastChange
  split
  · exact .inl ⟨lastChange, rfl⟩
  · exact .inr ⟨lastChange, _, rfl⟩

section Poll

variable {β : Type} {root : Path} {debounce : Float} {deliver : List FileChange → Program β}
  {watcher next : Watcher} {pause : Pause} {handed : Option (List FileChange × β)}
  {world after : World}

/-- What there is after a pause. -/
def Pause.passed (pause : Pause) (world : World) : World :=
  ⟨world.disk.edit pause.edits, world.console, world.clock + pause.seconds⟩

/-- A pause and the look after it, step by step. -/
lemma poll_eq : poll root debounce deliver watcher pause world =
    match (pause.passed world).disk.snapshot root with
    | .error fault => .error (.storage fault) (pause.passed world)
    | .ok snapshot =>
      match watcher.look root debounce (pause.passed world).clock snapshot with
      | (next, none) => .ok (next, none) (pause.passed world)
      | (next, some changes) =>
        match deliver changes (pause.passed world) with
        | .ok outcome after => .ok (next, some (changes, outcome)) after
        | .error failure after => .error failure after := by
  have hsleep : sleep pause world = .ok () (pause.passed world) := rfl
  simp only [poll, bind, EStateM.bind, hsleep, takeSnapshot, Site.consult]
  cases (pause.passed world).disk.snapshot root with
  | error fault => rfl
  | ok snapshot =>
    have htime : Site.time (pause.passed world) =
        .ok (pause.passed world).clock (pause.passed world) := rfl
    simp only [Except.mapError, htime]
    rcases watcher.look root debounce (pause.passed world).clock snapshot with ⟨next, _ | changes⟩
    · rfl
    · simp only [EStateM.bind]
      cases deliver changes (pause.passed world) <;> rfl

lemma poll_eq_ok_iff :
    poll root debounce deliver watcher pause world = .ok (next, handed) after ↔
      ∃ snapshot, (pause.passed world).disk.snapshot root = .ok snapshot ∧
        ((watcher.look root debounce (pause.passed world).clock snapshot = (next, none) ∧
            handed = none ∧ after = pause.passed world) ∨
          ∃ changes outcome, watcher.look root debounce (pause.passed world).clock snapshot =
              (next, some changes) ∧
            handed = some (changes, outcome) ∧
            deliver changes (pause.passed world) = .ok outcome after) := by
  rw [poll_eq]
  cases (pause.passed world).disk.snapshot root with
  | error fault => simp
  | ok snapshot =>
    rcases hlook : watcher.look root debounce (pause.passed world).clock snapshot with
      ⟨seen, _ | changes⟩
    · simp only [hlook]
      grind
    · simp only [hlook]
      cases hdeliver : deliver changes (pause.passed world) <;> grind

/-- **What one look comes to.**  It sees the disk as the pause has left it.  Either nothing is
handed on, and whatever has been found is remembered, or something is, and nothing is left of it. -/
lemma poll_eq_ok (h : poll root debounce deliver watcher pause world = .ok (next, handed) after) :
    (pause.passed world).disk.snapshot root = .ok next.snapshot ∧
      ((handed = none ∧ after = pause.passed world ∧
          next.pending = watcher.pending ++ differences root watcher.snapshot next.snapshot) ∨
        ∃ changes outcome, handed = some (changes, outcome) ∧ next.pending = [] ∧
          deliver changes (pause.passed world) = .ok outcome after) := by
  obtain ⟨snapshot, hsnapshot, ⟨hlook, rfl, rfl⟩ | ⟨changes, outcome, hlook, rfl, hdeliver⟩⟩ :=
    poll_eq_ok_iff.1 h
  · rcases Watcher.look_cases root debounce (pause.passed world).clock snapshot watcher with
      ⟨lastChange, hheld⟩ | ⟨lastChange, _, hgiven⟩
    · obtain ⟨rfl, -⟩ := Prod.mk.inj (hheld.symm.trans hlook)
      exact ⟨hsnapshot, .inl ⟨rfl, rfl, rfl⟩⟩
    · simp [hgiven] at hlook
  · rcases Watcher.look_cases root debounce (pause.passed world).clock snapshot watcher with
      ⟨lastChange, hheld⟩ | ⟨lastChange, _, hgiven⟩
    · simp [hheld] at hlook
    · obtain ⟨rfl, -⟩ := Prod.mk.inj (hgiven.symm.trans hlook)
      exact ⟨hsnapshot, .inr ⟨changes, outcome, rfl, rfl, hdeliver⟩⟩

/-- The look that is taken. -/
lemma look_of_poll
    (h : poll root debounce deliver watcher pause world = .ok (next, handed) after) :
    ∃ snapshot, (pause.passed world).disk.snapshot root = .ok snapshot ∧
      watcher.look root debounce (pause.passed world).clock snapshot =
        (next, handed.map (·.1)) := by
  obtain ⟨snapshot, hsnapshot, ⟨hlook, rfl, -⟩ | ⟨changes, outcome, hlook, rfl, -⟩⟩ :=
    poll_eq_ok_iff.1 h
  · exact ⟨snapshot, hsnapshot, hlook⟩
  · exact ⟨snapshot, hsnapshot, hlook⟩

end Poll

/-! ## One batch -/

section Respond

variable {settings : Settings} {work : Program Unit} {changes : List FileChange}
  {world after : World} {succeeded : Bool}

/-- Saying what has changed leaves the disk as it is, and never fails. -/
lemma announce_eq (changes : List FileChange) (world : World) :
    ∃ after, announce changes world = .ok () after ∧ after.disk = world.disk := by
  induction changes generalizing world with
  | nil => exact ⟨world, rfl, rfl⟩
  | cons change changes ih =>
    have hsaid : ∃ w, Site.inform ("File " ++ change.kind.word ++ ": " ++ change.path.text) world =
        .ok () w ∧ w.disk = world.disk := ⟨_, rfl, rfl⟩
    obtain ⟨w, hsaid, hdisk⟩ := hsaid
    obtain ⟨after, hrest, hsame⟩ := ih w
    exact ⟨after, bind_eq_ok.2 ⟨(), w, hsaid, hrest⟩, hsame.trans hdisk⟩

/-- **A batch is always dealt with.**  The work is done once on the disk as it is, and whatever it
leaves is left.  If it fails, then why is said, and nothing else happens. -/
lemma respond_cases (settings : Settings) (work : Program Unit) (changes : List FileChange)
    (world : World) : ∃ start : World, start.disk = world.disk ∧
    ((∃ done after, work start = .ok () done ∧ after.disk = done.disk ∧
        respond settings work changes world = .ok true after) ∨
      ∃ failure done, work start = .error failure done ∧
        respond settings work changes world = .ok false
          { done with
            console := done.console.complain ("Rebuild failed: " ++ failure.message) }) := by
  obtain ⟨start, hsaid, hdisk⟩ := announce_eq changes world
  refine ⟨start, hdisk, ?_⟩
  have htime (w : World) : Site.time w = .ok w.clock w := rfl
  cases hwork : work start with
  | error failure done =>
    refine .inr ⟨failure, done, rfl, ?_⟩
    refine bind_eq_ok.2 ⟨(), start, hsaid, ?_⟩
    simp only [rebuild, bind, EStateM.bind, htime, tryCatch, tryCatchThe, MonadExceptOf.tryCatch,
      EStateM.tryCatch, hwork]
    rfl
  | ok _ done =>
    -- noting how long it took changes nothing
    have hnoted : ∃ after, rebuild settings work changes start = .ok true after ∧
        after.disk = done.disk := by
      simp only [rebuild, bind, EStateM.bind, htime, tryCatch, tryCatchThe,
        MonadExceptOf.tryCatch, EStateM.tryCatch, hwork, pure, EStateM.pure, if_true]
      cases Decimal.milliseconds start.clock done.clock <;> exact ⟨_, rfl, rfl⟩
    obtain ⟨after, hafter, hsame⟩ := hnoted
    exact .inl ⟨done, after, rfl, hsame, bind_eq_ok.2 ⟨(), start, hsaid, hafter⟩⟩

lemma exists_respond_eq_ok (settings : Settings) (work : Program Unit)
    (changes : List FileChange) (world : World) :
    ∃ succeeded after, respond settings work changes world = .ok succeeded after := by
  obtain ⟨_, -, ⟨_, after, -, -, h⟩ | ⟨_, _, -, h⟩⟩ := respond_cases settings work changes world
  · exact ⟨true, after, h⟩
  · exact ⟨false, _, h⟩

/-- **What comes of a batch** that has been dealt with. -/
lemma respond_eq_ok (h : respond settings work changes world = .ok succeeded after) :
    ∃ start done, start.disk = world.disk ∧ after.disk = done.disk ∧
      ((succeeded = true ∧ work start = .ok () done) ∨
        (succeeded = false ∧ ∃ failure, work start = .error failure done)) := by
  obtain ⟨start, hstart, ⟨done, last, hwork, hsame, hrespond⟩ | ⟨failure, done, hwork, hrespond⟩⟩ :=
    respond_cases settings work changes world
  · obtain ⟨rfl, rfl⟩ := EStateM.Result.ok.inj (hrespond.symm.trans h)
    exact ⟨start, done, hstart, hsame, .inl ⟨rfl, hwork⟩⟩
  · obtain ⟨rfl, rfl⟩ := EStateM.Result.ok.inj (hrespond.symm.trans h)
    exact ⟨start, done, hstart, rfl, .inr ⟨rfl, failure, hwork⟩⟩

end Respond

/-! ## From look to look -/

/-- A session between two looks. -/
structure Moment where
  /-- What there is. -/
  world : World
  /-- What the watcher remembers. -/
  watcher : Watcher
  /-- Whether the last build has succeeded. -/
  built : Bool

/-- A disk before and after the edits made in one pause. -/
structure Slept where
  /-- The disk before. -/
  before : Disk
  /-- The disk after. -/
  after : Disk

namespace Moment

variable {settings : Settings} {config : Config} {debounce : Float} {m later last : Moment}
  {pause : Pause} {pauses : List Pause}

/-- The moment after a pause and the look that follows it, in a session that builds a site once
more for every batch. -/
def next (settings : Settings) (config : Config) (debounce : Float) (m : Moment) (pause : Pause) :
    Except Site.Failure Moment :=
  match poll config.source debounce (respond settings (Site.buildAgain settings config)) m.watcher
      pause m.world with
  | .ok (watcher, handed) world => .ok ⟨world, watcher, (handed.map (·.2)).getD m.built⟩
  | .error failure _ => .error failure

/-- What the pauses do to the disk, one after the other, and the moment after the last of them. -/
def run (settings : Settings) (config : Config) (debounce : Float) :
    Moment → List Pause → Except Site.Failure (List Slept × Moment)
  | m, [] => .ok ([], m)
  | m, pause :: pauses => do
    let later ← m.next settings config debounce pause
    let (sleeps, last) ← run settings config debounce later pauses
    return (⟨m.world.disk, m.world.disk.edit pause.edits⟩ :: sleeps, last)

/-- What a build has done is thrown away, and what it has left stays. -/
lemma buildAgain_cases (settings : Settings) (config : Config) (world : World) :
    (∃ result done, Site.build settings config world = .ok result done ∧
        Site.buildAgain settings config world = .ok () done) ∨
      ∃ failure done, Site.build settings config world = .error failure done ∧
        Site.buildAgain settings config world = .error failure done := by
  cases hbuild : Site.build settings config world with
  | ok result done =>
    refine .inl ⟨result, done, rfl, ?_⟩
    simp [Site.buildAgain, bind, EStateM.bind, hbuild, pure, EStateM.pure]
  | error failure done =>
    refine .inr ⟨failure, done, rfl, ?_⟩
    simp [Site.buildAgain, bind, EStateM.bind, hbuild]

/-- **One look in a session.**  It sees the tree as the pause has left it.  Either nothing is built,
and whatever has been found is remembered, or a build begins on the disk as it is, nothing that has
been found is left, and whatever the build leaves is left. -/
lemma next_eq_ok (h : m.next settings config debounce pause = .ok later) :
    (m.world.disk.edit pause.edits).snapshot config.source = .ok later.watcher.snapshot ∧
      ((later.world.disk = m.world.disk.edit pause.edits ∧ later.built = m.built ∧
          later.watcher.pending = m.watcher.pending ++
            differences config.source m.watcher.snapshot later.watcher.snapshot) ∨
        ∃ start done, start.disk = m.world.disk.edit pause.edits ∧ later.world.disk = done.disk ∧
          ((later.built = true ∧ ∃ result, Site.build settings config start = .ok result done) ∨
            (later.built = false ∧
              ∃ failure, Site.build settings config start = .error failure done))) := by
  rw [next] at h
  split at h
  · next watcher handed world hpoll =>
    obtain rfl := Except.ok.inj h
    obtain ⟨hsnapshot, hlook⟩ := poll_eq_ok hpoll
    refine ⟨hsnapshot, ?_⟩
    rcases hlook with ⟨rfl, rfl, hpending⟩ | ⟨changes, succeeded, rfl, hpending, hrespond⟩
    · exact .inl ⟨rfl, rfl, hpending⟩
    · obtain ⟨start, done, hstart, hdone, hwork⟩ := respond_eq_ok hrespond
      refine .inr ⟨start, done, hstart, hdone, ?_⟩
      rcases hwork with ⟨rfl, hwork⟩ | ⟨rfl, failure, hwork⟩
      · obtain ⟨result, after, hbuild, hagain⟩ | ⟨failure, after, -, hagain⟩ :=
          buildAgain_cases settings config start
        · obtain ⟨-, rfl⟩ := EStateM.Result.ok.inj (hagain.symm.trans hwork)
          exact .inl ⟨rfl, result, hbuild⟩
        · simp [hagain] at hwork
      · obtain ⟨result, after, -, hagain⟩ | ⟨_, after, hbuild, hagain⟩ :=
          buildAgain_cases settings config start
        · simp [hagain] at hwork
        · obtain ⟨rfl, rfl⟩ := EStateM.Result.error.inj (hagain.symm.trans hwork)
          exact .inr ⟨rfl, _, hbuild⟩
  · simp at h

section

variable {snapshot : Snapshot} {next : Watcher} {changes : List FileChange}
  (hsnapshot : (pause.passed m.world).disk.snapshot config.source = .ok snapshot)

include hsnapshot

/-- A look at which nothing is handed on. -/
lemma next_of_held (hlook : m.watcher.look config.source debounce (pause.passed m.world).clock
    snapshot = (next, none)) :
    m.next settings config debounce pause = .ok ⟨pause.passed m.world, next, m.built⟩ := by
  simp [Moment.next, poll_eq, hsnapshot, hlook]

/-- A look at which a batch is handed on. -/
lemma next_of_handed {succeeded : Bool} {after : World}
    (hlook : m.watcher.look config.source debounce (pause.passed m.world).clock snapshot =
      (next, some changes))
    (hrespond : respond settings (Site.buildAgain settings config) changes
      (pause.passed m.world) = .ok succeeded after) :
    m.next settings config debounce pause = .ok ⟨after, next, succeeded⟩ := by
  simp [Moment.next, poll_eq, hsnapshot, hlook, hrespond]

end

/-- A run is one look and the run after it. -/
lemma run_cons_eq_ok {sleeps : List Slept} (h : m.run settings config debounce (pause :: pauses) =
    .ok (sleeps, last)) :
    ∃ later rest, m.next settings config debounce pause = .ok later ∧
      later.run settings config debounce pauses = .ok (rest, last) ∧
      sleeps = ⟨m.world.disk, m.world.disk.edit pause.edits⟩ :: rest := by
  rw [run] at h
  obtain ⟨later, hnext, h⟩ := except_bind_eq_ok.1 h
  obtain ⟨⟨rest, last'⟩, hrun, h⟩ := except_bind_eq_ok.1 h
  obtain ⟨rfl, rfl⟩ := Prod.mk.inj (Except.ok.inj h)
  exact ⟨later, rest, hnext, hrun, rfl⟩

end Moment

/-! ## Whole sessions -/

/-- One look, and the session that goes on after it. -/
lemma follow_cons_eq_ok {β : Type} {root : Path} {debounce : Float}
    {deliver : List FileChange → Program β} {done : Nat} {watcher : Watcher} {pause : Pause}
    {pauses : List Pause} {world after : World} {report : Report}
    (h : follow root debounce deliver done watcher (pause :: pauses) world = .ok report after) :
    ∃ next handed middle rest,
      poll root debounce deliver watcher pause world = .ok (next, handed) middle ∧
      (if pause.stop then rest = ⟨[], .stopped⟩ ∧ middle = after
        else follow root debounce deliver (done + 1) next pauses middle = .ok rest after) ∧
      report.ending = rest.ending ∧
      report.batches = (handed.map fun given => (done + 1, given.1)).toList ++ rest.batches := by
  obtain ⟨⟨next, handed⟩, middle, hpoll, h⟩ := bind_eq_ok.1 h
  refine ⟨next, handed, middle, ?_⟩
  dsimp only at h
  split at h
  · next hstop =>
    obtain ⟨rest, last, hrest, h⟩ := bind_eq_ok.1 h
    obtain ⟨rfl, rfl⟩ := EStateM.Result.ok.inj hrest
    have hafter : middle = after := by cases handed <;> exact (EStateM.Result.ok.inj h).2
    refine ⟨⟨[], .stopped⟩, hpoll, by simp [hstop, hafter], ?_⟩
    cases handed <;> obtain ⟨rfl, -⟩ := EStateM.Result.ok.inj h <;> exact ⟨rfl, rfl⟩
  · next hstop =>
    obtain ⟨rest, last, hrest, h⟩ := bind_eq_ok.1 h
    have hafter : last = after := by cases handed <;> exact (EStateM.Result.ok.inj h).2
    refine ⟨rest, hpoll, by simpa [hstop, hafter] using hrest, ?_⟩
    cases handed <;> obtain ⟨rfl, -⟩ := EStateM.Result.ok.inj h <;> exact ⟨rfl, rfl⟩

section Session

variable {settings : Settings} {config : Config} {debounce : Float} {world after : World}
  {pauses : List Pause} {report : Report}

/-- Following a list of pauses runs through all of them, or the first of them. -/
lemma follow_eq_ok {done : Nat} {watcher : Watcher} {built : Bool}
    (h : follow config.source debounce (respond settings (Site.buildAgain settings config)) done
      watcher pauses world = .ok report after) :
    ∃ front sleeps last, front <+: pauses ∧
      Moment.run settings config debounce ⟨world, watcher, built⟩ front = .ok (sleeps, last) ∧
      last.world = after := by
  induction pauses generalizing done watcher built world report after with
  | nil =>
    obtain ⟨-, rfl⟩ := EStateM.Result.ok.inj h
    exact ⟨[], [], _, List.prefix_refl _, rfl, rfl⟩
  | cons pause pauses ih =>
    obtain ⟨watcher', handed, w, rest, hpoll, hrest, -⟩ := follow_cons_eq_ok h
    have hnext (front : List Pause) (sleeps : List Slept) (last : Moment)
        (hrun : Moment.run settings config debounce
          ⟨w, watcher', (handed.map (·.2)).getD built⟩ front = .ok (sleeps, last)) :
        Moment.run settings config debounce ⟨world, watcher, built⟩ (pause :: front) =
          .ok (⟨world.disk, world.disk.edit pause.edits⟩ :: sleeps, last) := by
      simp only [Moment.run, Moment.next, hpoll, bind, Except.bind, hrun, pure, Except.pure]
    split at hrest
    · exact ⟨[pause], _, _, by simp, hnext [] [] _ rfl, hrest.2⟩
    · obtain ⟨front, sleeps, last, hfront, hrun, hworld⟩ := ih hrest
      exact ⟨pause :: front, _, last, List.cons_prefix_cons.2 ⟨rfl, hfront⟩,
        hnext front sleeps last hrun, hworld⟩

/-- **A session is a run**, from its first snapshot on, through all of its pauses or the first of
them. -/
theorem session_eq_ok {stopped built : Bool}
    (hsession : session config.source debounce (respond settings (Site.buildAgain settings config))
      stopped pauses world = .ok report after) :
    ∃ snapshot front sleeps last, world.disk.snapshot config.source = .ok snapshot ∧
      front <+: pauses ∧
      Moment.run settings config debounce ⟨world, .start snapshot, built⟩ front =
        .ok (sleeps, last) ∧
      last.world = after := by
  obtain ⟨snapshot, w, hlook, hrest⟩ := bind_eq_ok.1 hsession
  obtain ⟨hsnapshot, rfl⟩ := Site.consult_eq_ok.1 hlook
  have hsnapshot := mapError_eq_ok.1 hsnapshot
  split at hrest
  · obtain ⟨-, rfl⟩ := EStateM.Result.ok.inj hrest
    exact ⟨snapshot, [], [], _, hsnapshot, List.nil_prefix, rfl, rfl⟩
  · obtain ⟨front, sleeps, last, hfront, hrun, hworld⟩ := follow_eq_ok hrest
    exact ⟨snapshot, front, sleeps, last, hsnapshot, hfront, hrun, hworld⟩

end Session

end Watch

end OnePage
