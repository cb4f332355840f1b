import OnePage.Proofs.Storage.Snapshot
import OnePage.Proofs.Watch.Schedule

/-!
# What ends a watch

A rebuild may fail with anything: that is said, and watching goes on.  The looks in between are not
guarded in this way.

* **`watch_returns_iff`** — a watch goes on until it is told to stop or interrupted, unless
  something is in the way of a snapshot at one of its looks.
* `watch_fails_looped` — a link to itself among the sources is in the way.
-/

namespace OnePage

namespace Watch

open Site (Program Settings World)
open Storage (Disk Path)

/-! ## Whole watches -/

/-- The line that a watch begins with. -/
def announcement (root : Path) (interval : Json.Number) : Text :=
  "Watch mode started on " ++ root.text ++ " (polling every " ++ interval.shown ++
    "s). Press Ctrl+C to stop."

/-- What there is when a watch takes its first snapshot. -/
def begun (root : Path) (interval : Json.Number) (world : World) : World :=
  { world with console := world.console.inform (announcement root interval) }

section Watch

variable {settings : Settings} {root : Path} {work : Program Unit} {interval : Json.Number}
  {debounce : Float} {stopped : Bool} {pauses : List Pause} {world after : World} {report : Report}

/-- A watch is a session with a line before it, and one after it if it is interrupted. -/
lemma watch_eq_ok_iff :
    (∃ after, watch settings root work interval debounce stopped pauses world =
        .ok report after) ↔
      ∃ after, session root debounce (respond settings work) stopped pauses
        (begun root interval world) = .ok report after := by
  have hbegin :
      Site.inform (announcement root interval) world = .ok () (begun root interval world) := rfl
  have hend (last : World) : ∃ after, (do
      if report.ending = .interrupted then Site.inform "Watch mode stopped."
      return report : Program Report) last = .ok report after := by
    by_cases hinterrupted : report.ending = .interrupted
    · rw [if_pos hinterrupted]
      exact ⟨_, rfl⟩
    · rw [if_neg hinterrupted]
      exact ⟨_, rfl⟩
  constructor
  · rintro ⟨after, h⟩
    obtain ⟨_, w, hfirst, h⟩ := bind_eq_ok.1 h
    obtain rfl : begun root interval world = w :=
      (EStateM.Result.ok.inj (hbegin.symm.trans hfirst)).2
    obtain ⟨given, last, hsession, h⟩ := bind_eq_ok.1 h
    obtain rfl : given = report := by
      split at h
      · obtain ⟨_, w', hsaid, h⟩ := bind_eq_ok.1 h
        exact (EStateM.Result.ok.inj h).1
      · exact (EStateM.Result.ok.inj h).1
    exact ⟨last, hsession⟩
  · rintro ⟨last, hsession⟩
    obtain ⟨after, hafter⟩ := hend last
    exact ⟨after, bind_eq_ok.2
      ⟨(), _, hbegin, bind_eq_ok.2 ⟨report, last, hsession, hafter⟩⟩⟩

end Watch

/-- **What ends a watch.**  A snapshot can be taken unless the path to the tree is too long or the
walk meets a name that is too long, links without an end or a link through what is no directory.  A
watch goes on until it is told to stop or interrupted, exactly if a snapshot can be taken at each of
its looks.  What becomes of the rebuilds does not matter: one that fails is reported. -/
theorem watch_returns_iff (settings : Settings) (root : Path) (work : Program Unit)
    (interval : Json.Number) (debounce : Float) (stopped : Bool) (pauses : List Pause)
    (world : World) :
    (∀ disk : Disk, (∃ s, disk.snapshot root = .ok s) ↔ disk.Unobstructed root) ∧
    ((∃ report after, watch settings root work interval debounce stopped pauses world =
          .ok report after ∧
        report.ending = if stopped || pauses.any (·.stop) then .stopped else .interrupted) ↔
      ∀ seen ∈ begun root interval world :: looks root debounce (respond settings work) stopped
        pauses (begun root interval world), seen.disk.Unobstructed root) ∧
    ∀ (changes : List FileChange) (w : World), ∃ start : World, start.disk = w.disk ∧
      ((∃ done after, work start = .ok () done ∧
          respond settings work changes w = .ok true after) ∨
        ∃ failure done, work start = .error failure done ∧
          respond settings work changes w = .ok false
            { done with
              console := done.console.complain ("Rebuild failed: " ++ failure.message) }) := by
  refine ⟨fun disk => Disk.exists_snapshot_iff_unobstructed, ⟨?_, fun hseen => ?_⟩,
    fun changes w => ?_⟩
  · rintro ⟨report, after, hwatch, -⟩ seen hseen
    obtain ⟨last, hsession⟩ := watch_eq_ok_iff.1 ⟨after, hwatch⟩
    exact Disk.exists_snapshot_iff_unobstructed.1 ((session_eq_ok_recorded hsession).1 seen hseen)
  · obtain ⟨report, last, hsession⟩ := exists_session_eq_ok (exists_respond_eq_ok settings work)
      fun seen hmem => Disk.exists_snapshot_iff_unobstructed.2 (hseen seen hmem)
    obtain ⟨after, hwatch⟩ := watch_eq_ok_iff.2 ⟨last, hsession⟩
    exact ⟨report, after, hwatch, (session_eq_ok_recorded hsession).2.2.1⟩
  · obtain ⟨start, hstart, ⟨done, after, hwork, -, hrespond⟩ | hfailed⟩ :=
      respond_cases settings work changes w
    · exact ⟨start, hstart, .inl ⟨done, after, hwork, hrespond⟩⟩
    · exact ⟨start, hstart, .inr hfailed⟩

/-! ### A link to itself -/

/-- A link to itself is made among the sources. -/
def loopingPause : Pause := ⟨1.0, [⟨Path.parse "src/loop", .link "loop"⟩], true⟩

/-- The fault that a link without an end leads to. -/
def loopFault : Storage.Fault := .system .tooManyLinks (Path.parse "src/loop") none

/-- **A link to itself ends a watch**, with the fault of the snapshot that it is in the way of. -/
theorem watch_fails_looped :
    ((bareWorld.disk.edit loopingPause.edits).snapshot (Path.parse "src") = .error loopFault) ∧
    ∃ after, watch (.usual []) (Path.parse "src") (pure ()) (.real 0.5) 0.0 false
      [loopingPause] bareWorld = .error (.storage loopFault) after := by
  refine ⟨by decide +kernel, ?_⟩
  have hfails : fails (watch (.usual []) (Path.parse "src") (pure ()) (.real 0.5) 0.0 false
      [loopingPause] bareWorld) fun failure _ => decide (failure = .storage loopFault) := by
    decide +kernel
  obtain ⟨failure, after, hwatch, hfailure⟩ := exists_of_fails hfails
  exact ⟨after, of_decide_eq_true hfailure ▸ hwatch⟩

end Watch

end OnePage
