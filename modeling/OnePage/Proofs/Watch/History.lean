import OnePage.Proofs.Watch.Moment

/-!
# What a watcher sees and hands on

A session is determined by the snapshots it takes and by the times at which it takes them.

* `History` — a snapshot to start from, and the snapshot and the time of every look after it.
  `History.watcher` and `History.handed` are what these looks come to, one after the other, and
  `History.batches` is what they hand on.
* `looks` — what there is at each look of a session, whatever is done with its batches.
* **`session_eq_ok_recorded`** — a session hands on what the history of its own looks does, and it
  looks once in every pause up to the first in which it is told to stop.
-/

namespace OnePage

namespace Watch

open Site (Program World)
open Storage (Path Snapshot)

/-- What a watcher sees.  Number zero is what it starts from, and the looks after it are counted
from one. -/
structure History where
  /-- The tree at each look. -/
  snapshot : Nat → Snapshot
  /-- The time of each look. -/
  time : Nat → Float

namespace History

variable (h : History) (root : Path) (debounce : Float)

/-- What a look finds to have changed since the look before. -/
def found : Nat → List FileChange
  | 0 => []
  | k + 1 => differences root (h.snapshot k) (h.snapshot (k + 1))

/-- What the looks after look `p` find, up to look `k` and in their order. -/
def foundSince (p k : Nat) : List FileChange := (List.range' (p + 1) (k - p)).flatMap (h.found root)

/-- The watcher after `n` looks. -/
def watcher : Nat → Watcher
  | 0 => .start (h.snapshot 0)
  | n + 1 => ((watcher n).look root debounce (h.time (n + 1)) (h.snapshot (n + 1))).1

/-- What a look hands on, if anything. -/
def handed : Nat → Option (List FileChange)
  | 0 => none
  | n + 1 => ((h.watcher root debounce n).look root debounce (h.time (n + 1))
      (h.snapshot (n + 1))).2

/-- What `count` looks hand on, beginning with look `first`. -/
def batchesFrom (first count : Nat) : List (Nat × List FileChange) :=
  (List.range' first count).filterMap fun k =>
    (h.handed root debounce k).map fun batch => (k, batch)

/-- What the first `n` looks hand on. -/
def batches (n : Nat) : List (Nat × List FileChange) := h.batchesFrom root debounce 1 n

variable {h root debounce}

@[simp] lemma foundSince_self (p : Nat) : h.foundSince root p p = [] := by simp [foundSince]

lemma foundSince_succ {p n : Nat} (hp : p ≤ n) :
    h.foundSince root p (n + 1) = h.foundSince root p n ++ h.found root (n + 1) := by
  have hcount : n + 1 - p = (n - p) + 1 := by omega
  have hlast : p + 1 + (n - p) = n + 1 := by omega
  rw [foundSince, hcount, List.range'_1_concat, List.flatMap_append, hlast]
  simp [foundSince]

lemma foundSince_append {p k n : Nat} (hpk : p ≤ k) (hkn : k ≤ n) :
    h.foundSince root p k ++ h.foundSince root k n = h.foundSince root p n := by
  induction n, hkn using Nat.le_induction with
  | base => simp
  | succ n hkn ih =>
    rw [foundSince_succ hkn, foundSince_succ (hpk.trans hkn), ← ih, List.append_assoc]

lemma foundSince_eq_nil_iff {p k : Nat} :
    h.foundSince root p k = [] ↔ ∀ i, p < i → i ≤ k → h.found root i = [] := by
  rw [foundSince, List.flatMap_eq_nil_iff]
  constructor
  · intro hall i hpi hik
    exact hall i (List.mem_range'_1.2 (by omega))
  · intro hall i hi
    have hbounds := List.mem_range'_1.1 hi
    exact hall i (by omega) (by omega)

/-- If anything is found at all, then there is a last look that finds something. -/
lemma exists_last_found {p n : Nat} (hfound : h.foundSince root p n ≠ []) :
    ∃ j, p < j ∧ j ≤ n ∧ h.found root j ≠ [] ∧ ∀ i, j < i → i ≤ n → h.found root i = [] := by
  induction n with
  | zero => simp [foundSince] at hfound
  | succ n ih =>
    have hpn : p ≤ n := by
      by_contra hlt
      have hnone : n + 1 - p = 0 := by omega
      simp [foundSince, hnone] at hfound
    by_cases hlast : h.found root (n + 1) = []
    · rw [foundSince_succ hpn, hlast, List.append_nil] at hfound
      obtain ⟨j, hpj, hjn, hj, hquiet⟩ := ih hfound
      refine ⟨j, hpj, by omega, hj, fun i hji hin => ?_⟩
      rcases Nat.lt_or_eq_of_le hin with hlt | rfl
      · exact hquiet i hji (by omega)
      · exact hlast
    · exact ⟨n + 1, by omega, le_refl _, hlast, fun i hji hin => absurd hin (by omega)⟩

lemma mem_batches {n k : Nat} {batch : List FileChange} :
    (k, batch) ∈ h.batches root debounce n ↔ k ≤ n ∧ h.handed root debounce k = some batch := by
  simp only [batches, batchesFrom, List.mem_filterMap, List.mem_range'_1, Option.map_eq_some_iff]
  constructor
  · rintro ⟨i, hi, b, hb, heq⟩
    obtain ⟨rfl, rfl⟩ := Prod.mk.inj heq
    exact ⟨by omega, hb⟩
  · rintro ⟨hk, hb⟩
    -- nothing is handed on before the first look
    have hpos : k ≠ 0 := by
      rintro rfl
      simp [handed] at hb
    exact ⟨k, by omega, batch, hb, rfl⟩

lemma batches_succ (n : Nat) : h.batches root debounce (n + 1) =
    h.batches root debounce n ++
      ((h.handed root debounce (n + 1)).map fun batch => (n + 1, batch)).toList := by
  have hlast : 1 + n = n + 1 := by omega
  rw [batches, batchesFrom, List.range'_1_concat, List.filterMap_append, hlast, batches,
    batchesFrom]
  cases hhanded : h.handed root debounce (n + 1) <;> simp [hhanded]

lemma batches_ordered (n : Nat) : (h.batches root debounce n).Pairwise fun a b => a.1 < b.1 := by
  refine List.Pairwise.filterMap _ ?_ List.pairwise_lt_range'
  intro k k' hlt a ha b hb
  obtain ⟨_, -, rfl⟩ := Option.map_eq_some_iff.1 ha
  obtain ⟨_, -, rfl⟩ := Option.map_eq_some_iff.1 hb
  exact hlt

end History

/-! ## The looks of a session -/

/-- The pauses up to the first in which the watcher is told to stop. -/
def heeded : List Pause → List Pause
  | [] => []
  | pause :: pauses => pause :: if pause.stop then [] else heeded pauses

section Looks

variable {β : Type} (root : Path) (debounce : Float) (deliver : List FileChange → Program β)

/-- What there is at each look from a moment on, as long as nothing fails. -/
def looksFrom : Watcher → List Pause → World → List World
  | _, [], _ => []
  | watcher, pause :: pauses, world =>
    pause.passed world ::
      if pause.stop then []
      else match poll root debounce deliver watcher pause world with
        | .ok (next, _) after => looksFrom next pauses after
        | .error _ _ => []

/-- What there is at each look of a session after the first snapshot, as long as nothing fails. -/
def looks (stopped : Bool) (pauses : List Pause) (world : World) : List World :=
  match world.disk.snapshot root with
  | .error _ => []
  | .ok snapshot =>
    if stopped then [] else looksFrom root debounce deliver (.start snapshot) pauses world

end Looks

/-- The history of looks at some worlds, the first of which is the one to start from. -/
def recorded (root : Path) (worlds : List World) : History where
  snapshot k := (worlds[k]?.bind fun world => (world.disk.snapshot root).toOption).getD []
  time k := (worlds[k]?.map (·.clock)).getD 0.0

section Recorded

variable {β : Type} {root : Path} {debounce : Float} {deliver : List FileChange → Program β}
  {watcher next : Watcher} {pause : Pause} {pauses : List Pause} {world after : World}
  {handed : Option (List FileChange × β)} {report : Report}

/-- The history goes on as the watcher does. -/
def History.ContinuesWith (h : History) (root : Path) (debounce : Float) (done : Nat)
    (watcher : Watcher) (worlds : List World) : Prop :=
  h.watcher root debounce done = watcher ∧ ∀ i world, worlds[i]? = some world →
    world.disk.snapshot root = .ok (h.snapshot (done + 1 + i)) ∧ h.time (done + 1 + i) = world.clock

/-- **A session hands on what the history of its looks does.** -/
lemma follow_batches {h : History} {done : Nat}
    (hfollow : follow root debounce deliver done watcher pauses world = .ok report after)
    (hh : h.ContinuesWith root debounce done watcher
      (looksFrom root debounce deliver watcher pauses world)) :
    report.batches = h.batchesFrom root debounce (done + 1)
      (looksFrom root debounce deliver watcher pauses world).length := by
  induction pauses generalizing done watcher world report with
  | nil =>
    obtain ⟨rfl, -⟩ := EStateM.Result.ok.inj hfollow
    rfl
  | cons pause pauses ih =>
    obtain ⟨next, handed, middle, rest, hpoll, hrest, -, hbatches⟩ := follow_cons_eq_ok hfollow
    obtain ⟨snapshot, hsnapshot, hlook⟩ := look_of_poll hpoll
    obtain ⟨hwatcher, hworlds⟩ := hh
    -- the first of the looks is look number `done + 1`
    obtain ⟨hseen, htime⟩ := hworlds 0 (pause.passed world) rfl
    obtain rfl : snapshot = h.snapshot (done + 1) := Except.ok.inj (hsnapshot.symm.trans hseen)
    rw [← htime, ← hwatcher] at hlook
    have hnext : h.watcher root debounce (done + 1) = next := congrArg Prod.fst hlook
    have hhanded : h.handed root debounce (done + 1) = handed.map (·.1) := congrArg Prod.snd hlook
    rw [looksFrom, hpoll] at hworlds ⊢
    rw [hbatches, List.length_cons, History.batchesFrom, List.range'_succ, List.filterMap_cons,
      hhanded]
    split at hrest
    · next hstop =>
      simp only [hstop, hrest.1, if_true]
      cases handed <;> simp
    · next hstop =>
      simp only [hstop] at hworlds ⊢
      have hgoes : h.ContinuesWith root debounce (done + 1) next
          (looksFrom root debounce deliver next pauses middle) := by
        refine ⟨hnext, fun i w hw => ?_⟩
        have hlater := hworlds (i + 1) w (by simpa using hw)
        have hnumber : done + 1 + (i + 1) = done + 1 + 1 + i := by omega
        rwa [hnumber] at hlater
      rw [ih hrest hgoes]
      cases handed <;> simp [History.batchesFrom]

/-- Every look of a session that ends well has seen the tree, and there is one look for every pause
that is heeded. -/
lemma follow_looks {done : Nat}
    (h : follow root debounce deliver done watcher pauses world = .ok report after) :
    (∀ seen ∈ looksFrom root debounce deliver watcher pauses world,
        ∃ snapshot, seen.disk.snapshot root = .ok snapshot) ∧
      (looksFrom root debounce deliver watcher pauses world).length = (heeded pauses).length ∧
      report.ending = if pauses.any (·.stop) then .stopped else .interrupted := by
  induction pauses generalizing done watcher world report with
  | nil =>
    obtain ⟨rfl, -⟩ := EStateM.Result.ok.inj h
    exact ⟨by simp [looksFrom], rfl, rfl⟩
  | cons pause pauses ih =>
    obtain ⟨next, handed, middle, rest, hpoll, hrest, hending, -⟩ := follow_cons_eq_ok h
    obtain ⟨snapshot, hsnapshot, -⟩ := look_of_poll hpoll
    rw [looksFrom, hpoll, hending]
    split at hrest
    · next hstop =>
      simp only [hstop, hrest.1, if_true, heeded]
      refine ⟨fun seen hseen => ?_, rfl, by simp [hstop]⟩
      obtain rfl := List.mem_singleton.1 hseen
      exact ⟨snapshot, hsnapshot⟩
    · next hstop =>
      obtain ⟨hseen, hlength, hlast⟩ := ih hrest
      simp only [hstop, heeded]
      refine ⟨fun seen hmem => ?_, by simp [hlength], by simp [hstop, hlast]⟩
      rcases List.mem_cons.1 hmem with rfl | hmem
      · exact ⟨snapshot, hsnapshot⟩
      · exact hseen seen hmem

/-- If nothing fails when a batch is dealt with, then a session goes on as long as it sees the
tree. -/
lemma exists_follow_eq_ok {done : Nat}
    (hdeliver : ∀ changes world, ∃ outcome after, deliver changes world = .ok outcome after)
    (hseen : ∀ seen ∈ looksFrom root debounce deliver watcher pauses world,
      ∃ snapshot, seen.disk.snapshot root = .ok snapshot) :
    ∃ report after,
      follow root debounce deliver done watcher pauses world = .ok report after := by
  induction pauses generalizing done watcher world with
  | nil => exact ⟨_, _, rfl⟩
  | cons pause pauses ih =>
    obtain ⟨snapshot, hsnapshot⟩ := hseen (pause.passed world) (by simp [looksFrom])
    have hpoll : ∃ next handed middle, poll root debounce deliver watcher pause world =
        .ok (next, handed) middle := by
      rcases hlook : watcher.look root debounce (pause.passed world).clock snapshot with
        ⟨next, _ | changes⟩
      · exact ⟨next, none, _, poll_eq_ok_iff.2 ⟨snapshot, hsnapshot, .inl ⟨hlook, rfl, rfl⟩⟩⟩
      · obtain ⟨outcome, after, hgiven⟩ := hdeliver changes (pause.passed world)
        exact ⟨next, some (changes, outcome), after, poll_eq_ok_iff.2
          ⟨snapshot, hsnapshot, .inr ⟨changes, outcome, hlook, rfl, hgiven⟩⟩⟩
    obtain ⟨next, handed, middle, hpoll⟩ := hpoll
    have hrest : ∃ rest last, (if pause.stop then pure ⟨[], .stopped⟩
        else follow root debounce deliver (done + 1) next pauses) middle = .ok rest last := by
      split
      · exact ⟨_, _, rfl⟩
      · next hstop =>
        refine ih fun seen hmem => hseen seen ?_
        rw [looksFrom, hpoll]
        simp [hstop, hmem]
    obtain ⟨rest, last, hrest⟩ := hrest
    let report : Report := handed.elim rest fun batch =>
      { rest with batches := (done + 1, batch.1) :: rest.batches }
    refine ⟨report, last, bind_eq_ok.2 ⟨_, middle, hpoll, ?_⟩⟩
    dsimp only
    split at hrest
    · next hstop =>
      rw [if_pos hstop]
      cases handed <;> exact bind_eq_ok.2 ⟨rest, last, hrest, rfl⟩
    · next hstop =>
      rw [if_neg hstop]
      cases handed <;> exact bind_eq_ok.2 ⟨rest, last, hrest, rfl⟩

lemma recorded_continues {snapshot : Snapshot} {worlds : List World}
    (hfirst : world.disk.snapshot root = .ok snapshot)
    (hworlds : ∀ seen ∈ worlds, ∃ snapshot, seen.disk.snapshot root = .ok snapshot) :
    (recorded root (world :: worlds)).ContinuesWith root debounce 0 (.start snapshot) worlds := by
  constructor
  · simp [History.watcher, recorded, hfirst, Except.toOption]
  · intro i seen hseen
    obtain ⟨found, hfound⟩ := hworlds seen (List.mem_of_getElem? hseen)
    have hnumber : 0 + 1 + i = i + 1 := by omega
    rw [hnumber]
    simp [recorded, hseen, hfound, Except.toOption]

/-- **A whole session.**  Whatever is done with its batches, it hands on what the history of its own
looks does.  It looks once in every pause up to the first in which it is told to stop, and not at
all if it is told to stop beforehand. -/
theorem session_eq_ok_recorded {stopped : Bool}
    (h : session root debounce deliver stopped pauses world = .ok report after) :
    (∀ seen ∈ world :: looks root debounce deliver stopped pauses world,
        ∃ snapshot, seen.disk.snapshot root = .ok snapshot) ∧
      (looks root debounce deliver stopped pauses world).length =
        (if stopped then 0 else (heeded pauses).length) ∧
      report.ending = (if stopped || pauses.any (·.stop) then .stopped else .interrupted) ∧
      report.batches = (recorded root
        (world :: looks root debounce deliver stopped pauses world)).batches root debounce
          (looks root debounce deliver stopped pauses world).length := by
  obtain ⟨snapshot, w, htake, hrest⟩ := bind_eq_ok.1 h
  obtain ⟨hfirst, rfl⟩ := Site.consult_eq_ok.1 htake
  have hfirst := mapError_eq_ok.1 hfirst
  simp only [looks, hfirst]
  cases stopped with
  | true =>
    obtain ⟨rfl, -⟩ := EStateM.Result.ok.inj hrest
    simp [hfirst, History.batches, History.batchesFrom]
  | false =>
    have hfollow : follow root debounce deliver 0 (.start snapshot) pauses w = .ok report after :=
      hrest
    simp only [Bool.false_eq_true, if_false, Bool.false_or]
    obtain ⟨hseen, hlength, hending⟩ := follow_looks hfollow
    refine ⟨fun seen hmem => ?_, hlength, hending, ?_⟩
    · rcases List.mem_cons.1 hmem with rfl | hmem
      · exact ⟨snapshot, hfirst⟩
      · exact hseen seen hmem
    · exact follow_batches hfollow (recorded_continues hfirst hseen)

/-- **When a session ends well.**  It does if nothing fails when a batch is dealt with and if it
sees the tree at every look. -/
lemma exists_session_eq_ok {stopped : Bool}
    (hdeliver : ∀ changes world, ∃ outcome after, deliver changes world = .ok outcome after)
    (hseen : ∀ seen ∈ world :: looks root debounce deliver stopped pauses world,
      ∃ snapshot, seen.disk.snapshot root = .ok snapshot) :
    ∃ report after, session root debounce deliver stopped pauses world = .ok report after := by
  obtain ⟨snapshot, hsnapshot⟩ := hseen world (by simp)
  have htake : takeSnapshot root world = .ok snapshot world :=
    Site.consult_eq_ok.2 ⟨mapError_eq_ok.2 hsnapshot, rfl⟩
  have hrest : ∃ report after, (if stopped then pure ⟨[], .stopped⟩
      else follow root debounce deliver 0 (.start snapshot) pauses) world = .ok report after := by
    split
    · exact ⟨_, _, rfl⟩
    · next hgo =>
      refine exists_follow_eq_ok hdeliver fun seen hmem => hseen seen (List.mem_cons_of_mem _ ?_)
      simpa [looks, hsnapshot, hgo] using hmem
  obtain ⟨report, after, hrest⟩ := hrest
  exact ⟨report, after, bind_eq_ok.2 ⟨snapshot, world, htake, hrest⟩⟩

end Recorded

end Watch

end OnePage
