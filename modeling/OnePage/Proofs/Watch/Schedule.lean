import OnePage.Proofs.Watch.Clock
import OnePage.Proofs.Watch.History

/-!
# When batches are handed on

What a watcher hands on is described by what its looks find, without what it remembers between them.

* `IsSchedule` — such a description of a list of batches.  Without a debounce a look hands on what
  it finds.  With one, a look that finds nothing hands on all that has been found since the last
  batch, provided that the last look to find something lies back far enough.
* `Remembers` — what the watcher remembers, in the same terms; `Remembers.look` is one look.
* **`isSchedule_batches`** — every history is handed on by such a schedule, and so is every session.
-/

namespace OnePage

namespace Watch

open Site (Program World)
open Storage (Path Snapshot)

/-- Look `p` is the last before look `k` that hands on a batch, or the start if there is none. -/
def IsPrevious (batches : List (Nat × List FileChange)) (p k : Nat) : Prop :=
  p < k ∧ (p = 0 ∨ p ∈ batches.map (·.1)) ∧ ∀ q ∈ batches.map (·.1), q < k → q ≤ p

namespace History

/-- Look `j` is the last up to look `k` that finds something. -/
def IsLast (h : History) (root : Path) (k j : Nat) : Prop :=
  h.found root j ≠ [] ∧ j ≤ k ∧ ∀ i, j < i → i ≤ k → h.found root i = []

/-- The batches that the first `n` looks of a history hand on, each with the number of its look. -/
structure IsSchedule (h : History) (root : Path) (debounce : Float) (n : Nat)
    (batches : List (Nat × List FileChange)) : Prop where
  ordered : batches.Pairwise fun a b => a.1 < b.1
  nonempty : ∀ k batch, (k, batch) ∈ batches → batch ≠ []
  /-- Without a debounce. -/
  immediate : ¬ 0.0 < debounce → ∀ k batch, (k, batch) ∈ batches ↔
    k ≤ n ∧ h.found root k ≠ [] ∧ batch = h.found root k
  /-- With a debounce. -/
  debounced : 0.0 < debounce → ∀ k batch, (k, batch) ∈ batches ↔
    k ≤ n ∧ h.found root k = [] ∧ ∃ p j, IsPrevious batches p k ∧ p < j ∧ h.IsLast root k j ∧
      debounce ≤ h.time k - h.time j ∧ batch = h.foundSince root p k
  /-- What has been handed on with a batch is all that has been found by then, each change once and
  in its place. -/
  complete : ∀ front k batch rest, batches = front ++ (k, batch) :: rest →
    front.flatMap (·.2) ++ batch = h.foundSince root 0 k

variable {h : History} {root : Path} {debounce : Float} {p n k : Nat} {watcher : Watcher}

lemma IsLast.unique {j j' : Nat} (hj : h.IsLast root k j) (hj' : h.IsLast root k j') : j = j' := by
  obtain ⟨hfound, hjk, hquiet⟩ := hj
  obtain ⟨hfound', hjk', hquiet'⟩ := hj'
  rcases Nat.lt_trichotomy j j' with hlt | heq | hgt
  · exact absurd (hquiet j' hlt hjk') hfound'
  · exact heq
  · exact absurd (hquiet' j hgt hjk) hfound

/-! ## One look -/

/-- What a watcher remembers after look `n` if look `p` was the last to hand something on. -/
structure Remembers (h : History) (root : Path) (p n : Nat) (watcher : Watcher) : Prop where
  bound : p ≤ n
  snapshot : watcher.snapshot = h.snapshot n
  pending : watcher.pending = h.foundSince root p n
  lastChange : ∀ j, p < j → h.IsLast root n j → watcher.lastChange = h.time j

/-- What has been found since look `p` is due at look `k`. -/
def IsDue (h : History) (root : Path) (debounce : Float) (p k : Nat) : Prop :=
  h.foundSince root p k ≠ [] ∧ (0.0 < debounce → h.found root k = [] ∧
    ∃ j, p < j ∧ h.IsLast root k j ∧ ¬ h.time k - h.time j < debounce)

/-- When the last change was found, seen from the next look. -/
lemma Remembers.lastChange_succ (hr : h.Remembers root p n watcher) {j : Nat} (hpj : p < j)
    (hj : h.IsLast root (n + 1) j) :
    (if (!(h.found root (n + 1)).isEmpty) = true then h.time (n + 1) else watcher.lastChange) =
      h.time j := by
  obtain ⟨hfound, hjn, hquiet⟩ := hj
  rcases Nat.lt_or_eq_of_le hjn with hlt | rfl
  · have hnothing := hquiet (n + 1) hlt (le_refl _)
    have hlast : h.IsLast root n j := ⟨hfound, by omega, fun i hji hin => hquiet i hji (by omega)⟩
    simp [hnothing, hr.lastChange j hpj hlast]
  · simp [hfound]

/-- **One look.**  What has been found since the last batch is handed on if it is due, and otherwise
remembered. -/
lemma Remembers.look (debounce : Float) (hr : h.Remembers root p n watcher) :
    let result := watcher.look root debounce (h.time (n + 1)) (h.snapshot (n + 1))
    (¬ h.IsDue root debounce p (n + 1) ∧ result.2 = none ∧
        h.Remembers root p (n + 1) result.1) ∨
      (h.IsDue root debounce p (n + 1) ∧ result.2 = some (h.foundSince root p (n + 1)) ∧
        h.Remembers root (n + 1) (n + 1) result.1) := by
  intro result
  have hchanges :
      differences root watcher.snapshot (h.snapshot (n + 1)) = h.found root (n + 1) := by
    rw [hr.snapshot]
    rfl
  have hpending : watcher.pending ++ h.found root (n + 1) = h.foundSince root p (n + 1) := by
    rw [hr.pending, foundSince_succ hr.bound]
  have hresult : result = watcher.look root debounce (h.time (n + 1)) (h.snapshot (n + 1)) := rfl
  rw [Watcher.look, hchanges, hpending] at hresult
  -- when the last change was found is right whether or not anything is handed on
  have hlast {j : Nat} := hr.lastChange_succ (j := j)
  generalize (if (!(h.found root (n + 1)).isEmpty) = true then h.time (n + 1)
    else watcher.lastChange) = lastChange at hresult hlast
  have hheld : ¬ h.IsDue root debounce p (n + 1) ↔ ((h.foundSince root p (n + 1)).isEmpty ||
      Watcher.holdsBack debounce (h.time (n + 1)) lastChange
        (!(h.found root (n + 1)).isEmpty)) = true := by
    by_cases hnothing : h.foundSince root p (n + 1) = []
    · simp [IsDue, hnothing]
    · obtain ⟨j, hpj, hjn, hfound, hquiet⟩ := exists_last_found hnothing
      have hj : h.IsLast root (n + 1) j := ⟨hfound, hjn, hquiet⟩
      simp only [IsDue, Watcher.holdsBack, hlast hpj hj]
      by_cases hdebounce : 0.0 < debounce
      · by_cases hnow : h.found root (n + 1) = []
        · have hsame : (∃ i, p < i ∧ h.IsLast root (n + 1) i ∧
              ¬ h.time (n + 1) - h.time i < debounce) ↔
                ¬ h.time (n + 1) - h.time j < debounce := by
            constructor
            · rintro ⟨i, -, hi, hlong⟩
              rwa [hj.unique hi]
            · intro hlong
              exact ⟨j, hpj, hj, hlong⟩
          simp [hdebounce, hnow, hsame, hnothing]
        · simp [hdebounce, hnow]
      · simp [hdebounce, hnothing]
  by_cases hdue : h.IsDue root debounce p (n + 1)
  · rw [if_neg (by rwa [← hheld, not_not])] at hresult
    refine .inr ⟨hdue, congrArg Prod.snd hresult, ?_⟩
    rw [hresult]
    exact ⟨le_refl _, rfl, by simp, fun j hlt hj => absurd hj.2.1 (by omega)⟩
  · rw [if_pos (hheld.1 hdue)] at hresult
    refine .inl ⟨hdue, congrArg Prod.snd hresult, ?_⟩
    rw [hresult]
    exact ⟨Nat.le_succ_of_le hr.bound, rfl, rfl, fun j hpj hj => hlast hpj hj⟩

/-! ## Look after look -/

/-- Look `p` is the last before look `k` that hands something on. -/
def Precedes (h : History) (root : Path) (debounce : Float) (p k : Nat) : Prop :=
  p < k ∧ (p = 0 ∨ h.handed root debounce p ≠ none) ∧
    ∀ q, p < q → q < k → h.handed root debounce q = none

lemma Precedes.unique {p' : Nat} (hp : h.Precedes root debounce p k)
    (hp' : h.Precedes root debounce p' k) : p = p' := by
  obtain ⟨hpk, hhanded, hnone⟩ := hp
  obtain ⟨hpk', hhanded', hnone'⟩ := hp'
  rcases Nat.lt_trichotomy p p' with hlt | heq | hgt
  · exact absurd (hnone p' hlt hpk') (hhanded'.resolve_left (by omega))
  · exact heq
  · exact absurd (hnone' p hgt hpk) (hhanded.resolve_left (by omega))

/-- **Every run of looks.**  The watcher remembers what has been found since the last batch, which
without a debounce is nothing. -/
lemma exists_remembers (h : History) (root : Path) (debounce : Float) (n : Nat) :
    ∃ p, h.Precedes root debounce p (n + 1) ∧
      h.Remembers root p n (h.watcher root debounce n) ∧
      (¬ 0.0 < debounce → h.foundSince root p n = []) := by
  induction n with
  | zero =>
    refine ⟨0, ⟨by omega, .inl rfl, fun q _ _ => by omega⟩, ⟨le_refl _, rfl, by simp; rfl, ?_⟩,
      by simp⟩
    intro j hj hlast
    exact absurd hlast.2.1 (by omega)
  | succ n ih =>
    obtain ⟨p, ⟨hpn, hhanded, hnone⟩, hr, -⟩ := ih
    rcases hr.look debounce with ⟨hdue, hheld, hr⟩ | ⟨hdue, hgiven, hr⟩
    · refine ⟨p, ⟨by omega, hhanded, fun q hpq hqn => ?_⟩, hr, fun hdebounce => ?_⟩
      · rcases Nat.lt_or_eq_of_le (Nat.lt_succ_iff.1 hqn) with hlt | rfl
        · exact hnone q hpq hlt
        · exact hheld
      · -- without a debounce whatever has been found is due
        by_contra hfound
        exact hdue ⟨hfound, fun hpos => absurd hpos hdebounce⟩
    · refine ⟨n + 1, ⟨by omega, .inr ?_, fun q hpq hqn => by omega⟩, hr, by simp⟩
      change (Watcher.look root debounce _ _ (h.watcher root debounce n)).2 ≠ none
      rw [hgiven]
      simp

/-- A look hands on what has been found since the last batch, exactly when that is due. -/
lemma handed_succ_eq_some_iff {batch : List FileChange} :
    h.handed root debounce (n + 1) = some batch ↔ ∃ p, h.Precedes root debounce p (n + 1) ∧
      h.IsDue root debounce p (n + 1) ∧ batch = h.foundSince root p (n + 1) := by
  obtain ⟨p, hp, hr, -⟩ := h.exists_remembers root debounce n
  have hlook := hr.look debounce
  change (_ ∧ h.handed root debounce (n + 1) = none ∧ _) ∨
    (_ ∧ h.handed root debounce (n + 1) = some _ ∧ _) at hlook
  rcases hlook with ⟨hdue, hheld, -⟩ | ⟨hdue, hgiven, -⟩
  · rw [hheld]
    refine iff_of_false (by simp) ?_
    rintro ⟨q, hq, hdue', -⟩
    rw [hp.unique hq] at hdue
    exact hdue hdue'
  · rw [hgiven]
    constructor
    · intro heq
      exact ⟨p, hp, hdue, (Option.some.inj heq).symm⟩
    · rintro ⟨q, hq, -, rfl⟩
      rw [hp.unique hq]

/-- Without a debounce nothing is left over for the next look. -/
lemma Precedes.foundSince_succ (hp : h.Precedes root debounce p (n + 1))
    (hdebounce : ¬ 0.0 < debounce) : h.foundSince root p (n + 1) = h.found root (n + 1) := by
  obtain ⟨q, hq, hr, hnothing⟩ := h.exists_remembers root debounce n
  obtain rfl := hp.unique hq
  rw [History.foundSince_succ hr.bound, hnothing hdebounce, List.nil_append]

/-! ## All batches -/

lemma mem_batches_map_fst : k ∈ (h.batches root debounce n).map (·.1) ↔
    k ≤ n ∧ h.handed root debounce k ≠ none := by
  simp only [List.mem_map, Prod.exists, exists_and_right, exists_eq_right, mem_batches,
    exists_and_left, Option.ne_none_iff_exists']

lemma isPrevious_batches (hk : k ≤ n + 1) :
    IsPrevious (h.batches root debounce n) p k ↔ h.Precedes root debounce p k := by
  constructor
  · rintro ⟨hpk, hhanded, hlast⟩
    refine ⟨hpk, hhanded.imp_right fun hmem => (mem_batches_map_fst.1 hmem).2, ?_⟩
    intro q hpq hqk
    by_contra hq
    exact absurd (hlast q (mem_batches_map_fst.2 ⟨by omega, hq⟩) hqk) (by omega)
  · rintro ⟨hpk, hhanded, hnone⟩
    refine ⟨hpk, hhanded.imp_right fun hp => mem_batches_map_fst.2 ⟨by omega, hp⟩, ?_⟩
    intro q hq hqk
    by_contra hpq
    exact (mem_batches_map_fst.1 hq).2 (hnone q (by omega) hqk)

/-- What has been handed on is what had been found when it was. -/
lemma flatMap_batches (hp : h.Precedes root debounce p (n + 1)) :
    (h.batches root debounce n).flatMap (·.2) = h.foundSince root 0 p := by
  induction n generalizing p with
  | zero =>
    obtain rfl : p = 0 := by have := hp.1; omega
    simp [batches, batchesFrom]
  | succ n ih =>
    obtain ⟨hpn, hhanded, hnone⟩ := hp
    rw [batches_succ, List.flatMap_append]
    rcases Nat.lt_or_eq_of_le (Nat.lt_succ_iff.1 hpn) with hlt | rfl
    · rw [ih ⟨hlt, hhanded, fun q hpq hqn => hnone q hpq (by omega)⟩,
        hnone (n + 1) hlt (by omega)]
      simp
    · obtain ⟨batch, hbatch⟩ := Option.ne_none_iff_exists'.1 (hhanded.resolve_left (by omega))
      obtain ⟨q, hq, -, rfl⟩ := handed_succ_eq_some_iff.1 hbatch
      rw [ih hq, hbatch]
      simp [foundSince_append (Nat.zero_le q) hq.1.le]

/-- What has been handed on with a batch is all that had been found by then. -/
lemma complete_batches {front rest : List (Nat × List FileChange)} {batch : List FileChange}
    (hbatches : h.batches root debounce n = front ++ (k, batch) :: rest) :
    front.flatMap (·.2) ++ batch = h.foundSince root 0 k := by
  induction n generalizing rest with
  | zero => simp [batches, batchesFrom] at hbatches
  | succ n ih =>
    rw [batches_succ] at hbatches
    cases hhanded : h.handed root debounce (n + 1) with
    | none => exact ih (by simpa [hhanded] using hbatches)
    | some given =>
      rw [hhanded, Option.map_some, Option.toList_some] at hbatches
      rcases List.eq_nil_or_concat rest with rfl | ⟨rest, last, rfl⟩
      · -- the batch in question is the last
        obtain ⟨hfront, hlast⟩ := List.append_inj' hbatches rfl
        obtain ⟨rfl, rfl⟩ := Prod.mk.inj (List.singleton_inj.1 hlast)
        obtain ⟨q, hq, -, rfl⟩ := handed_succ_eq_some_iff.1 hhanded
        rw [← hfront, flatMap_batches hq, foundSince_append (Nat.zero_le q) hq.1.le]
      · have hsplit : h.batches root debounce n ++ [(n + 1, given)] =
            (front ++ (k, batch) :: rest) ++ [last] := by simpa using hbatches
        exact ih (List.append_inj' hsplit rfl).1

/-- **Every history is handed on by its schedule.** -/
lemma isSchedule_of_isFinite (hfinite : ∀ i, 1 ≤ i → i ≤ n → (h.time i).isFinite) :
    h.IsSchedule root debounce n (h.batches root debounce n) where
  ordered := batches_ordered n
  nonempty := by
    intro k batch hmem
    obtain ⟨hk, hhanded⟩ := mem_batches.1 hmem
    cases k with
    | zero => simp [handed] at hhanded
    | succ k =>
      obtain ⟨p, -, hdue, rfl⟩ := handed_succ_eq_some_iff.1 hhanded
      exact hdue.1
  immediate := by
    intro hdebounce k batch
    rw [mem_batches]
    refine and_congr_right fun hk => ?_
    cases k with
    | zero => simp [handed, found]
    | succ k =>
      rw [handed_succ_eq_some_iff]
      constructor
      · rintro ⟨p, hp, hdue, rfl⟩
        have hfound := hp.foundSince_succ hdebounce
        exact ⟨hfound ▸ hdue.1, hfound⟩
      · rintro ⟨hchanged, rfl⟩
        obtain ⟨p, hp, -⟩ := h.exists_remembers root debounce k
        have hfound := hp.foundSince_succ hdebounce
        exact ⟨p, hp, ⟨hfound.symm ▸ hchanged, fun hpos => absurd hpos hdebounce⟩, hfound.symm⟩
  debounced := by
    intro hdebounce k batch
    rw [mem_batches]
    refine and_congr_right fun hk => ?_
    cases k with
    | zero => simp [handed, IsPrevious]
    | succ k =>
      have hlonger (j : Nat) (hpos : 0 < j) (hjk : j ≤ k + 1) :
          ¬ h.time (k + 1) - h.time j < debounce ↔ debounce ≤ h.time (k + 1) - h.time j :=
        not_sub_lt_iff (hfinite (k + 1) (by omega) hk) (hfinite j hpos (hjk.trans hk)) hdebounce
      rw [handed_succ_eq_some_iff]
      constructor
      · rintro ⟨p, hp, ⟨-, hdue⟩, rfl⟩
        obtain ⟨hquiet, j, hpj, hj, hlong⟩ := hdue hdebounce
        exact ⟨hquiet, p, j, (isPrevious_batches (by omega)).2 hp, hpj, hj,
          (hlonger j (by omega) hj.2.1).1 hlong, rfl⟩
      · rintro ⟨hquiet, p, j, hp, hpj, hj, hlong, rfl⟩
        rw [← hlonger j (by omega) hj.2.1] at hlong
        have hfound : h.foundSince root p (k + 1) ≠ [] := fun hnothing =>
          hj.1 (foundSince_eq_nil_iff.1 hnothing j hpj hj.2.1)
        exact ⟨p, (isPrevious_batches (by omega)).1 hp,
          ⟨hfound, fun _ => ⟨hquiet, j, hpj, hj, hlong⟩⟩, rfl⟩
  complete := fun _ _ _ _ hbatches => complete_batches hbatches

/-! ## There is only one schedule -/

lemma isPrevious_congr {batches batches' : List (Nat × List FileChange)}
    (hsame : ∀ q < k, ∀ batch, (q, batch) ∈ batches ↔ (q, batch) ∈ batches') :
    IsPrevious batches p k ↔ IsPrevious batches' p k := by
  have hnumbers : ∀ q < k, q ∈ batches.map (·.1) ↔ q ∈ batches'.map (·.1) := by
    intro q hq
    simp [hsame q hq]
  refine and_congr_right fun hpk => and_congr (or_congr_right (hnumbers p hpk)) ?_
  constructor
  · intro hlast q hq hqk
    exact hlast q ((hnumbers q hqk).2 hq) hqk
  · intro hlast q hq hqk
    exact hlast q ((hnumbers q hqk).1 hq) hqk

lemma IsSchedule.nodup {batches : List (Nat × List FileChange)}
    (hs : h.IsSchedule root debounce n batches) : batches.Nodup := by
  refine hs.ordered.imp fun {a b} hlt => ?_
  rintro rfl
  exact absurd hlt (lt_irrefl _)

/-- **What is handed on is determined by what is found.** -/
theorem IsSchedule.unique {batches batches' : List (Nat × List FileChange)}
    (hs : h.IsSchedule root debounce n batches) (hs' : h.IsSchedule root debounce n batches') :
    batches = batches' := by
  have hmem : ∀ k batch, (k, batch) ∈ batches ↔ (k, batch) ∈ batches' := by
    intro k
    induction k using Nat.strong_induction_on with
    | _ k ih =>
      intro batch
      by_cases hdebounce : 0.0 < debounce
      · rw [hs.debounced hdebounce, hs'.debounced hdebounce]
        simp only [isPrevious_congr ih]
      · rw [hs.immediate hdebounce, hs'.immediate hdebounce]
  have hperm : batches.Perm batches' :=
    (List.perm_ext_iff_of_nodup hs.nodup hs'.nodup).2 fun entry => hmem entry.1 entry.2
  refine hperm.eq_of_pairwise (fun a b _ _ hab hba => ?_) hs.ordered hs'.ordered
  exact absurd hab (lt_asymm hba)

end History

/-! ## Histories and sessions -/

/-- **Batches are handed on by schedule.**  This is so for whatever the looks of a watcher may find
at whatever times, and for every session, whatever is done with its batches.  A session looks once
in every pause up to the first in which it is told to stop and ends then, and what it sees is the
tree as it is at each look. -/
theorem isSchedule_batches (root : Path) (debounce : Float) :
    (∀ (h : History) (n : Nat), (∀ i, 1 ≤ i → i ≤ n → (h.time i).isFinite) →
      h.IsSchedule root debounce n (h.batches root debounce n)) ∧
    ∀ {β : Type} (deliver : List FileChange → Program β) (stopped : Bool) (pauses : List Pause)
      (world after : World) (report : Report),
      session root debounce deliver stopped pauses world = .ok report after →
      ∃ (worlds : List World) (h : History),
        worlds = looks root debounce deliver stopped pauses world ∧
        (∀ (k : Nat) (seen : World), (world :: worlds)[k]? = some seen →
          seen.disk.snapshot root = .ok (h.snapshot k) ∧ h.time k = seen.clock) ∧
        worlds.length = (if stopped then 0 else (heeded pauses).length) ∧
        report.ending = (if stopped || pauses.any (·.stop) then .stopped else .interrupted) ∧
        report.batches = h.batches root debounce worlds.length := by
  constructor
  · intro h n hfinite
    exact History.isSchedule_of_isFinite hfinite
  · intro β deliver stopped pauses world after report hsession
    obtain ⟨hseen, hlength, hending, hbatches⟩ := session_eq_ok_recorded hsession
    refine ⟨_, _, rfl, fun k seen hk => ?_, hlength, hending, hbatches⟩
    obtain ⟨snapshot, hsnapshot⟩ := hseen seen (List.mem_of_getElem? hk)
    simp [recorded, hk, hsnapshot, Except.toOption]

/-! ### A burst of changes -/

/-- A file is written in each of two pauses of a second, and the tree is left alone then. -/
def burstPauses : List Pause :=
  [⟨1.0, [⟨Path.parse "src/a.txt", .file [97] (.given (.whole 1))⟩], false⟩,
    ⟨1.0, [⟨Path.parse "src/a.txt", .file [98] (.given (.whole 2))⟩], false⟩,
    ⟨1.0, [], false⟩, ⟨1.0, [], true⟩, ⟨1.0, [], false⟩]

/-- What a watcher that waits for two quiet seconds hands on of it. -/
def burstBatches : List (Nat × List FileChange) :=
  [(4, [⟨.added, Path.parse "src/a.txt"⟩, ⟨.modified, Path.parse "src/a.txt"⟩])]

/-- A batch that nothing is done with. -/
def ignore (_ : List FileChange) : Program Unit := pure ()

/-- The world before anything is written. -/
def bareWorld : World := ⟨Storage.Disk.empty, .silent, 0.0⟩

/-- Both changes are handed on at once, by the look that finds the tree two seconds quiet.  The
watcher is told to stop then, and the last pause does not come to pass. -/
theorem isSchedule_burst :
    ∃ (h : History) (report : Report) (after : World),
      session (Path.parse "src") 2.0 ignore false burstPauses bareWorld = .ok report after ∧
      report = ⟨burstBatches, .stopped⟩ ∧
      h.IsSchedule (Path.parse "src") 2.0 4 report.batches := by
  have hends : succeeds (session (Path.parse "src") 2.0 ignore false burstPauses bareWorld)
      fun report _ => decide (report = ⟨burstBatches, .stopped⟩) := by decide +kernel
  obtain ⟨report, after, hsession, hreport⟩ := exists_of_succeeds hends
  obtain ⟨worlds, h, hworlds, hseen, hlength, -, hbatches⟩ :=
    (isSchedule_batches (Path.parse "src") 2.0).2 ignore false burstPauses bareWorld after report
      hsession
  have hcount : worlds.length = 4 := hlength
  have hclocks : ∀ seen ∈ looks (Path.parse "src") 2.0 ignore false burstPauses bareWorld,
      seen.clock.isFinite := by decide +kernel
  have hfinite : ∀ i, 1 ≤ i → i ≤ 4 → (h.time i).isFinite := by
    intro i hi hi4
    obtain ⟨i, rfl⟩ := Nat.exists_eq_add_of_le' hi
    have hlt : i < worlds.length := by omega
    rw [(hseen (i + 1) worlds[i] (by simp [hlt])).2]
    exact hclocks _ (hworlds ▸ List.getElem_mem hlt)
  refine ⟨h, report, after, hsession, of_decide_eq_true hreport, ?_⟩
  rw [hbatches, hcount]
  exact (isSchedule_batches (Path.parse "src") 2.0).1 h 4 hfinite

end Watch

end OnePage
