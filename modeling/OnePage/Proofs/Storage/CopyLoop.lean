import OnePage.Proofs.Storage.CopyTree

/-!
# The turns of a copy

A copy keeps a list of directories still to be copied, the last one found first.  It lists them on a
disk that it changes itself, so that what it finds need not have been there at the beginning.  What
ends it all the same is that no path can be longer than paths may be.

* `Copying` — the turns of a copy, from the directories still to be copied to what comes of it.
* `Copying.unique` — a copy takes the same turns every time, and `Copying.append` — what is in
  front is copied with all below it before the others.
* **`exists_copying`** — hence `copyLevels`, which has levels, takes those turns and ends.
* `Copying.nodup` — no directory has its turn twice.
-/

namespace OnePage

namespace Storage

open Disk

variable {disk after mid : Disk} {source target : Path} {names : List Text}
  {pairs more found : List (Path × Path)} {visited visited' : List Path} {fault : Fault}
  {result result' : EStateM.Result Fault Disk Nat} {copied n : Nat} {chain : Nat}

/-! ## Turns -/

/-- More files have been copied before. -/
def counted (copied : Nat) : EStateM.Result Fault Disk Nat → EStateM.Result Fault Disk Nat
  | .ok n after => .ok (copied + n) after
  | .error fault after => .error fault after

lemma counted_counted (copied n : Nat) (result : EStateM.Result Fault Disk Nat) :
    counted copied (counted n result) = counted (copied + n) result := by
  cases result <;> simp [counted, Nat.add_assoc]

lemma leftBy_counted (copied : Nat) (result : EStateM.Result Fault Disk Nat) :
    leftBy (counted copied result) = leftBy result := by
  cases result <;> rfl

/-- **The turns of a copy**: the directories whose turn comes, from a list of directories still to
be copied and the disk at that time on, and what comes of it. -/
inductive Copying (chain : Nat) :
    List (Path × Path) → Disk → List Path → EStateM.Result Fault Disk Nat → Prop where
  /-- Nothing is left to copy. -/
  | done (disk : Disk) : Copying chain [] disk [] (.ok 0 disk)
  /-- A directory cannot be listed. -/
  | stuck {source target : Path} {pairs : List (Path × Path)} {disk : Disk} {fault : Fault}
      (hlist : disk.list source = .error fault) :
      Copying chain ((source, target) :: pairs) disk [source] (.error fault disk)
  /-- An entry cannot be copied. -/
  | halted {source target : Path} {pairs : List (Path × Path)} {disk after : Disk}
      {names : List Text} {fault : Fault} (hlist : disk.list source = .ok names)
      (hentries : copyEntries chain source target names disk = .error fault after) :
      Copying chain ((source, target) :: pairs) disk [source] (.error fault after)
  /-- The entries of a directory are copied, and its directories come next, the last one first. -/
  | turn {source target : Path} {pairs found : List (Path × Path)} {disk after : Disk}
      {names : List Text} {copied : Nat} {visited : List Path}
      {result : EStateM.Result Fault Disk Nat} (hlist : disk.list source = .ok names)
      (hentries : copyEntries chain source target names disk = .ok (copied, found) after)
      (hrest : Copying chain (found.reverse ++ pairs) after visited result) :
      Copying chain ((source, target) :: pairs) disk (source :: visited) (counted copied result)

/-- What comes after a directory whose entries can be copied. -/
lemma Copying.rest (h : Copying chain ((source, target) :: pairs) disk visited result)
    (hlist : disk.list source = .ok names)
    (hentries : copyEntries chain source target names disk = .ok (copied, found) after) :
    ∃ visited' result', visited = source :: visited' ∧ result = counted copied result' ∧
      Copying chain (found.reverse ++ pairs) after visited' result' := by
  cases h with
  | stuck hlist' => simp [hlist] at hlist'
  | halted hlist' hentries' =>
    obtain rfl := Except.ok.inj (hlist.symm.trans hlist')
    simp [hentries] at hentries'
  | turn hlist' hentries' hrest =>
    obtain rfl := Except.ok.inj (hlist.symm.trans hlist')
    obtain ⟨heq, rfl⟩ := EStateM.Result.ok.inj (hentries.symm.trans hentries')
    obtain ⟨rfl, rfl⟩ := Prod.mk.inj heq
    exact ⟨_, _, rfl, rfl, hrest⟩

/-- A copy takes the same turns every time, and the same comes of it. -/
lemma Copying.unique (h : Copying chain pairs disk visited result)
    (h' : Copying chain pairs disk visited' result') : visited = visited' ∧ result = result' := by
  induction h generalizing visited' result' with
  | done => cases h'; exact ⟨rfl, rfl⟩
  | stuck hlist =>
    cases h' with
    | stuck hlist' =>
      obtain rfl := Except.error.inj (hlist.symm.trans hlist')
      exact ⟨rfl, rfl⟩
    | halted hlist' _ => simp [hlist] at hlist'
    | turn hlist' _ _ => simp [hlist] at hlist'
  | halted hlist hentries =>
    cases h' with
    | stuck hlist' => simp [hlist] at hlist'
    | halted hlist' hentries' =>
      obtain rfl := Except.ok.inj (hlist.symm.trans hlist')
      exact ⟨rfl, by simpa [hentries] using hentries'⟩
    | turn hlist' hentries' _ =>
      obtain rfl := Except.ok.inj (hlist.symm.trans hlist')
      simp [hentries] at hentries'
  | turn hlist hentries _ ih =>
    obtain ⟨visited', result', rfl, rfl, hrest⟩ := h'.rest hlist hentries
    obtain ⟨rfl, rfl⟩ := ih hrest
    exact ⟨rfl, rfl⟩

/-- **One after the other**: what is in front is copied with all below it before the others have
their turns, unless it fails. -/
lemma Copying.append (pairs : List (Path × Path)) (h : Copying chain more disk visited result) :
    match result with
    | .ok n mid => ∀ visited' result', Copying chain pairs mid visited' result' →
        Copying chain (more ++ pairs) disk (visited ++ visited') (counted n result')
    | .error fault after => Copying chain (more ++ pairs) disk visited (.error fault after) := by
  induction h with
  | done disk =>
    intro visited' result' h'
    cases result' <;> simpa [counted] using h'
  | stuck hlist => exact .stuck hlist
  | halted hlist hentries => exact .halted hlist hentries
  | @turn _ _ _ _ _ _ _ copied _ rest hlist hentries hrest ih =>
    cases rest with
    | ok n mid =>
      intro visited' result' h'
      have hboth := ih visited' result' h'
      rw [List.append_assoc] at hboth
      rw [← counted_counted, List.cons_append, List.cons_append]
      exact .turn hlist hentries hboth
    | error fault after =>
      rw [List.append_assoc] at ih
      exact .turn hlist hentries ih

/-! ## Every copy ends -/

/-- The directories found are entries of the directory, in the order of the names, and
their paths are not too long. -/
lemma ensures_copyEntries_found (chain : Nat) (source target : Path) (names : List Text) :
    Ensures (fun _ => True) (copyEntries chain source target names) fun result =>
      (result.2.map Prod.fst).Sublist (names.map source.child) ∧
        ∀ pair ∈ result.2, pair.1.parts.length ≤ pathLimit + 1 := by
  have hany {α : Type} (operation : Operation α) :
      Ensures (fun _ => True) operation fun _ => True := fun disk _ => by
    cases operation disk <;> simp
  induction names with
  | nil => exact ensures_pure (by simp)
  | cons name names ih =>
    rw [copyEntries]
    have hquery : Ensures (fun _ => True) (query fun disk => disk.isDirectory (source.child name))
        fun is => is = true → (source.child name).parts.length ≤ pathLimit + 1 :=
      ensures_query fun disk is _ his htrue =>
        Path.length_parts_le_of_isDirectory (htrue ▸ his)
    refine ensures_bind hquery fun is hlength => ?_
    cases is with
    | true =>
      refine ensures_bind (hany _) fun _ _ => ensures_bind ih fun result hresult => ?_
      refine ensures_pure ⟨?_, ?_⟩
      · simpa using hresult.1.cons_cons (source.child name)
      · exact List.forall_mem_cons.2 ⟨hlength rfl, hresult.2⟩
    | false =>
      refine ensures_bind (hany _) fun _ _ => ensures_bind ih fun result hresult => ?_
      exact ensures_pure ⟨hresult.1.cons _, hresult.2⟩

lemma found_of_copyEntries
    (hentries : copyEntries chain source target names disk = .ok (copied, found) after) :
    (found.map Prod.fst).Sublist (names.map source.child) ∧
      ∀ pair ∈ found, pair.1.parts.length ≤ pathLimit + 1 := by
  exact ((ensures_copyEntries_found chain source target names).of_ok trivial hentries).2

/-- Directories at least so deep, whose paths are not too long. -/
def Deep (depth : Nat) (pairs : List (Path × Path)) : Prop :=
  ∀ pair ∈ pairs, depth ≤ pair.1.parts.length ∧ pair.1.parts.length ≤ pathLimit + 1

/-- What is found is deeper by one. -/
lemma Deep.of_copyEntries {depth : Nat} (h : Deep depth ((source, target) :: pairs))
    (hentries : copyEntries chain source target names disk = .ok (copied, found) after) :
    Deep (depth + 1) found.reverse := by
  obtain ⟨hsublist, hlength⟩ := found_of_copyEntries hentries
  intro pair hpair
  have hmem := List.mem_reverse.1 hpair
  obtain ⟨name, -, hname⟩ :=
    List.mem_map.1 (hsublist.subset (List.mem_map_of_mem (f := Prod.fst) hmem))
  have hsource := (h (source, target) (by simp)).1
  refine ⟨?_, hlength pair hmem⟩
  rw [← hname]
  simpa [Path.child] using hsource

/-- An operation on directories still to be copied takes the turns of a copy. -/
def TakesTurns (chain depth : Nat) (operation : List (Path × Path) → Operation Nat) : Prop :=
  ∀ pairs disk, Deep depth pairs →
    ∃ visited, Copying chain pairs disk visited (operation pairs disk)

lemma copyPairs_takesTurns {depth : Nat} {deeper : List (Path × Path) → Operation Nat}
    (hdeeper : TakesTurns chain (depth + 1) deeper) :
    TakesTurns chain depth (copyPairs chain deeper) := by
  intro pairs disk hdeep
  induction pairs generalizing disk with
  | nil => exact ⟨[], .done disk⟩
  | cons pair pairs ih =>
    obtain ⟨source, target⟩ := pair
    simp only [copyPairs, bind, EStateM.bind, query, pure, EStateM.pure]
    cases hlist : disk.list source with
    | error fault => exact ⟨[source], .stuck hlist⟩
    | ok names =>
      dsimp only
      cases hentries : copyEntries chain source target names disk with
      | error fault after => exact ⟨[source], .halted hlist hentries⟩
      | ok entries after =>
        obtain ⟨copied, found⟩ := entries
        obtain ⟨below, hbelow⟩ := hdeeper found.reverse after (hdeep.of_copyEntries hentries)
        dsimp only
        cases hresult : deeper found.reverse after with
        | error fault final =>
          rw [hresult] at hbelow
          exact ⟨source :: below, .turn hlist hentries (hbelow.append pairs)⟩
        | ok n mid =>
          rw [hresult] at hbelow
          obtain ⟨rest, hrest⟩ := ih mid fun pair hpair => hdeep pair (by simp [hpair])
          have hboth := Copying.turn hlist hentries (hbelow.append pairs rest _ hrest)
          rw [counted_counted] at hboth
          refine ⟨source :: (below ++ rest), ?_⟩
          dsimp only
          generalize copyPairs chain deeper pairs mid = others at hboth ⊢
          cases others <;> exact hboth

/-- No tree is too deep, since paths in it would be too long. -/
lemma copyLevels_takesTurns {room depth : Nat} (hroom : pathLimit + 1 ≤ room + depth) :
    TakesTurns chain depth (copyLevels chain room) := by
  induction room generalizing depth with
  | zero =>
    refine copyPairs_takesTurns fun pairs disk hdeep => ?_
    cases pairs with
    | nil => exact ⟨[], .done disk⟩
    | cons pair pairs =>
      have hlength := hdeep pair (by simp)
      omega
  | succ room ih => exact copyPairs_takesTurns (ih (by omega))

/-- **Every copy ends**, whatever the disk, and whether or not one tree lies inside the other. -/
lemma exists_copying (chain : Nat) (hsource : source.parts.length ≤ pathLimit + 1) (target : Path)
    (disk : Disk) : ∃ visited, Copying chain [(source, target)] disk visited
      (copyLevels chain (pathLimit + 1) [(source, target)] disk) := by
  have hlevels : TakesTurns chain 0 (copyLevels chain (pathLimit + 1)) :=
    copyLevels_takesTurns (by omega)
  exact hlevels _ disk (by simpa [Deep] using hsource)

/-! ## No directory has its turn twice -/

lemma Copying.unfolds (h : Copying chain pairs disk visited result) :
    Unfolds (pairs.map Prod.fst) visited := by
  induction h with
  | done => exact .done
  | stuck _ => exact .stop _ _
  | halted _ _ => exact .stop _ _
  | @turn source _ _ found disk _ names _ _ _ hlist hentries _ ih =>
    obtain ⟨hsublist, -⟩ := found_of_copyEntries hentries
    have hapart : (names.map source.child).Pairwise Parted :=
      List.pairwise_map.2 ((nodup_of_list hlist).imp parted_child_child)
    rw [List.map_append, List.map_reverse] at ih
    refine .turn (fun q hq => ?_) ?_ ih
    · obtain ⟨name, -, hname⟩ := List.mem_map.1 (hsublist.subset (List.mem_reverse.1 hq))
      exact ⟨name, hname⟩
    · exact List.pairwise_reverse.2 ((hapart.sublist hsublist).imp And.symm)

/-- **No directory has its turn twice.** -/
lemma Copying.nodup (h : Copying chain [(source, target)] disk visited result) : visited.Nodup :=
  h.unfolds.nodup (List.pairwise_singleton _ _)

end Storage

end OnePage
