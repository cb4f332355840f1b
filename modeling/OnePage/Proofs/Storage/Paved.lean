import OnePage.Proofs.Storage.Contents
import OnePage.Proofs.Storage.Made
import OnePage.Proofs.Storage.Refusal

/-!
# Making a directory, exactly

On a disk without links it can be told beforehand whether a directory can be made with all that it
lies in, and what the disk holds then.

* `Disk.Paves` — there are directories wherever parts lead on their way, and at their end.
* `Disk.Blocked` — the reasons for which a directory cannot be made, and
  **`ensureDirectory_error_iff`** — there are no others.
* `Disk.IsMissing` — what a path passes through that is not there yet.
* **`ensureDirectory_ok`** — whatever was missing is a directory afterwards, and the disk holds the
  same everywhere else.
-/

namespace OnePage

namespace Storage

namespace Disk

variable {disk : Disk} {p : Path} {l place : Location} {parts : List Text}

/-! ## Ways -/

/-- **Paved.**  There are directories wherever parts lead on their way, and at their end. -/
def Paves (disk : Disk) (l : Location) (parts : List Text) : Prop :=
  ∀ front, front <+: parts → disk.HasDirectory (nominal l front)

lemma paves_concat_iff {part : Text} : disk.Paves l (parts ++ [part]) ↔
    disk.Paves l parts ∧ disk.HasDirectory (nominal l (parts ++ [part])) := by
  constructor
  · intro h
    exact ⟨fun front hfront => h front (hfront.trans (List.prefix_append _ _)),
      h _ (List.prefix_refl _)⟩
  · rintro ⟨hfirst, hlast⟩ front hfront
    rcases List.prefix_concat_iff.1 hfront with rfl | hfront
    · exact hlast
    · exact hfirst front hfront

lemma Paves.of_prefix {front : List Text} (h : disk.Paves l parts) (hfront : front <+: parts) :
    disk.Paves l front := fun _ hshorter => h _ (hshorter.trans hfront)

lemma nominal_cons (l : Location) (part : Text) (parts : List Text) :
    nominal l (part :: parts) = nominal (nominal l [part]) parts := nominal_append l [part] parts

lemma nominal_up (l : Location) : nominal l [dotDot] = l.tail := by simp [nominal]

lemma nominal_stay {part : Text} (hup : part ≠ dotDot) (hpart : part = dot ∨ part = []) :
    nominal l [part] = l := by
  simp [nominal, hup, hpart]

lemma nominal_enter {part : Text} (hpart : IsProper part) :
    nominal l [part] = entryName part :: l := by
  simp [nominal, hpart.1, hpart.2]

/-- What a way leads through, if the last part leads to a directory. -/
lemma Leads.paves {making : Bool} {n m : Nat} (hlinkless : disk.Linkless)
    (h : disk.Leads making n l parts m place) (hplace : disk.HasDirectory place) :
    disk.Paves l parts := by
  -- a first part leads to where the others are followed from
  have hcons {l l' : Location} {part : Text} {parts : List Text} (hl : disk.HasDirectory l)
      (hnext : nominal l [part] = l') (h : disk.Paves l' parts) : disk.Paves l (part :: parts) := by
    intro front hfront
    cases front with
    | nil => exact hl
    | cons first front =>
      obtain ⟨rfl, hrest⟩ := List.cons_prefix_cons.1 hfront
      rw [nominal_cons, hnext]
      exact h front hrest
  induction h with
  | done n l =>
    intro front hfront
    rw [List.prefix_nil.1 hfront]
    exact hplace
  | @up _ _ l _ _ hl _ ih => exact hcons hl (nominal_up l) (ih hplace)
  | @stay _ _ _ _ part _ hl hpart _ ih =>
    have hup : part ≠ dotDot := by rcases hpart with rfl | rfl <;> decide
    exact hcons hl (nominal_stay hup hpart) (ih hplace)
  | enter hl hname _ _ ih => exact hcons hl (nominal_enter ⟨hname.notUp, hname.notHere⟩) (ih hplace)
  | link _ _ hlink _ _ => exact absurd ⟨_, hlink⟩ (hlinkless _)

section Short

variable (hlinkless : disk.Linkless) (hshort : ∀ part ∈ parts, byteLength part ≤ nameLimit)

include hlinkless hshort

/-- Parts can be followed if there are directories on their way. -/
lemma leads_of_way (hway : ∀ front, front <+: parts → front ≠ parts →
    disk.HasDirectory (nominal l front)) (n : Nat) :
    disk.Leads false n l parts n (nominal l parts) := by
  induction parts generalizing l with
  | nil => exact .done n l
  | cons part parts ih =>
    have hl : disk.HasDirectory l := hway [] List.nil_prefix (by simp)
    have hrest (l' : Location) (hl' : nominal l [part] = l') :
        disk.Leads false n l' parts n (nominal l (part :: parts)) := by
      rw [nominal_cons, hl']
      refine ih (fun other hother => hshort other (by simp [hother])) fun front hfront hne => ?_
      rw [← hl', ← nominal_cons]
      exact hway _ (List.cons_prefix_cons.2 ⟨rfl, hfront⟩) (by simpa using hne)
    by_cases hup : part = dotDot
    · subst hup
      exact .up hl (hrest _ (nominal_up l))
    · by_cases hhere : part = dot ∨ part = []
      · exact .stay hl hhere (hrest l (nominal_stay hup hhere))
      · exact .enter hl ⟨hup, hhere, by simp, Nat.not_lt.2 (hshort part (by simp))⟩ (hlinkless _)
          (hrest _ (nominal_enter ⟨hup, hhere⟩))

/-- A walk ends where there is no directory on its way. -/
lemma walk_of_gap {front rest : List Text} {part : Text} (hparts : parts = front ++ part :: rest)
    (hway : ∀ shorter, shorter <+: front → shorter ≠ front →
      disk.HasDirectory (nominal l shorter))
    (hgap : ¬ disk.HasDirectory (nominal l front)) (n : Nat) :
    walk disk.root false n (disk.trail l) parts =
      .error (if disk.node? (nominal l front) = none then .noEntry else .notDirectory) := by
  induction front generalizing l parts with
  | nil =>
    obtain rfl : parts = part :: rest := hparts
    have hl : ¬ disk.HasDirectory l := hgap
    rw [hasDirectory_iff] at hl
    rw [walk_cons_of_linkless hlinkless, show nominal l [] = l from rfl]
    cases hnode : disk.node? l with
    | none => rfl
    | some node => cases node <;> first | rfl | exact absurd ⟨_, hnode⟩ hl
  | cons first front ih =>
    obtain rfl : parts = first :: (front ++ part :: rest) := hparts
    obtain ⟨entries, hentries⟩ := hasDirectory_iff.1 (hway [] List.nil_prefix (by simp))
    have hrest (l' : Location) (hl' : nominal l [first] = l') :
        walk disk.root false n (disk.trail l') (front ++ part :: rest) =
          .error (if disk.node? (nominal l (first :: front)) = none then .noEntry
            else .notDirectory) := by
      rw [nominal_cons, hl'] at hgap ⊢
      refine ih (fun other hother => hshort other (List.mem_cons_of_mem _ hother)) rfl
        (fun shorter hshorter hne => ?_) hgap
      rw [← hl', ← nominal_cons]
      exact hway _ (List.cons_prefix_cons.2 ⟨rfl, hshorter⟩) (by simpa using hne)
    have hlong : ¬ nameLimit < byteLength first := Nat.not_lt.2 (hshort first (by simp))
    rw [walk_cons_of_linkless hlinkless, show disk.node? l = _ from hentries]
    by_cases hup : first = dotDot
    · simp only [if_pos hup, hrest _ (hup ▸ nominal_up l)]
    · by_cases hhere : first = dot ∨ first = []
      · simp only [if_neg hup, if_pos hhere, hrest l (nominal_stay hup hhere)]
      · simp only [if_neg hup, if_neg hhere, Bool.false_eq_true, false_and, if_false, if_neg hlong,
          hrest _ (nominal_enter ⟨hup, hhere⟩)]

end Short

/-- A way that is not paved has a first gap. -/
lemma exists_gap (h : ¬ disk.Paves l parts) : ∃ front, front <+: parts ∧
    ¬ disk.HasDirectory (nominal l front) ∧
      ∀ shorter, shorter <+: front → shorter ≠ front → disk.HasDirectory (nominal l shorter) := by
  induction parts using List.reverseRecOn with
  | nil =>
    refine ⟨[], List.nil_prefix, fun hl => h fun front hfront => ?_, fun shorter hshorter hne => ?_⟩
    · rwa [List.prefix_nil.1 hfront]
    · exact absurd (List.prefix_nil.1 hshorter) hne
  | append_singleton parts part ih =>
    by_cases hfirst : disk.Paves l parts
    · refine ⟨parts ++ [part], List.prefix_refl _, fun hlast => h (paves_concat_iff.2
        ⟨hfirst, hlast⟩), fun shorter hshorter hne => ?_⟩
      exact hfirst shorter ((List.prefix_concat_iff.1 hshorter).resolve_left hne)
    · obtain ⟨front, hfront, hgap⟩ := ih hfirst
      exact ⟨front, hfront.trans (List.prefix_append _ _), hgap⟩

/-- A path that leads to a directory is paved. -/
lemma paves_of_isDirectory (hlinkless : disk.Linkless) (h : disk.isDirectory p = .ok true) :
    disk.Paves (disk.origin p) p.parts := by
  obtain ⟨place, hplace, hdirectory⟩ := isDirectory_eq_true_iff.1 h
  obtain ⟨-, m, hleads⟩ := locate_eq_ok_iff.1 hplace
  exact hleads.paves hlinkless hdirectory

/-- A path that can be followed leads to a directory exactly if it is paved. -/
lemma isDirectory_eq_true_iff_paves (hlinkless : disk.Linkless) (hfault : p.fault? = none)
    (hshort : ∀ part ∈ p.parts, byteLength part ≤ nameLimit) :
    disk.isDirectory p = .ok true ↔ disk.Paves (disk.origin p) p.parts := by
  refine ⟨paves_of_isDirectory hlinkless, fun h => isDirectory_eq_true_iff.2 ?_⟩
  have hleads := leads_of_way hlinkless hshort (fun front hfront _ => h front hfront) linkLimit
  exact ⟨_, locate_eq_ok_iff.2 ⟨hfault, _, hleads⟩, h _ (List.prefix_refl _)⟩

/-! ## The place of a new directory -/

section Place

variable {outer : List Text} {name : Text} (hlinkless : disk.Linkless)
  (hshort : ∀ part ∈ p.parts, byteLength part ≤ nameLimit) (hfault : p.fault? = none)
  (hparts : p.parts = outer ++ [name])

include hlinkless hshort hfault hparts

lemma entryPlace_of_paves (houter : disk.Paves (disk.origin p) outer) (hup : name ≠ dotDot) :
    disk.entryPlace p = .ok (some (entryName name :: nominal (disk.origin p) outer)) := by
  obtain ⟨entries, hentries⟩ := hasDirectory_iff.1 (houter _ (List.prefix_refl _))
  have hleads : disk.Leads false linkLimit (disk.origin p) outer linkLimit _ :=
    leads_of_way hlinkless (fun part hpart => hshort part (hparts ▸ by simp [hpart]))
      (fun front hfront _ => houter front hfront) linkLimit
  have hfollow := follow_eq_ok_iff.2 ⟨hfault, linkLimit, _, hleads, rfl⟩
  have hname : ¬ nameLimit < byteLength name := Nat.not_lt.2 (hshort name (by simp [hparts]))
  simp only [entryPlace, hparts, List.getLast?_concat, List.dropLast_concat, hfollow, node?_trail,
    hentries, if_neg hup, if_neg hname, location_trail]

lemma entryPlace_of_not_paves (houter : ¬ disk.Paves (disk.origin p) outer) :
    ∃ front, front <+: outer ∧ ¬ disk.HasDirectory (nominal (disk.origin p) front) ∧
      disk.entryPlace p = .error (.system
        (if disk.node? (nominal (disk.origin p) front) = none then .noEntry else .notDirectory)
        p none) := by
  obtain ⟨front, hfront, hgap, hway⟩ := exists_gap houter
  refine ⟨front, hfront, hgap, ?_⟩
  have houterShort : ∀ part ∈ outer, byteLength part ≤ nameLimit :=
    fun part hpart => hshort part (hparts ▸ by simp [hpart])
  simp only [entryPlace, hparts, List.getLast?_concat, List.dropLast_concat]
  obtain ⟨rest, hrest⟩ := hfront
  cases rest with
  | nil =>
    obtain rfl : front = outer := by simpa using hrest
    have hleads : disk.Leads false linkLimit (disk.origin p) front linkLimit _ :=
      leads_of_way hlinkless houterShort hway linkLimit
    rw [follow_eq_ok_iff.2 ⟨hfault, linkLimit, _, hleads, rfl⟩]
    rw [hasDirectory_iff] at hgap
    dsimp only
    rw [node?_trail]
    cases hnode : disk.node? (nominal (disk.origin p) front) with
    | none => rfl
    | some node => cases node <;> first | rfl | exact absurd ⟨_, hnode⟩ hgap
  | cons part rest =>
    simp only [follow, hfault, start_eq_trail,
      walk_of_gap hlinkless houterShort hrest.symm hway hgap, Except.mapError]

end Place

/-- Something on the way of a path is there and is no directory. -/
def Obstacle (disk : Disk) (p : Path) : Prop :=
  ∃ front, front <+: p.parts ∧ disk.node? (nominal (disk.origin p) front) ≠ none ∧
    ¬ disk.HasDirectory (nominal (disk.origin p) front)

end Disk

open Disk

variable {disk ready after : Disk} {p : Path} {l : Location} {chain : Nat}

/-! ## One directory -/

section One

variable {outer : List Text} {name : Text} (hlinkless : disk.Linkless)
  (hshort : ∀ part ∈ p.parts, byteLength part ≤ nameLimit) (hparts : p.parts = outer ++ [name])

include hlinkless hshort hparts

/-- **Making one directory** unless it is there: the path never gets that far or something is in the
way; or what the directory would lie in is missing; or the directory is there afterwards. -/
lemma makeUnlessThere_cases :
    (∃ fault, makeUnlessThere p disk = .error fault disk ∧
      (∀ q target, fault ≠ .system .noEntry q target) ∧ (p.fault? ≠ none ∨ disk.Obstacle p)) ∨
    (p.fault? = none ∧ ¬ disk.Paves (disk.origin p) outer ∧
      makeUnlessThere p disk = .error (.system .noEntry p none) disk) ∨
    (disk.Paves (disk.origin p) outer ∧ ∃ after, makeUnlessThere p disk = .ok () after) := by
  cases hfault : p.fault? with
  | some fault =>
    obtain ⟨other, hother, hnot, -⟩ := makeUnlessThere_of_fault? disk hfault
    exact .inl ⟨other, hother, hnot, .inl (by simp)⟩
  | none =>
    by_cases houter : disk.Paves (disk.origin p) outer
    · by_cases hall : disk.Paves (disk.origin p) p.parts
      · have hthere := (isDirectory_eq_true_iff_paves hlinkless hfault hshort).2 hall
        exact .inr (.inr ⟨houter, disk, makeUnlessThere_of_isDirectory hthere⟩)
      · -- what is missing is an entry of its own
        have hlast : ¬ disk.HasDirectory (nominal (disk.origin p) p.parts) := fun hlast =>
          hall (hparts ▸ paves_concat_iff.2 ⟨houter, hparts ▸ hlast⟩)
        have hdirectory := houter _ (List.prefix_refl _)
        have hproper : IsProper name := by
          rw [hparts, nominal_append] at hlast
          refine ⟨fun hup => hlast ?_, fun hhere => hlast ?_⟩
          · rw [hup, nominal_up]
            exact hdirectory.tail
          · have hup : name ≠ dotDot := by rcases hhere with rfl | rfl <;> decide
            rwa [nominal_stay hup hhere]
        have hplace := entryPlace_of_paves hlinkless hshort hfault hparts houter hproper.1
        have hend : nominal (disk.origin p) p.parts =
            entryName name :: nominal (disk.origin p) outer := by
          rw [hparts, nominal_append, nominal_enter hproper]
        cases hnode : disk.node? (nominal (disk.origin p) p.parts) with
        | none =>
          refine .inr (.inr ⟨houter, disk.putDirectory (nominal (disk.origin p) p.parts), ?_⟩)
          rw [makeUnlessThere, makeDirectory, hplace, ← hend]
          simp only [hnode]
        | some node =>
          have hmade : makeDirectory p disk = .error (.system .alreadyThere p none) disk := by
            rw [makeDirectory, hplace, ← hend]
            simp only [hnode]
          obtain ⟨fault, hfails, -, hnot⟩ := makeUnlessThere_of_error hmade (by decide)
            fun hthere => hall ((isDirectory_eq_true_iff_paves hlinkless hfault hshort).1 hthere)
          refine .inl ⟨fault, hfails, hnot, .inr ⟨p.parts, List.prefix_refl _, ?_, hlast⟩⟩
          simp [hnode]
    · obtain ⟨front, hfront, hgap, hplace⟩ :=
        entryPlace_of_not_paves hlinkless hshort hfault hparts houter
      by_cases hnode : disk.node? (nominal (disk.origin p) front) = none
      · rw [if_pos hnode] at hplace
        refine .inr (.inl ⟨rfl, houter, ?_⟩)
        rw [makeUnlessThere, makeDirectory, hplace]
      · rw [if_neg hnode] at hplace
        have hmade : makeDirectory p disk = .error (.system .notDirectory p none) disk := by
          rw [makeDirectory, hplace]
        have hbefore : front <+: p.parts := hparts ▸ hfront.trans (List.prefix_append _ _)
        obtain ⟨fault, hfails, -, hnot⟩ := makeUnlessThere_of_error hmade (by decide) fun hthere =>
          hgap ((isDirectory_eq_true_iff_paves hlinkless hfault hshort).1 hthere front hbefore)
        exact .inl ⟨fault, hfails, hnot, .inr ⟨front, hbefore, hnode, hgap⟩⟩

end One

/-! ## All directories on the way -/

/-- **Blocked.**  Why a directory cannot be made with all that it lies in, if at most `room`
directories are made at once. -/
inductive Disk.Blocked (disk : Disk) (room : Nat) (p : Path) : Prop where
  /-- The path cannot be followed. -/
  | fault (h : p.fault? ≠ none)
  /-- Something on its way is no directory. -/
  | obstacle (h : disk.Obstacle p)
  /-- Not even the directory that the first part of the path leads to, the last `room` parts left
  out, is there. -/
  | adrift (h : ∀ front, front <+: p.parts → p.parts.length ≤ front.length + room →
      ¬ disk.Paves (disk.origin p) front)

/-- The names that show in a directory are distinct. -/
lemma Disk.nodup_of_face? {names : List (Text × Option Nat)}
    (h : disk.face? l = some (.directory names)) : (names.map (·.1)).Nodup := by
  obtain ⟨entries, hentries⟩ := hasDirectory_iff.1 ⟨names, h⟩
  rw [face?, hentries] at h
  obtain rfl : entries.map (fun e => (e.name, e.made)) = names := by simpa [Node.face] using h
  simpa [Function.comp_def] using (Node.sound_directory.1 (disk.sound_node? hentries)).distinct

lemma OnlyMade.linkless {q : Path} (honly : OnlyMade q disk after) (h : disk.Linkless) :
    after.Linkless := by
  rintro l ⟨target, htarget⟩
  exact h l ⟨target, (honly.link_iff l target).1 htarget⟩

/-- What gets in the way of a path was there before directories were made. -/
lemma OnlyMade.obstacle {q : Path} (honly : OnlyMade q disk after) (h : after.Obstacle p) :
    disk.Obstacle p := by
  have horigin := origin_congr honly.here p
  obtain ⟨front, hfront, hthere, hnot⟩ := h
  rw [horigin] at hthere hnot
  refine ⟨front, hfront, ?_⟩
  cases honly.outcome (nominal (disk.origin p) front) with
  | same hface =>
    have hkind := sameKind_of_face? hface
    exact ⟨mt hkind.1.2 hthere, mt hkind.2.2 hnot⟩
  | named names more hold hnew => exact absurd ⟨_, hnew⟩ hnot
  | made parts hfree hdirectory hparts hlocate => exact absurd hdirectory hnot

/-- What was something else before directories were made is none now. -/
lemma OnlyMade.hasDirectory {q : Path} (honly : OnlyMade q disk after)
    (hthere : disk.node? l ≠ none) (h : after.HasDirectory l) : disk.HasDirectory l := by
  cases honly.outcome l with
  | same hface => exact (sameKind_of_face? hface).2.1 h
  | named names more hold hnew => exact ⟨_, hold⟩
  | made parts hfree hdirectory hparts hlocate => exact absurd hfree hthere

lemma ensures_ensureParts_onlyMade (old : Disk) (anchor : Anchor) (room : Nat)
    (inner : List Text) :
    Ensures (OnlyMade ⟨anchor, inner.reverse⟩ old) (ensureParts anchor room inner) fun _ => True :=
  ensures_ensureParts fun _ hparts => ensures_makeDirectory fun _ _ honly hplace hfree =>
    honly.putDirectory (p := ⟨anchor, inner.reverse⟩) hparts hplace hfree

/-- The directory that a path starts from is not made. -/
lemma makeUnlessThere_start (anchor : Anchor) (hlinkless : disk.Linkless) :
    (disk.Paves (disk.origin ⟨anchor, []⟩) [] ∧
      makeUnlessThere ⟨anchor, []⟩ disk = .ok () disk) ∨
    (¬ disk.Paves (disk.origin ⟨anchor, []⟩) [] ∧
      ∃ fault, makeUnlessThere ⟨anchor, []⟩ disk = .error fault disk) := by
  have hfault := Path.fault?_start anchor
  have hpaves := isDirectory_eq_true_iff_paves hlinkless hfault (by simp)
  by_cases hthere : disk.Paves (disk.origin ⟨anchor, []⟩) []
  · exact .inl ⟨hthere, makeUnlessThere_of_isDirectory (hpaves.2 hthere)⟩
  · have hmade : makeDirectory ⟨anchor, []⟩ disk =
        .error (.system .alreadyThere ⟨anchor, []⟩ none) disk := by
      simp [makeDirectory, entryPlace, hfault]
    obtain ⟨fault, hfails, -⟩ := makeUnlessThere_of_error hmade (by decide) (mt hpaves.1 hthere)
    exact .inr ⟨hthere, fault, hfails⟩

section Chain

variable {anchor : Anchor} {room : Nat} {name : Text} {inner outer : List Text}

lemma ensureParts_of_ok (h : makeUnlessThere ⟨anchor, inner.reverse⟩ disk = .ok () after) :
    ensureParts anchor (room + 1) inner disk = .ok () after := by
  cases inner with
  | nil => exact h
  | cons name outer =>
    rw [ensureParts]
    dsimp only
    rw [h]

/-- What has been started from, is the way of a shorter path. -/
lemma prefix_of_paves {front : List Text} (hnot : ¬ disk.Paves l outer)
    (hfront : front <+: outer ++ [name]) (h : disk.Paves l front) : front <+: outer := by
  refine (List.prefix_concat_iff.1 hfront).resolve_left ?_
  rintro rfl
  exact hnot (paves_concat_iff.1 h).1

/-- **Making directories from the inside out**: whoever succeeds has started from a directory that
was there, and whoever fails was blocked. -/
lemma ensureParts_result (room : Nat) (hlinkless : disk.Linkless)
    (hclean : (⟨anchor, inner.reverse⟩ : Path).IsClean)
    (hshort : ∀ part ∈ inner, byteLength part ≤ nameLimit) :
    match ensureParts anchor (room + 1) inner disk with
    | .ok _ after => after.isDirectory ⟨anchor, inner.reverse⟩ = .ok true ∧
      ∃ front, front <+: inner.reverse ∧ inner.length ≤ front.length + (room + 1) ∧
        disk.Paves (disk.origin ⟨anchor, []⟩) front
    | .error _ _ => disk.Blocked (room + 1) ⟨anchor, inner.reverse⟩ := by
  induction inner generalizing room disk with
  | nil =>
    rcases makeUnlessThere_start anchor hlinkless with
      ⟨hthere, hresult⟩ | ⟨hnot, fault, hresult⟩
    · rw [ensureParts_of_ok hresult]
      exact ⟨isDirectory_of_makeUnlessThere hclean hresult, [], List.nil_prefix, by simp, hthere⟩
    · rw [ensureParts, hresult]
      exact .adrift fun front hfront _ h => hnot (h.of_prefix List.nil_prefix)
  | cons name outer ih =>
    have hparts : (⟨anchor, (name :: outer).reverse⟩ : Path).parts = outer.reverse ++ [name] := by
      simp
    have houterClean : (⟨anchor, outer.reverse⟩ : Path).IsClean := fun part hpart =>
      hclean part (by rw [hparts]; exact List.mem_append_left _ hpart)
    have houterShort : ∀ part ∈ outer, byteLength part ≤ nameLimit := fun part hpart =>
      hshort part (by simp [hpart])
    have hlast {disk : Disk} (hlinkless : disk.Linkless) := makeUnlessThere_cases hlinkless
      (fun part hpart => hshort part (List.mem_reverse.1 hpart)) hparts
    rcases hlast hlinkless with ⟨fault, hresult, hmissing, hwhy⟩ | ⟨hfault, hnot, hresult⟩ |
      ⟨hthere, after, hresult⟩
    · rw [ensureParts_of_error room hresult hmissing]
      exact hwhy.elim .fault .obstacle
    · rw [ensureParts]
      simp only [hresult]
      cases room with
      | zero =>
        refine .adrift fun front hfront hlength h => hnot ?_
        have hprefix := prefix_of_paves hnot (hparts ▸ hfront) h
        have hwhole : front = outer.reverse :=
          hprefix.eq_of_length_le (by simp at hlength ⊢; omega)
        exact hwhole ▸ h
      | succ room =>
        have hbefore := ih room hlinkless houterClean houterShort
        have honly := ensures_ensureParts_onlyMade disk anchor (room + 1) outer disk (.refl _ disk)
        generalize ensureParts anchor (room + 1) outer disk = result at hbefore honly ⊢
        cases result with
        | error fault after =>
          rcases hbefore with hnone | ⟨front, hfront, hobstacle⟩ | hadrift
          · have hprefix : outer.reverse <+: (name :: outer).reverse := by simp
            exact absurd (Path.fault?_of_prefix hprefix hfault) hnone
          · exact .obstacle ⟨front, hfront.trans (by simp), hobstacle⟩
          · refine .adrift fun front hfront hlength h => ?_
            exact hadrift front (prefix_of_paves hnot (hparts ▸ hfront) h)
              (by simp at hlength ⊢; omega) h
        | ok u middle =>
          obtain ⟨hdirectory, front, hfront, hlength, hpaves⟩ := hbefore
          have hmiddle : middle.Linkless := honly.1.linkless hlinkless
          dsimp only
          rcases hlast hmiddle with ⟨fault, hresult, -, hwhy⟩ | ⟨-, hgap, -⟩ | ⟨-, after, hresult⟩
          · rw [hresult]
            exact hwhy.elim .fault fun h => .obstacle (honly.1.obstacle h)
          · exact absurd (paves_of_isDirectory hmiddle hdirectory) hgap
          · rw [hresult]
            exact ⟨isDirectory_of_makeUnlessThere hclean hresult, front, hfront.trans (by simp),
              by simp at hlength ⊢; omega, hpaves⟩
    · rw [ensureParts_of_ok hresult]
      exact ⟨isDirectory_of_makeUnlessThere hclean hresult, outer.reverse, by simp, by simp, hthere⟩

end Chain

section Exactly

variable (hlinkless : disk.Linkless) (hclean : p.IsClean)

include hlinkless hclean

/-- **A directory can be made with all that it lies in** unless it is blocked. -/
theorem ensureDirectory_error_iff (hshort : ∀ part ∈ p.parts, byteLength part ≤ nameLimit)
    (chain : Nat) :
    (∃ fault after, ensureDirectory chain p disk = .error fault after) ↔
      disk.Blocked (chain + 1) p := by
  have hresult := @ensureParts_result disk p.anchor p.parts.reverse chain hlinkless
    (by rwa [List.reverse_reverse]) fun part hpart => hshort part (List.mem_reverse.1 hpart)
  rw [List.reverse_reverse, List.length_reverse] at hresult
  change match ensureDirectory chain p disk with
    | .ok _ after => _
    | .error _ _ => _ at hresult
  constructor
  · rintro ⟨fault, after, h⟩
    rw [h] at hresult
    exact hresult
  · intro hblocked
    cases h : ensureDirectory chain p disk with
    | error fault after => exact ⟨fault, after, rfl⟩
    | ok u ready =>
      rw [h] at hresult
      obtain ⟨hdirectory, front, hfront, hlength, hpaves⟩ := hresult
      have honly := onlyMade_of_ensureDirectory h
      cases hblocked with
      | fault hfault =>
        obtain ⟨place, hplace, -⟩ := isDirectory_eq_true_iff.1 hdirectory
        exact absurd (locate_eq_ok_iff.1 hplace).1 hfault
      | obstacle hobstacle =>
        obtain ⟨front, hfront, hthere, hnot⟩ := hobstacle
        have hready := paves_of_isDirectory (honly.linkless hlinkless) hdirectory front hfront
        rw [(grows_of_ensureDirectory h).origin] at hready
        exact absurd (honly.hasDirectory hthere hready) hnot
      | adrift hadrift => exact absurd hpaves (hadrift front hfront hlength)

/-! ## What has been made -/

/-- A path passes through a location, or ends there, and there is nothing. -/
def Disk.IsMissing (disk : Disk) (p : Path) (l : Location) : Prop :=
  disk.node? l = none ∧ ∃ front, front <+: p.parts ∧ nominal (disk.origin p) front = l

/-- **What is there after a directory has been made** with all that it lies in. -/
structure Paving (p : Path) (old new : Disk) : Prop where
  /-- Nothing is lost. -/
  grows : old.Grows new
  /-- The path leads where its names say. -/
  leads : new.locate p = .ok (nominal (old.origin p) p.parts)
  /-- There are directories wherever the path leads on its way, and at its end. -/
  paves : new.Paves (old.origin p) p.parts
  /-- Whatever was not missing is what it was. -/
  held : ∀ l, ¬ old.IsMissing p l → new.content? l = old.content? l
  /-- Where neither a location nor an entry of it was missing, the same shows. -/
  same : ∀ l, ¬ old.IsMissing p l → (∀ name, ¬ old.IsMissing p (name :: l)) →
    new.face? l = old.face? l

lemma ensureDirectory_ok (h : ensureDirectory chain p disk = .ok () ready) :
    Paving p disk ready := by
  have honly := onlyMade_of_ensureDirectory h
  have hgrows := grows_of_ensureDirectory h
  have hready := honly.linkless hlinkless
  have hdirectory := isDirectory_of_ensureDirectory hclean h
  obtain ⟨place, hplace, -⟩ := isDirectory_eq_true_iff.1 hdirectory
  have hpaves := paves_of_isDirectory hready hdirectory
  rw [hgrows.origin] at hpaves
  -- what has been made was missing
  have hmissing {l : Location} {parts : List Text} (hfree : disk.node? l = none)
      (hparts : parts <+: p.parts) (hlocate : ready.locate ⟨p.anchor, parts⟩ = .ok l) :
      disk.IsMissing p l := by
    refine ⟨hfree, parts, hparts, ?_⟩
    rw [locate_eq_nominal hready hlocate, hgrows.origin]
    rfl
  refine ⟨hgrows, ?_, hpaves, fun l hl => ?_, fun l hl hnames => ?_⟩
  · rw [hplace, locate_eq_nominal hready hplace, hgrows.origin]
  · cases honly.outcome l with
    | same hface => exact content?_of_face? hface
    | named names more hold hnew =>
      rw [content?_eq_directory_iff.2 ⟨_, hnew⟩, content?_eq_directory_iff.2 ⟨_, hold⟩]
    | made parts hfree _ hparts hlocate => exact absurd (hmissing hfree hparts hlocate) hl
  · cases honly.outcome l with
    | same hface => exact hface
    | named names more hold hnew =>
      cases more with
      | nil => rw [hnew, hold, List.append_nil]
      | cons entry more =>
        -- the first of the new names was missing
        have hthere : ready.node? (entry.1 :: l) ≠ none :=
          (node?_cons_ne_none_iff hnew).2 (by simp)
        have hfree : disk.node? (entry.1 :: l) = none := by
          by_contra hbefore
          have hnodup := nodup_of_face? hnew
          rw [List.map_append, List.nodup_append] at hnodup
          exact hnodup.2.2 _ ((node?_cons_ne_none_iff hold).1 hbefore) entry.1 (by simp) rfl
        refine absurd ?_ (hnames entry.1)
        cases honly.outcome (entry.1 :: l) with
        | same hface => exact absurd ((sameKind_of_face? hface).1.2 hfree) hthere
        | named names more hold hnew => simp [← face?_eq_none, hold] at hfree
        | made parts hfree _ hparts hlocate => exact hmissing hfree hparts hlocate
    | made parts hfree _ hparts hlocate => exact absurd (hmissing hfree hparts hlocate) hl

end Exactly

end Storage

end OnePage
