import OnePage.Proofs.Storage.Overlay

/-!
# Copying a tree, exactly

On a disk without links it can be told beforehand whether a tree can be copied to a place outside
itself, and what the disk holds then.

* `Separate` — a tree and the place it is to be copied to, neither of them inside the other.
* `Overlaid` — what the disk holds afterwards.
* **`copyTree_overlaid`** — a copy fails exactly if the target cannot be made or something is
  obstructed; otherwise the tree is laid over the target and its files are counted.  In which order
  directories are listed makes no difference.
* `copyTree_refused` — a tree may also be refused where nothing is in the way: its files lie too
  deep at the target, too many directories are missing, or the path of the target makes a directory
  that then is in the way.
-/

namespace OnePage

namespace Storage

open Disk

variable {disk other ready after after' : Disk} {source target : Path} {s d l : Location}
  {name : Text} {chain : Nat}

/-! ## What is to be copied where -/

/-- **A tree and a place apart from it.**  Neither lies inside the other.  Where the path of the
place passes through the tree or through what lies below the place itself, there are directories
already. -/
structure Separate (disk : Disk) (source target : Path) (s d : Location) : Prop where
  /-- There are no links. -/
  linkless : disk.Linkless
  /-- The path of the tree leads to it. -/
  leads : disk.locate source = .ok s
  /-- The tree is a directory. -/
  directory : disk.HasDirectory s
  /-- The path of the place has been read from a text. -/
  clean : target.IsClean
  /-- No name in it is too long. -/
  short : ∀ part ∈ target.parts, byteLength part ≤ nameLimit
  /-- By its names it leads to the place. -/
  ends : nominal (disk.origin target) target.parts = d
  /-- The place does not lie in the tree. -/
  above : ¬ s <:+ d
  /-- The tree does not lie in the place. -/
  below : ¬ d <:+ s
  /-- Whatever the path of the place passes through in there is a directory. -/
  way : ∀ front, front <+: target.parts →
    s <:+ nominal (disk.origin target) front ∨ d <:+ nominal (disk.origin target) front →
    nominal (disk.origin target) front = d ∨ disk.HasDirectory (nominal (disk.origin target) front)

/-- The path of the place passes through neither if it has no steps up. -/
lemma way_of_names {names : List Text} (hnames : ∀ name ∈ names, validName name)
    (habove : ¬ s <:+ nominal l names) (front : List Text) (hfront : front <+: names)
    (h : s <:+ nominal l front ∨ nominal l names <:+ nominal l front) :
    nominal l front = nominal l names := by
  obtain ⟨rest, rfl⟩ := hfront
  have hshorter : nominal l front <:+ nominal l (front ++ rest) := by
    have hrest : ∀ name ∈ rest, validName name := fun name hname => hnames name (by simp [hname])
    rw [nominal_append, nominal_names hrest]
    exact List.suffix_append _ _
  rcases h with h | h
  · exact absurd (h.trans hshorter) habove
  · exact hshorter.eq_of_length_le h.length_le

/-- **What is there after a tree has been copied.** -/
structure Overlaid (target : Path) (s d : Location) (old new : Disk) : Prop where
  /-- Every file and directory of the tree has a counterpart. -/
  laid : ∀ inner, old.content? (inner ++ s) ≠ none →
    new.content? (inner ++ d) = old.content? (inner ++ s)
  /-- The tree itself shows what it showed. -/
  source : ∀ inner, new.face? (inner ++ s) = old.face? (inner ++ s)
  /-- What was missing on the way to the place is a directory. -/
  made : ∀ l, old.IsMissing target l → new.HasDirectory l
  /-- Everything else holds what it held. -/
  held : ∀ l, ¬ IsCounterpart old s d l → ¬ old.IsMissing target l →
    new.content? l = old.content? l
  /-- It also shows what it showed, unless it is a directory with a new name on the way. -/
  same : ∀ l, ¬ IsCounterpart old s d l → ¬ old.IsMissing target l →
    (∀ name, ¬ old.IsMissing target (name :: l)) → new.face? l = old.face? l

/-! ## The directory of the target -/

/-- Once the directory of the target has been made, the tree can be copied there. -/
lemma Paving.matched (h : Paving target disk ready) (hleads : disk.locate source = .ok s)
    (hdirectory : disk.HasDirectory s) (hends : nominal (disk.origin target) target.parts = d) :
    Matched ready source target s d ready [] where
  directory := h.grows.directory s hdirectory
  source := by simpa using locate_grows hleads h.grows
  target := by simpa [hends] using h.leads
  counterpart := by simpa [hends] using h.paves _ (List.prefix_refl _)

namespace Separate

section Paving

variable (h : Separate disk source target s d)

include h

lemma not_isMissing_source (inner : Location) : ¬ disk.IsMissing target (inner ++ s) := by
  rintro ⟨hnone, front, hfront, heq⟩
  have hs : s <:+ nominal (disk.origin target) front := heq ▸ List.suffix_append inner s
  rcases h.way front hfront (.inl hs) with hplace | hdirectory
  · exact h.above (hplace ▸ hs)
  · exact hdirectory.node?_ne_none (heq ▸ hnone)

lemma not_isMissing_target {inner : Location} (hinner : inner ≠ []) :
    ¬ disk.IsMissing target (inner ++ d) := by
  rintro ⟨hnone, front, hfront, heq⟩
  have hd : d <:+ nominal (disk.origin target) front := heq ▸ List.suffix_append inner d
  rcases h.way front hfront (.inr hd) with hplace | hdirectory
  · exact hinner (List.append_left_eq_self.1 (heq.symm.trans hplace))
  · exact hdirectory.node?_ne_none (heq ▸ hnone)

variable (hpaving : Paving target disk ready)

include hpaving

lemma face?_source (inner : Location) : ready.face? (inner ++ s) = disk.face? (inner ++ s) :=
  hpaving.same _ (h.not_isMissing_source inner) fun name => h.not_isMissing_source (name :: inner)

lemma content?_source (inner : Location) :
    ready.content? (inner ++ s) = disk.content? (inner ++ s) :=
  content?_of_face? (h.face?_source hpaving inner)

lemma content?_target {inner : Location} (hinner : inner ≠ []) :
    ready.content? (inner ++ d) = disk.content? (inner ++ d) :=
  hpaving.held _ (h.not_isMissing_target hinner)

lemma matched : Matched ready source target s d ready [] :=
  hpaving.matched h.leads h.directory h.ends

end Paving

end Separate

/-- What obstructs a copy on one disk obstructs it on another that holds the same below both places,
and whose target is in the way as well if it is none for a directory. -/
lemma Obstructed.transfer {old new : Disk} (h : Obstructed old source target s d)
    (hs : ∀ inner, new.content? (inner ++ s) = old.content? (inner ++ s))
    (hd : ∀ inner, inner ≠ [] → new.content? (inner ++ d) = old.content? (inner ++ d))
    (hfleeting : new.fleeting = old.fleeting) (hdirectory : old.HasDirectory s)
    (hroot : old.content? d ≠ none → ¬ old.HasDirectory d → new.content? d = old.content? d) :
    Obstructed new source target s d := by
  have hsame (inner : Location) (hthere : old.content? (inner ++ d) ≠ none)
      (hnot : inner = [] → ¬ old.HasDirectory d) :
      new.content? (inner ++ d) = old.content? (inner ++ d) := by
    by_cases hinner : inner = []
    · subst hinner
      exact hroot hthere (hnot rfl)
    · exact hd inner hinner
  cases h with
  | clash inner hlaid hthere hnot =>
    have hnow := hsame inner hthere fun hinner => by simpa [hinner] using hnot
    refine .clash inner ?_ (hnow ▸ hthere) ?_
    · rw [← content?_eq_directory_iff, hs, content?_eq_directory_iff]
      exact hlaid
    · rw [← content?_eq_directory_iff, hnow, content?_eq_directory_iff]
      exact hnot
  | covered inner bytes hfile hcovered =>
    have hinner : inner ≠ [] := by
      rintro rfl
      rw [List.nil_append, content?_eq_directory_iff.2 hdirectory] at hfile
      simp at hfile
    refine .covered inner bytes ((hs inner).trans hfile) ?_
    rw [← content?_eq_directory_iff, hd inner hinner, content?_eq_directory_iff]
    exact hcovered
  | fault inner hthere hfault => exact .fault inner ((hs inner).symm ▸ hthere) hfault
  | unlistable inner hlaid hmem =>
    refine .unlistable inner ?_ (hfleeting ▸ hmem)
    rw [← content?_eq_directory_iff, hs, content?_eq_directory_iff]
    exact hlaid

/-! ## The whole copy -/

lemma copyTree_eq (hsource : disk.isDirectory source = .ok true) :
    copyTree chain source target disk = match ensureDirectory chain target disk with
      | .ok _ ready => copyLevels chain (pathLimit + 1) [(source, target)] ready
      | .error fault after => .error fault after := by
  simp only [copyTree, bind, EStateM.bind, query, hsource, if_true]
  cases ensureDirectory chain target disk <;> rfl

/-- What is no directory is not copied, and that is no mistake. -/
lemma isDirectory_of_copyTree {n : Nat} (h : copyTree chain source target disk = .ok n after) :
    disk.isDirectory source = .ok false ∧ n = 0 ∧ after = disk ∨
      disk.isDirectory source = .ok true := by
  cases hsource : disk.isDirectory source with
  | error fault => simp [copyTree, bind, EStateM.bind, query, hsource] at h
  | ok is =>
    cases is with
    | true => exact .inr rfl
    | false =>
      have hnothing : copyTree chain source target disk = .ok 0 disk := by
        simp [copyTree, bind, EStateM.bind, query, hsource, pure, EStateM.pure]
      obtain ⟨rfl, rfl⟩ := EStateM.Result.ok.inj (hnothing.symm.trans h)
      exact .inl ⟨rfl, rfl, rfl⟩

section Whole

variable (h : Separate disk source target s d)

include h

/-- **What comes of copying a tree.** -/
lemma copyTree_result (chain : Nat) : match copyTree chain source target disk with
    | .ok n after => (n : ℕ∞) = disk.fileCount s ∧ Overlaid target s d disk after ∧
      ¬ (disk.Blocked (chain + 1) target ∨ Obstructed disk source target s d)
    | .error _ _ => disk.Blocked (chain + 1) target ∨ Obstructed disk source target s d := by
  have hblocked := ensureDirectory_error_iff h.linkless h.clean h.short chain
  rw [copyTree_eq (isDirectory_eq_true_iff.2 ⟨s, h.leads, h.directory⟩)]
  cases hmade : ensureDirectory chain target disk with
  | error fault after => exact .inl (hblocked.1 ⟨fault, after, hmade⟩)
  | ok u ready =>
    have hfree : ¬ disk.Blocked (chain + 1) target := fun hstopped => by
      obtain ⟨fault, after, herror⟩ := hblocked.2 hstopped
      simp [hmade] at herror
    have hpaving := ensureDirectory_ok h.linkless h.clean hmade
    have hsource := h.content?_source hpaving
    have hdirectory := (h.matched hpaving).counterpart
    have hcopied := copyLevels_yields (h.linkless.grows hpaving.grows) h.above h.below
      (h.matched hpaving) chain
    rw [Yields] at hcopied
    dsimp only
    cases hresult : copyLevels chain (pathLimit + 1) [(source, target)] ready with
    | error fault after =>
      rw [hresult] at hcopied
      refine .inr (hcopied.transfer (fun inner => (hsource inner).symm)
        (fun inner hinner => (h.content?_target hpaving hinner).symm) hpaving.grows.fleeting.symm
        (hpaving.grows.directory s h.directory) fun _ hnot => absurd hdirectory hnot)
    | ok n after =>
      rw [hresult] at hcopied
      obtain ⟨hcount, hlays, hall⟩ := hcopied
      have hcounterpart (l : Location) (hl : ¬ IsCounterpart disk s d l) :
          ¬ IsCounterpart ready s d l := by
        rintro ⟨inner, rfl, hthere⟩
        exact hl ⟨inner, rfl, hsource inner ▸ hthere⟩
      refine ⟨?_, ⟨fun inner hthere => ?_, fun inner => ?_, fun l hl => ?_, fun l hl hmissing => ?_,
        fun l hl hmissing hnames => ?_⟩, ?_⟩
      · rw [hcount]
        exact fileCount_congr hsource
      · have hsettled := hall.settled inner (by simpa [hsource inner] using hthere)
        rw [← hsource inner]
        simpa using hsettled.held
      · rw [hlays.face?_source h.above h.below, h.face?_source hpaving]
      · obtain ⟨-, front, hfront, rfl⟩ := hl
        exact hlays.confined.grows.directory _ (hpaving.paves front hfront)
      · rw [content?_of_face? (hlays.confined.same l (hcounterpart l hl)), hpaving.held l hmissing]
      · rw [hlays.confined.same l (hcounterpart l hl), hpaving.same l hmissing hnames]
      · rintro (hstopped | hobstructed)
        · exact hfree hstopped
        · refine hall.not_obstructed hlays (hobstructed.transfer hsource
            (fun inner => h.content?_target hpaving) hpaving.grows.fleeting h.directory
            fun hthere hnot => ?_)
          -- at the target itself, something else would have been in the way
          refine absurd (.obstacle ⟨target.parts, List.prefix_refl _, ?_, ?_⟩) hfree
          · rwa [h.ends, ne_eq, ← content?_eq_none_iff]
          · rwa [h.ends]

lemma copyTree_error_iff (chain : Nat) :
    (∃ fault after, copyTree chain source target disk = .error fault after) ↔
      disk.Blocked (chain + 1) target ∨ Obstructed disk source target s d := by
  have hresult := copyTree_result h chain
  cases hcopy : copyTree chain source target disk with
  | error fault after =>
    rw [hcopy] at hresult
    exact iff_of_true ⟨fault, after, rfl⟩ hresult
  | ok n after =>
    rw [hcopy] at hresult
    exact iff_of_false (by simp) hresult.2.2

end Whole

/-! ## Another order of names -/

section Other

variable (hsame : SameContents disk other) (hhere : other.here = disk.here)

include hsame hhere

omit hhere in
lemma SameContents.paves {l : Location} {parts : List Text} (h : disk.Paves l parts) :
    other.Paves l parts := fun front hfront => (hsame.hasDirectory_iff _).2 (h front hfront)

lemma SameContents.isMissing_iff : other.IsMissing target l ↔ disk.IsMissing target l := by
  rw [IsMissing, IsMissing, hsame.node?_eq_none_iff, origin_congr hhere]

/-- A directory that cannot be made on one disk cannot be made on the other. -/
lemma SameContents.blocked {room : Nat} (h : disk.Blocked room target) :
    other.Blocked room target := by
  have horigin := origin_congr hhere target
  cases h with
  | fault h => exact .fault h
  | obstacle h =>
    obtain ⟨front, hfront, hthere, hnot⟩ := h
    refine .obstacle ⟨front, hfront, ?_⟩
    rw [horigin, ne_eq, hsame.node?_eq_none_iff, hsame.hasDirectory_iff]
    exact ⟨hthere, hnot⟩
  | adrift h =>
    refine .adrift fun front hfront hlength hpaves => h front hfront hlength ?_
    rw [horigin] at hpaves
    exact hsame.symm.paves hpaves

lemma Separate.transfer (h : Separate disk source target s d) :
    Separate other source target s d where
  linkless := hsame.linkless h.linkless
  leads := (hsame.locate_eq h.linkless hhere source).trans h.leads
  directory := (hsame.hasDirectory_iff s).2 h.directory
  clean := h.clean
  short := h.short
  ends := by rw [origin_congr hhere, h.ends]
  above := h.above
  below := h.below
  way front hfront hinside := by
    rw [origin_congr hhere] at hinside ⊢
    exact (h.way front hfront hinside).imp_right (hsame.hasDirectory_iff _).2

/-- The same is there after a tree has been copied on disks that held the same. -/
lemma Overlaid.sameContents (h : Overlaid target s d disk after)
    (h' : Overlaid target s d other after') : SameContents after after' := by
  intro l
  by_cases hcounterpart : IsCounterpart disk s d l
  · obtain ⟨inner, rfl, hthere⟩ := hcounterpart
    rw [h.laid inner hthere, h'.laid inner (hsame _ ▸ hthere), hsame]
  · by_cases hmissing : disk.IsMissing target l
    · rw [content?_eq_directory_iff.2 (h.made l hmissing),
        content?_eq_directory_iff.2 (h'.made l ((hsame.isMissing_iff hhere).2 hmissing))]
    · rw [h.held l hcounterpart hmissing, h'.held l _ (mt (hsame.isMissing_iff hhere).1 hmissing),
        hsame]
      rintro ⟨inner, rfl, hthere⟩
      exact hcounterpart ⟨inner, rfl, hsame _ ▸ hthere⟩

end Other

/-- **Copying a tree lays it over the target.**  On a disk without links a copy to a place apart
from the tree fails exactly if the directory of the target cannot be made or something is
obstructed.  If it succeeds, it counts the files of the tree, and the disk holds what it should.
Disks that hold the same, whatever they list first, still hold the same afterwards. -/
theorem copyTree_overlaid (h : Separate disk source target s d) (chain : Nat) :
    ((∃ fault after, copyTree chain source target disk = .error fault after) ↔
      disk.Blocked (chain + 1) target ∨ Obstructed disk source target s d) ∧
    (∀ n after, copyTree chain source target disk = .ok n after →
      (n : ℕ∞) = disk.fileCount s ∧ Overlaid target s d disk after) ∧
    ∀ other : Disk, other.here = disk.here → other.fleeting = disk.fleeting →
      SameContents disk other →
      match copyTree chain source target disk, copyTree chain source target other with
      | .ok n after, .ok m after' => m = n ∧ SameContents after after'
      | .error _ _, .error _ _ => True
      | _, _ => False := by
  have hresult := copyTree_result h chain
  refine ⟨copyTree_error_iff h chain, fun n after hcopy => ?_,
    fun other hhere hfleeting hsame => ?_⟩
  · rw [hcopy] at hresult
    exact ⟨hresult.1, hresult.2.1⟩
  · have hother := copyTree_result (h.transfer hsame hhere) chain
    -- what stops one of the two copies stops the other
    have hstop : disk.Blocked (chain + 1) target ∨ Obstructed disk source target s d ↔
        other.Blocked (chain + 1) target ∨ Obstructed other source target s d := by
      refine or_congr ⟨hsame.blocked hhere, hsame.symm.blocked hhere.symm⟩ ⟨fun hstopped => ?_,
        fun hstopped => ?_⟩
      · exact hstopped.transfer (fun _ => hsame _) (fun _ _ => hsame _) hfleeting h.directory
          fun _ _ => hsame _
      · exact hstopped.transfer (fun _ => hsame.symm _) (fun _ _ => hsame.symm _) hfleeting.symm
          ((hsame.hasDirectory_iff s).2 h.directory) fun _ _ => hsame.symm _
    cases hcopy : copyTree chain source target disk with
    | error fault after =>
      rw [hcopy] at hresult
      cases hcopy' : copyTree chain source target other with
      | error fault' after' => trivial
      | ok m after' =>
        rw [hcopy'] at hother
        exact hother.2.2 (hstop.1 hresult)
    | ok n after =>
      rw [hcopy] at hresult
      obtain ⟨hcount, hoverlaid, hfree⟩ := hresult
      cases hcopy' : copyTree chain source target other with
      | error fault' after' =>
        rw [hcopy'] at hother
        exact hfree (hstop.2 hother)
      | ok m after' =>
        rw [hcopy'] at hother
        obtain ⟨hcount', hoverlaid', -⟩ := hother
        rw [fileCount_congr fun inner => hsame _, ← hcount] at hcount'
        exact ⟨Nat.cast_inj.1 hcount', hoverlaid.sameContents hsame hhere hoverlaid'⟩

/-- A disk with a directory `s`, in which there is one file. -/
def letterDisk : Disk := (Disk.empty.putDirectory ["s"]).putFile ["a", "s"] [97] (.fresh 0)

lemma linkless_letterDisk : letterDisk.Linkless :=
  linkless_of_inventory (p := Path.parse "") (by decide +kernel)

lemma hasDirectory_letterDisk : letterDisk.HasDirectory ["s"] := ⟨[("a", none)], by decide +kernel⟩

theorem copyTree_overlaid_letter :
    Separate letterDisk (Path.parse "s") (Path.parse "d") ["s"] ["d"] ∧
    ∃ after, copyTree usualChain (Path.parse "s") (Path.parse "d") letterDisk = .ok 1 after ∧
      letterDisk.fileCount ["s"] = 1 ∧
      after.content? ["a", "d"] = some (.file [97]) ∧ after.HasDirectory ["d"] := by
  have hends : nominal (letterDisk.origin (Path.parse "d")) (Path.parse "d").parts =
      [("d" : Text)] := by decide +kernel
  have habove : ¬ [("s" : Text)] <:+ [("d" : Text)] := by decide +kernel
  have hseparate : Separate letterDisk (Path.parse "s") (Path.parse "d") ["s"] ["d"] := {
    linkless := linkless_letterDisk
    leads := by decide +kernel
    directory := hasDirectory_letterDisk
    clean := Path.isClean_parse _
    short := by decide +kernel
    ends := hends
    above := habove
    below := by decide +kernel
    way := fun front hfront hinside => .inl (hends ▸ way_of_names (by decide +kernel)
      (hends.symm ▸ habove) front hfront (hends.symm ▸ hinside)) }
  have hcopied : succeeds (copyTree usualChain (Path.parse "s") (Path.parse "d") letterDisk)
      fun n _ => decide (n = 1) := by decide +kernel
  refine ⟨hseparate, ?_⟩
  obtain ⟨n, after, hcopy, hn⟩ := exists_of_succeeds hcopied
  obtain rfl := of_decide_eq_true hn
  obtain ⟨-, hsucceeds, -⟩ := copyTree_overlaid hseparate usualChain
  obtain ⟨hcount, hoverlaid⟩ := hsucceeds 1 after hcopy
  have hletter : letterDisk.content? ["a", "s"] = some (.file [97]) := by decide +kernel
  refine ⟨after, hcopy, by simpa using hcount.symm, ?_, ?_⟩
  · refine (hoverlaid.laid ["a"] ?_).trans hletter
    exact Option.ne_none_iff_exists'.2 ⟨_, hletter⟩
  · refine content?_eq_directory_iff.1 ((hoverlaid.laid [] ?_).trans ?_)
    · simp [content?_eq_directory_iff.2 hasDirectory_letterDisk]
    · exact content?_eq_directory_iff.2 hasDirectory_letterDisk

/-! ## Refused without an obstacle -/

section Free

variable {p : Path} {names : List Text} (hvalid : ∀ part ∈ name :: names, validName part)
  (hfree : disk.node? (name :: l) = none)

include hvalid hfree

/-- Names lead to nothing if the first of them stands for nothing. -/
lemma node?_of_free {front : List Text} (hfront : front <+: names) (inner : Location) :
    disk.node? (inner ++ nominal l (name :: front)) = none := by
  have hnames : ∀ part ∈ name :: front, validName part := fun part hpart =>
    hvalid part ((List.cons_prefix_cons.2 ⟨rfl, hfront⟩).subset hpart)
  rw [nominal_names hnames, List.reverse_cons, List.append_assoc, List.singleton_append,
    ← List.append_assoc, node?_append, hfree, Option.bind_none]

/-- Nothing is in the way of such names. -/
lemma not_obstacle_of_free (hparts : p.parts = name :: names) (hl : disk.origin p = l)
    (hdirectory : disk.HasDirectory l) : ¬ disk.Obstacle p := by
  rintro ⟨front, hfront, hthere, hnot⟩
  rw [hparts] at hfront
  rw [hl] at hthere hnot
  cases front with
  | nil => exact hnot hdirectory
  | cons first front =>
    obtain ⟨rfl, hrest⟩ := List.cons_prefix_cons.1 hfront
    exact hthere (node?_of_free hvalid hfree hrest [])

/-- The place that they lead to is apart from any tree, unless it lies in it. -/
lemma separate_of_free (hlinkless : disk.Linkless) (hleads : disk.locate source = .ok s)
    (hdirectory : disk.HasDirectory s) (hparts : target.parts = name :: names)
    (hl : disk.origin target = l) (habove : ¬ s <:+ nominal l (name :: names)) :
    Separate disk source target s (nominal l (name :: names)) where
  linkless := hlinkless
  leads := hleads
  directory := hdirectory
  clean part hpart := slash_notMem_of_validName (hvalid part (hparts ▸ hpart))
  short part hpart := byteLength_le_of_validName (hvalid part (hparts ▸ hpart))
  ends := by rw [hl, hparts]
  above := habove
  below := by
    rintro ⟨inner, rfl⟩
    exact hdirectory.node?_ne_none (node?_of_free hvalid hfree (List.prefix_refl _) inner)
  way front hfront hinside := by
    rw [hl, hparts] at *
    exact .inl (way_of_names hvalid habove front hfront hinside)

end Free

/-- A path that is as long as paths may be. -/
def longPath : Path := ⟨.here, List.replicate 16 (List.replicate 255 (CodePoint.ofChar 'x'))⟩

/-- A path that leads very deep. -/
def deepPath : Path := ⟨.here, List.replicate 2000 "x"⟩

/-- A path that passes through a directory below the one it leads to. -/
def roundaboutPath : Path := .parse "d/a/../../d"

/-- **A copy that fails though nothing is in the way.**  The tree of `letterDisk` and the target are
apart, every name is one that a path may have, nothing on the way of the target is an obstacle, and
nothing is at the target or below it. -/
structure FailsFreely (target : Path) : Prop where
  /-- There are no links. -/
  linkless : letterDisk.Linkless
  /-- No directory vanishes. -/
  steady : letterDisk.fleeting = []
  /-- The path of the tree leads to it. -/
  leads : letterDisk.locate (Path.parse "s") = .ok ["s"]
  /-- The tree is a directory. -/
  directory : letterDisk.HasDirectory ["s"]
  /-- No name of the target is too long or holds what no name may hold. -/
  names : ∀ part ∈ target.parts, byteLength part ≤ nameLimit ∧ CodePoint.ofNat 0 ∉ part
  /-- The target does not lie in the tree. -/
  above : ¬ [("s" : Text)] <:+ nominal [] target.parts
  /-- The tree does not lie in the target. -/
  below : ¬ nominal [] target.parts <:+ [("s" : Text)]
  /-- Nothing on the way of the target is anything but a directory. -/
  clear : ¬ letterDisk.Obstacle target
  /-- Nothing is at the target or below it. -/
  vacant : ∀ inner, letterDisk.content? (inner ++ nominal [] target.parts) = none
  /-- The copy fails. -/
  fails : ∃ fault after, copyTree usualChain (Path.parse "s") target letterDisk = .error fault after

/-- A copy to a place that stands for nothing fails freely if it fails. -/
lemma failsFreely_of_free (hvalid : ∀ part ∈ name :: names, validName part)
    (hfree : letterDisk.node? [name] = none) (hparts : target.parts = name :: names)
    (hl : letterDisk.origin target = []) (habove : ¬ [("s" : Text)] <:+ nominal [] (name :: names))
    (hfails : Separate letterDisk (Path.parse "s") target ["s"] (nominal [] (name :: names)) →
      ∃ fault after, copyTree usualChain (Path.parse "s") target letterDisk = .error fault after) :
    FailsFreely target := by
  have hleads : letterDisk.locate (Path.parse "s") = .ok [("s" : Text)] := by decide +kernel
  have hseparate := separate_of_free hvalid hfree linkless_letterDisk hleads
    hasDirectory_letterDisk hparts hl habove
  exact {
    linkless := linkless_letterDisk
    steady := rfl
    leads := hleads
    directory := hasDirectory_letterDisk
    names := fun part hpart => ⟨hseparate.short part hpart, fun hnul =>
      (isPlain_of_validName (hvalid part (hparts ▸ hpart)) _ hnul).1 rfl⟩
    above := hparts ▸ hseparate.above
    below := hparts ▸ hseparate.below
    clear := not_obstacle_of_free hvalid hfree hparts hl hasDirectory_root
    vacant := fun inner => content?_eq_none_iff.2
      (hparts ▸ node?_of_free hvalid hfree (List.prefix_refl _) inner)
    fails := hfails hseparate }

/-- **A tree may be refused though nothing is in the way.**  A path of its files at the target is
too long; or more directories are missing than are made at once; or a directory that the path of
the target passes through is made first and then in the way of a file. -/
theorem copyTree_refused :
    FailsFreely longPath ∧ FailsFreely deepPath ∧ FailsFreely roundaboutPath := by
  have hleads : letterDisk.locate (Path.parse "s") = .ok [("s" : Text)] := by decide +kernel
  refine ⟨?_, ?_, ?_⟩
  · have hparts : longPath.parts = _ :: List.replicate 15 _ := rfl
    have hfree : letterDisk.node? [List.replicate 255 (CodePoint.ofChar 'x')] = none := by
      decide +kernel
    refine failsFreely_of_free (by decide +kernel) hfree hparts rfl (by decide +kernel) ?_
    intro hseparate
    refine (copyTree_error_iff hseparate usualChain).2 ?_
    exact .inr (.fault ["a"] (by decide +kernel) (.inr (by decide +kernel)))
  · have hparts : deepPath.parts = ("x" : Text) :: List.replicate 1999 "x" := rfl
    have hvalid : ∀ part ∈ ("x" : Text) :: List.replicate 1999 "x", validName part := by
      intro part hpart
      obtain rfl : part = "x" := by
        rcases List.mem_cons.1 hpart with rfl | hpart
        · rfl
        · exact List.eq_of_mem_replicate hpart
      decide +kernel
    have hfree : letterDisk.node? ["x"] = none := by decide +kernel
    refine failsFreely_of_free hvalid hfree hparts rfl (by decide +kernel) ?_
    intro hseparate
    refine (copyTree_error_iff hseparate usualChain).2
      (.inl (.adrift fun front hfront hlength hpaves => ?_))
    cases front with
    | nil =>
      rw [hparts, List.length_cons, List.length_replicate] at hlength
      exact absurd hlength (by decide)
    | cons first front =>
      obtain ⟨rfl, -⟩ := List.cons_prefix_cons.1 (hparts ▸ hfront)
      exact (hpaves [("x" : Text)] (by simp)).node?_ne_none hfree
  · have hway : ∀ front ∈ roundaboutPath.parts.inits,
        letterDisk.content? (nominal [] front) = none ∨
          letterDisk.content? (nominal [] front) = some .directory := by decide +kernel
    have hfree : letterDisk.node? (nominal [] roundaboutPath.parts) = none := by decide +kernel
    have hrefused : fails (copyTree usualChain (Path.parse "s") roundaboutPath letterDisk)
        fun _ _ => true := by decide +kernel
    refine ⟨linkless_letterDisk, rfl, hleads, hasDirectory_letterDisk, by decide +kernel,
      by decide +kernel, by decide +kernel, ?_, fun inner => ?_, ?_⟩
    · rintro ⟨front, hfront, hthere, hnot⟩
      rcases hway front ((List.mem_inits _ _).2 hfront) with hnone | hdirectory
      · exact hthere (content?_eq_none_iff.1 hnone)
      · exact hnot (content?_eq_directory_iff.1 hdirectory)
    · rw [content?_eq_none_iff, node?_append, hfree, Option.bind_none]
    · obtain ⟨fault, after, hcopy, -⟩ := exists_of_fails hrefused
      exact ⟨fault, after, hcopy⟩

end Storage

end OnePage
