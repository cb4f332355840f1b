import OnePage.Proofs.Storage.CopyLoop

/-!
# Copies that come to what they have made

A copy lists directories on a disk to which it adds directories and files itself.  What it finds may
therefore be what it has made, and whether that can happen depends on how the tree and the target
lie.

* `Traced` — a location held something at the beginning, or it is the counterpart of a traced one.
  `Traced.clear` and `Traced.outward` say what that comes to if neither of the two lies inside the
  other, and if the tree lies inside the target.
* `Accounted` — nothing but what is traced is on a disk, and `ensures_copyEntries_underway` —
  copying the entries of a directory leaves such a disk, also if it fails.
* `copyEntries_found` — what is left for later after that: the directories that are there then.
* `Copying.accounted` — what a whole copy leaves, and the directories whose turn comes.
* `Copying.fails` — a target inside the tree: the copy never comes to its end.
* **`copyTree_ends`** puts this together.
* `copyTree_findsItself` — two copies that leave what was nowhere in the tree at the beginning.
-/

namespace OnePage

namespace Storage

open Disk

variable {base disk after ready : Disk} {source target p q : Path} {s d inner l : Location}
  {name : Text} {names : List Text} {pairs found : List (Path × Path)} {visited : List Path}
  {result : EStateM.Result Fault Disk Nat} {copied : Nat} {chain : Nat}

/-! ## Where things come from -/

/-- **Traced.**  A location held something on the base disk, or it is the counterpart below `d` of a
traced location below `s`. -/
inductive Traced (base : Disk) (s d : Location) : Location → Prop where
  /-- It held something. -/
  | there {l : Location} (h : base.content? l ≠ none) : Traced base s d l
  /-- It may have been copied. -/
  | copied (inner : Location) (h : Traced base s d (inner ++ s)) : Traced base s d (inner ++ d)

/-- The tree and the target are the same, or neither lies inside the other. -/
def Clear (s d : Location) : Prop := s = d ∨ ¬ s <:+ d ∧ ¬ d <:+ s

/-- Then what is traced was there, or is a counterpart of what was there; below the tree, it was
there. -/
lemma Traced.clear (hclear : Clear s d) (h : Traced base s d l) :
    (base.content? l ≠ none ∨ ∃ inner, l = inner ++ d ∧ base.content? (inner ++ s) ≠ none) ∧
      ∀ inner, l = inner ++ s → base.content? l ≠ none := by
  induction h with
  | there h => exact ⟨.inl h, fun _ _ => h⟩
  | copied inner _ ih =>
    have hthere := ih.2 inner rfl
    refine ⟨.inr ⟨inner, rfl, hthere⟩, fun inner' heq => ?_⟩
    rcases hclear with rfl | ⟨habove, hbelow⟩
    · exact hthere
    · exact absurd ⟨inner, heq.symm, hthere⟩ (not_isCounterpart habove hbelow inner')

/-- If `s` lies inside `d`, a counterpart may be copied again: then what is traced was there, or it
is a counterpart of what was there some levels further down. -/
lemma Traced.outward {outer : Location} (h : Traced base (outer ++ d) d l) :
    (base.content? l ≠ none ∨ ∃ inner k, l = inner ++ d ∧
      base.content? (inner ++ ((List.replicate k outer).flatten ++ (outer ++ d))) ≠ none) ∧
    ∀ inner, l = inner ++ (outer ++ d) → ∃ k,
      base.content? (inner ++ ((List.replicate k outer).flatten ++ (outer ++ d))) ≠ none := by
  induction h with
  | there h => exact ⟨.inl h, fun inner heq => ⟨0, by simpa [← heq] using h⟩⟩
  | copied inner _ ih =>
    obtain ⟨k, hthere⟩ := ih.2 inner rfl
    refine ⟨.inr ⟨inner, k, rfl, hthere⟩, fun inner' heq => ⟨k + 1, ?_⟩⟩
    obtain rfl : inner = inner' ++ outer := by
      rw [← List.append_assoc] at heq
      exact List.append_cancel_right heq
    simpa [List.replicate_succ] using hthere

/-- **Accounted for.**  A disk has grown from the base disk, and all that is on it is traced; what
was there is still there, and no directory unless it was one. -/
structure Accounted (base : Disk) (s d : Location) (disk : Disk) : Prop where
  /-- It has grown. -/
  grows : base.Grows disk
  /-- All that is there is traced. -/
  traced : ∀ l, disk.content? l ≠ none → Traced base s d l
  /-- What was there is there, and of the same kind. -/
  kept : ∀ l, base.content? l ≠ none →
    disk.content? l ≠ none ∧ (disk.HasDirectory l → base.HasDirectory l)

namespace Accounted

lemma refl (base : Disk) (s d : Location) : Accounted base s d base :=
  ⟨.refl base, fun _ => .there, fun _ hl => ⟨hl, id⟩⟩

/-- **One more thing** is put at the counterpart of something traced. -/
lemma put {node : Node} {hnode : node.Sound} (h : Accounted base s d disk)
    (hvalid : validName name) (hparent : disk.HasDirectory (inner ++ d))
    (htraced : Traced base s d (name :: (inner ++ s)))
    (hgrows : disk.Grows (disk.put (name :: (inner ++ d)) node hnode))
    (hfree : ¬ disk.HasDirectory (name :: (inner ++ d)))
    (hkind : node.face.content = .directory → disk.content? (name :: (inner ++ d)) = none)
    (hempty : ∀ name, node.child? name = none) :
    Accounted base s d (disk.put (name :: (inner ++ d)) node hnode) := by
  have hcontent (l : Location) : (disk.put (name :: (inner ++ d)) node hnode).content? l = _ :=
    content?_put hvalid hparent hfree hempty l
  refine ⟨h.grows.trans hgrows, fun l hl => ?_, fun l hl => ?_⟩
  · rw [hcontent] at hl
    split at hl
    · next heq =>
      rw [heq]
      exact .copied (name :: inner) htraced
    · exact h.traced l hl
  · obtain ⟨hthere, hsame⟩ := h.kept l hl
    rw [hcontent, ← content?_eq_directory_iff, hcontent]
    split
    · next heq =>
      refine ⟨by simp, fun hdirectory => ?_⟩
      rw [heq, hkind (Option.some.inj hdirectory)] at hthere
      exact absurd rfl hthere
    · exact ⟨hthere, fun hdirectory => hsame (content?_eq_directory_iff.1 hdirectory)⟩

end Accounted

/-! ## One directory -/

/-- What can be copied can still be copied when the disk has grown. -/
lemma Matched.grows (h : Matched disk source target s d disk inner) (hgrows : disk.Grows after) :
    Matched after source target s d after inner where
  directory := hgrows.directory _ h.directory
  source := locate_grows h.source hgrows
  target := locate_grows h.target hgrows
  counterpart := hgrows.directory _ h.counterpart

/-- **Underway.**  While a directory is copied, all that is on the disk is accounted for. -/
structure Underway (base : Disk) (source target : Path) (s d inner : Location) (disk : Disk) :
    Prop where
  /-- All is accounted for. -/
  accounted : Accounted base s d disk
  /-- The directory can be copied. -/
  matched : Matched disk source target s d disk inner

section Entries

variable (hlinkless : base.Linkless) (hvalid : validName name)
  (htraced : Traced base s d (name :: (inner ++ s)))

include hvalid htraced

lemma ensures_makeChild : Ensures (Underway base source target s d inner)
    (ensureDirectory chain ((target.under inner).child name)) fun _ => True := by
  intro disk hdisk
  rw [ensureDirectory_child
    (isDirectory_eq_true_iff.2 ⟨_, hdisk.matched.target, hdisk.matched.counterpart⟩) hvalid]
  refine ensures_makeUnlessThere (ensures_makeDirectory fun disk place hdisk hplace hfree => ?_)
    disk hdisk
  obtain ⟨haccounted, hmatched⟩ := hdisk
  obtain ⟨_, _, -, hentry⟩ := entryPlace_eq_some hplace
  rw [entryPlace_child hmatched.target hmatched.counterpart hentry.fault hvalid] at hplace
  obtain rfl := Option.some.inj (Except.ok.inj hplace)
  have hgrows := grows_putDirectory hfree
  exact ⟨haccounted.put hvalid hmatched.counterpart htraced hgrows
    (fun hdirectory => hdirectory.node?_ne_none hfree)
    (fun _ => content?_eq_none_iff.2 hfree) fun _ => rfl, hmatched.grows hgrows⟩

include hlinkless

lemma ensures_copyChild : Ensures (Underway base source target s d inner)
    (copyFile q ((target.under inner).child name)) fun _ => True := by
  refine ensures_copyFile fun content => ensures_write fun disk place hdisk hplace hnot => ?_
  obtain ⟨haccounted, hmatched⟩ := hdisk
  have hlink := hlinkless.grows haccounted.grows
  rw [locateNew_child hmatched.target hmatched.counterpart hvalid
    (locateNew_eq_ok_iff.1 hplace).1 (hlink _)] at hplace
  obtain rfl := Except.ok.inj hplace
  have hgrows : disk.Grows (disk.putFile (name :: (inner ++ d)) content disk.nextStamp) :=
    grows_put (fun _ => rfl) (by simp) hnot (hlink _)
  exact ⟨haccounted.put hvalid hmatched.counterpart htraced hgrows hnot
    (by simp [Node.face, Face.content]) fun _ => rfl, hmatched.grows hgrows⟩

omit hvalid htraced

/-- **Copying a directory** adds nothing but counterparts of its entries, also if it fails. -/
lemma ensures_copyEntries_underway
    (hnames : ∀ name ∈ names, validName name ∧ Traced base s d (name :: (inner ++ s))) :
    Ensures (Underway base source target s d inner)
      (copyEntries chain (source.under inner) (target.under inner) names) fun _ => True := by
  induction names with
  | nil => exact ensures_pure trivial
  | cons name names ih =>
    obtain ⟨hvalid, htraced⟩ := hnames name (by simp)
    have hrest := ih fun other hother => hnames other (by simp [hother])
    rw [copyEntries]
    refine ensures_bind (ensures_query_any _) fun is _ => ?_
    cases is with
    | true => exact ensures_bind (ensures_makeChild hvalid htraced) fun _ _ =>
        ensures_bind hrest fun _ _ => ensures_pure trivial
    | false => exact ensures_bind (ensures_copyChild hlinkless hvalid htraced) fun _ _ =>
        ensures_bind hrest fun _ _ => ensures_pure trivial

end Entries

section Found

variable (hlinkless : disk.Linkless) (hmatched : Matched disk source target s d disk inner)

include hlinkless hmatched

/-- A directory found in another one can be copied once its counterpart has been made. -/
lemma makeChild_yields (hvalid : validName name)
    (hplace : disk.locate ((source.under inner).child name) = .ok (name :: (inner ++ s)))
    (hdirectory : disk.HasDirectory (name :: (inner ++ s))) :
    Yields (ensureDirectory chain ((target.under inner).child name)) disk
      (fun _ made => disk.Grows made ∧ Matched made source target s d made (name :: inner))
      True := by
  refine (ensureDirectory_child_yields hmatched.target hmatched.counterpart hvalid hlinkless
    chain).mono (fun _ made hpost => ?_) fun _ => trivial
  obtain ⟨hfault, hmade⟩ := hpost
  have hgrows : disk.Grows made := by
    rcases hmade with ⟨-, rfl⟩ | ⟨hfree, rfl⟩
    · exact .refl made
    · exact grows_putDirectory hfree
  have hthere : made.HasDirectory (name :: (inner ++ d)) := by
    rcases hmade with ⟨hthere, rfl⟩ | ⟨-, rfl⟩
    · exact hthere
    · exact ⟨[], face?_put hvalid hmatched.counterpart⟩
  have hnow := hmatched.grows hgrows
  refine ⟨hgrows, hgrows.directory _ hdirectory, ?_, ?_, hthere⟩
  · rw [← Path.child_under]
    exact locate_grows hplace hgrows
  · rw [← Path.child_under]
    exact locate_child hnow.target hnow.counterpart (hlinkless.grows hgrows _) hfault hvalid

/-- **What is left for later**: entries of the directory that are directories and have been made at
the target, among them all those that were there at the beginning. -/
lemma copyEntries_found (hnames : ∀ name ∈ names, validName name) (chain : Nat) :
    Yields (copyEntries chain (source.under inner) (target.under inner) names) disk
      (fun result after => disk.Grows after ∧
        (∀ pair ∈ result.2, ∃ name, pair = pairAt source target (name :: inner) ∧
          Matched after source target s d after (name :: inner)) ∧
        ∀ name ∈ names, disk.HasDirectory (name :: (inner ++ s)) →
          pairAt source target (name :: inner) ∈ result.2) True := by
  induction names generalizing disk with
  | nil => exact yields_pure ⟨.refl disk, by simp, by simp⟩
  | cons name names ih =>
    have hvalid := hnames name (by simp)
    have hchild : ((source.under inner).child name, (target.under inner).child name) =
        pairAt source target (name :: inner) := by
      rw [pairAt, Path.child_under, Path.child_under]
    rw [copyEntries]
    refine yields_bind (yields_query fun _ _ => trivial) ?_
    rintro is disk ⟨his, rfl⟩
    -- the other entries, on a disk that has grown
    have hrest {after : Disk} (hgrows : disk.Grows after) :=
      ih (hlinkless.grows hgrows) (hmatched.grows hgrows) fun other hother =>
        hnames other (by simp [hother])
    rcases isDirectory_child hmatched.source hmatched.directory hvalid hlinkless with
      ⟨-, fault, hanswer⟩ | ⟨-, hplace, hanswer⟩
    · simp [hanswer] at his
    obtain rfl := Except.ok.inj (hanswer.symm.trans his)
    by_cases hdirectory : disk.HasDirectory (name :: (inner ++ s))
    · rw [if_pos (by simpa using content?_eq_directory_iff.2 hdirectory)]
      refine yields_bind (makeChild_yields hlinkless hmatched hvalid hplace hdirectory) ?_
      rintro _ made ⟨hgrows, hmade⟩
      refine yields_bind (hrest hgrows) ?_
      rintro result final ⟨hfinal, hmatched', hall⟩
      rw [hchild]
      refine yields_pure ⟨hgrows.trans hfinal, fun pair hpair => ?_, fun other hother hbefore => ?_⟩
      · rcases List.mem_cons.1 hpair with rfl | hpair
        · exact ⟨name, rfl, hmade.grows hfinal⟩
        · exact hmatched' pair hpair
      · rcases List.mem_cons.1 hother with rfl | hother
        · exact List.mem_cons_self
        · exact List.mem_cons_of_mem _ (hall other hother (hgrows.directory _ hbefore))
    · rw [if_neg (by simpa using mt content?_eq_directory_iff.1 hdirectory)]
      have hcopied : Yields (copyFile ((source.under inner).child name)
          ((target.under inner).child name)) disk (fun _ after => disk.Grows after ∧ True) True :=
        (ensures_copyFile fun _ => ensures_write_grows (by simp [Path.child])).yields (.refl disk)
      refine yields_bind hcopied ?_
      rintro _ copied ⟨hgrows, -⟩
      refine yields_bind (hrest hgrows) ?_
      rintro result final ⟨hfinal, hmatched', hall⟩
      refine yields_pure ⟨hgrows.trans hfinal, hmatched', fun other hother hbefore => ?_⟩
      rcases List.mem_cons.1 hother with rfl | hother
      · exact absurd hbefore hdirectory
      · exact hall other hother (hgrows.directory _ hbefore)

end Found

/-! ## Whole copies -/

/-- **Matched pairs.**  What is still to be copied can be copied. -/
def AllMatched (source target : Path) (s d : Location) (pairs : List (Path × Path)) (disk : Disk) :
    Prop :=
  ∀ pair ∈ pairs, ∃ inner, pair = pairAt source target inner ∧
    Matched disk source target s d disk inner

lemma Matched.allMatched (h : Matched disk source target s d disk []) :
    AllMatched source target s d [(source, target)] disk := by
  simpa [AllMatched] using ⟨[], by simp [pairAt], h⟩

/-- The first of them. -/
lemma AllMatched.head (h : AllMatched source target s d ((p, q) :: pairs) disk) :
    ∃ inner, p = source.under inner ∧ q = target.under inner ∧
      Matched disk source target s d disk inner := by
  obtain ⟨inner, hpair, hmatched⟩ := h (p, q) (by simp)
  obtain ⟨rfl, rfl⟩ := Prod.mk.inj hpair
  exact ⟨inner, rfl, rfl, hmatched⟩

/-- What a directory that can be listed holds by name. -/
lemma names_of_list (hmatched : Matched disk source target s d disk inner)
    (hlist : disk.list (source.under inner) = .ok names) : names = disk.children (inner ++ s) := by
  rw [list_of_hasDirectory hmatched.source hmatched.directory] at hlist
  split_ifs at hlist
  exact (Except.ok.inj hlist).symm

/-- **One turn**: there are still no links, what is left for later can be copied, and the
directories that were there are among it. -/
lemma AllMatched.turn (hlinkless : disk.Linkless)
    (h : AllMatched source target s d (pairAt source target inner :: pairs) disk)
    (hmatched : Matched disk source target s d disk inner)
    (hlist : disk.list (source.under inner) = .ok names)
    (hentries : copyEntries chain (source.under inner) (target.under inner) names disk =
      .ok (copied, found) after) :
    after.Linkless ∧ AllMatched source target s d (found.reverse ++ pairs) after ∧
      ∀ name, disk.HasDirectory (name :: (inner ++ s)) →
        pairAt source target (name :: inner) ∈ found := by
  have hyields := copyEntries_found hlinkless hmatched
    (fun name hname => disk.validName_of_list hlist hname) chain
  rw [Yields, hentries] at hyields
  obtain ⟨hgrows, hfound, hall⟩ := hyields
  refine ⟨hlinkless.grows hgrows, fun pair hpair => ?_, fun name hname => hall name ?_ hname⟩
  · rcases List.mem_append.1 hpair with hpair | hpair
    · obtain ⟨name, hname, hmade⟩ := hfound pair (List.mem_reverse.1 hpair)
      exact ⟨name :: inner, hname, hmade⟩
    · obtain ⟨other, hother, hbefore⟩ := h pair (List.mem_cons_of_mem _ hpair)
      exact ⟨other, hother, hbefore.grows hgrows⟩
  · rw [names_of_list hmatched hlist, mem_children_iff, content?_eq_directory_iff.2 hname]
    simp

/-- A turn has come to a directory that is traced, and was a directory if it was there. -/
def CameFrom (base : Disk) (source : Path) (s d : Location) (p : Path) : Prop :=
  ∃ inner, p = source.under inner ∧ Traced base s d (inner ++ s) ∧
    (base.content? (inner ++ s) ≠ none → base.HasDirectory (inner ++ s))

lemma Accounted.cameFrom (h : Accounted base s d disk)
    (hmatched : Matched disk source target s d disk inner) :
    CameFrom base source s d (source.under inner) := by
  have hthere : disk.content? (inner ++ s) ≠ none := by
    simp [content?_eq_directory_iff.2 hmatched.directory]
  exact ⟨inner, rfl, h.traced _ hthere, fun hbefore => (h.kept _ hbefore).2 hmatched.directory⟩

/-- What is there after the entries of a directory have been copied, or some of them. -/
lemma Accounted.entries (chain : Nat) (h : Accounted base s d disk) (hlinkless : base.Linkless)
    (hmatched : Matched disk source target s d disk inner)
    (hlist : disk.list (source.under inner) = .ok names) :
    Accounted base s d
      (leftBy (copyEntries chain (source.under inner) (target.under inner) names disk)) := by
  refine ((ensures_copyEntries_underway hlinkless fun name hname => ?_).leftBy
    ⟨h, hmatched⟩).accounted
  refine ⟨disk.validName_of_list hlist hname, h.traced _ ?_⟩
  rw [names_of_list hmatched hlist] at hname
  exact mem_children_iff.1 hname

/-- **A copy leaves nothing but what is accounted for**, also if it fails, and comes to no other
directories. -/
lemma Copying.accounted (h : Copying chain pairs disk visited result) (hlinkless : base.Linkless)
    (haccounted : Accounted base s d disk) (hpairs : AllMatched source target s d pairs disk) :
    Accounted base s d (leftBy result) ∧ ∀ p ∈ visited, CameFrom base source s d p := by
  induction h with
  | done disk => exact ⟨haccounted, by simp⟩
  | stuck hlist =>
    obtain ⟨inner, rfl, rfl, hmatched⟩ := hpairs.head
    exact ⟨haccounted, by simpa using haccounted.cameFrom hmatched⟩
  | halted hlist hentries =>
    obtain ⟨inner, rfl, rfl, hmatched⟩ := hpairs.head
    have hleft := haccounted.entries chain hlinkless hmatched hlist
    rw [hentries] at hleft
    exact ⟨hleft, by simpa using haccounted.cameFrom hmatched⟩
  | turn hlist hentries hrest ih =>
    obtain ⟨inner, rfl, rfl, hmatched⟩ := hpairs.head
    have hleft := haccounted.entries chain hlinkless hmatched hlist
    rw [hentries] at hleft
    obtain ⟨-, hnext, -⟩ :=
      hpairs.turn (hlinkless.grows haccounted.grows) hmatched hlist hentries
    obtain ⟨hfinal, hvisited⟩ := ih hleft hnext
    refine ⟨?_, List.forall_mem_cons.2 ⟨haccounted.cameFrom hmatched, hvisited⟩⟩
    rwa [leftBy_counted]

/-! ## A target inside the tree -/

lemma pairAt_injective (source target : Path) : Function.Injective (pairAt source target) := by
  intro inner inner' heq
  have hparts : source.parts ++ inner.reverse = source.parts ++ inner'.reverse :=
    congrArg (fun pair => pair.1.parts) heq
  exact List.reverse_injective (List.append_cancel_left hparts)

/-- **Nested.**  Among the directories still to be copied there is one whose counterpart lies inside
it. -/
def Nested (source target : Path) (s d : Location) (pairs : List (Path × Path)) : Prop :=
  ∃ inner more, pairAt source target inner ∈ pairs ∧ more ≠ [] ∧
    inner ++ d = more ++ (inner ++ s)

/-- **It goes on for ever**, until a path is too long: the copy of a directory with its counterpart
inside finds a directory with its counterpart inside. -/
lemma Copying.fails (h : Copying chain pairs disk visited result) (hlinkless : disk.Linkless)
    (hpairs : AllMatched source target s d pairs disk) (hnested : Nested source target s d pairs) :
    ∃ fault after, result = .error fault after := by
  induction h with
  | done disk =>
    obtain ⟨inner, more, hmem, -⟩ := hnested
    simp at hmem
  | stuck hlist => exact ⟨_, _, rfl⟩
  | halted hlist hentries => exact ⟨_, _, rfl⟩
  | turn hlist hentries hrest ih =>
    obtain ⟨inner, rfl, rfl, hmatched⟩ := hpairs.head
    obtain ⟨hstill, hnext, hfound⟩ := hpairs.turn hlinkless hmatched hlist hentries
    have hagain : ∃ fault after, _ = EStateM.Result.error fault after := ih hstill hnext ?_
    · obtain ⟨fault, after, rfl⟩ := hagain
      exact ⟨fault, after, rfl⟩
    obtain ⟨inner', more, hmem, hmore, heq⟩ := hnested
    rcases List.mem_cons.1 hmem with hhead | htail
    · -- the entry through which the counterpart is reached is copied next
      obtain rfl : inner' = inner := pairAt_injective source target hhead
      obtain ⟨more, name, rfl⟩ := List.eq_nil_or_concat more |>.resolve_left hmore
      rw [List.concat_eq_append, List.append_assoc, List.singleton_append] at heq
      refine ⟨name :: inner', name :: more, ?_, by simp, by simp [heq]⟩
      refine List.mem_append_left _ (List.mem_reverse.2 (hfound name ?_))
      exact hasDirectory_of_append (heq ▸ hmatched.counterpart)
    · exact ⟨inner', more, List.mem_append_right _ htail, hmore, heq⟩

/-! ## All ways in which two trees can lie -/

/-- A location holds something when a copy begins, or a directory is made there because the path of
the target passes through it. -/
def AtHand (disk : Disk) (target : Path) (l : Location) : Prop :=
  disk.content? l ≠ none ∨ disk.IsMissing target l

lemma Paving.atHand (h : Paving target disk ready) (hl : ready.content? l ≠ none) :
    AtHand disk target l := by
  by_cases hmissing : disk.IsMissing target l
  · exact .inr hmissing
  · exact .inl (h.held l hmissing ▸ hl)

lemma Paving.directory (h : Paving target disk ready) (hl : ready.HasDirectory l) :
    disk.HasDirectory l ∨ disk.IsMissing target l := by
  by_cases hmissing : disk.IsMissing target l
  · exact .inr hmissing
  · rw [← content?_eq_directory_iff, h.held l hmissing] at hl
    exact .inl (content?_eq_directory_iff.1 hl)

/-- **Every copy ends.**  On a disk without links, a copy of a directory first makes the directory
of the target; if that fails, it has done nothing else.  Otherwise it takes certain turns and no
others, and no directory has its turn twice.  What it finds and leaves depends on how the two lie.

* If they are the same, or neither lies inside the other, only directories have a turn that were
  there when the copy began, and it leaves nothing but what was there and its counterparts.
* If the tree lies inside the target, it may come to what it has copied before: then what it leaves
  are counterparts of what was there some levels further down.
* If the target lies inside the tree, it comes to what it has copied before until it fails.

What the path of the target passes through is made first and counts as being there. -/
theorem copyTree_ends (chain : Nat) (hlinkless : disk.Linkless)
    (hleads : disk.locate source = .ok s) (hdirectory : disk.HasDirectory s)
    (hclean : target.IsClean)
    (hends : nominal (disk.origin target) target.parts = d) :
    match ensureDirectory chain target disk with
    | .error fault after =>
      copyTree chain source target disk = .error fault after ∧ OnlyMade target disk after
    | .ok _ ready => ∃ visited,
      (∀ other result, Copying chain [(source, target)] ready other result ↔
        other = visited ∧ result = copyTree chain source target disk) ∧
      visited.Nodup ∧
      (Clear s d →
        (∀ p ∈ visited, ∃ inner, p = source.under inner ∧
          (disk.HasDirectory (inner ++ s) ∨ disk.IsMissing target (inner ++ s))) ∧
        ∀ l, (leftBy (copyTree chain source target disk)).content? l ≠ none →
          AtHand disk target l ∨ ∃ inner, l = inner ++ d ∧ AtHand disk target (inner ++ s)) ∧
      (∀ outer, s = outer ++ d →
        (∀ p ∈ visited, ∃ inner k, p = source.under inner ∧
          AtHand disk target (inner ++ ((List.replicate k outer).flatten ++ s))) ∧
        ∀ l, (leftBy (copyTree chain source target disk)).content? l ≠ none →
          AtHand disk target l ∨ ∃ inner k, l = inner ++ d ∧
            AtHand disk target (inner ++ ((List.replicate k outer).flatten ++ s))) ∧
      (s <:+ d → s ≠ d →
        ∃ fault after, copyTree chain source target disk = .error fault after) := by
  have hsource : disk.isDirectory source = .ok true :=
    isDirectory_eq_true_iff.2 ⟨s, hleads, hdirectory⟩
  rw [copyTree_eq hsource]
  cases hensure : ensureDirectory chain target disk with
  | error fault after =>
    exact ⟨rfl, ensures_ensureDirectory_onlyMade.of_error (.refl target disk) hensure⟩
  | ok u ready =>
    dsimp only
    have hpaving := ensureDirectory_ok hlinkless hclean hensure
    have hready := hlinkless.grows hpaving.grows
    have hmatched := hpaving.matched hleads hdirectory hends
    have hpairs := hmatched.allMatched
    obtain ⟨visited, hcopying⟩ :=
      exists_copying chain (Path.length_parts_le_of_isDirectory hsource) target ready
    generalize copyLevels chain (pathLimit + 1) [(source, target)] ready = result at hcopying ⊢
    obtain ⟨haccounted, hvisited⟩ := hcopying.accounted hready (.refl ready s d) hpairs
    refine ⟨visited, fun other result => ⟨fun hother => hother.unique hcopying, ?_⟩,
      hcopying.nodup, fun hclear => ⟨fun p hp => ?_, fun l hl => ?_⟩, fun outer houter => ?_,
      fun hinside hne => ?_⟩
    · rintro ⟨rfl, rfl⟩
      exact hcopying
    · obtain ⟨inner, rfl, htraced, hkind⟩ := hvisited p hp
      exact ⟨inner, rfl, hpaving.directory (hkind ((htraced.clear hclear).2 inner rfl))⟩
    · rcases ((haccounted.traced l hl).clear hclear).1 with hthere | ⟨inner, rfl, hthere⟩
      · exact .inl (hpaving.atHand hthere)
      · exact .inr ⟨inner, rfl, hpaving.atHand hthere⟩
    · subst houter
      refine ⟨fun p hp => ?_, fun l hl => ?_⟩
      · obtain ⟨inner, rfl, htraced, -⟩ := hvisited p hp
        obtain ⟨k, hthere⟩ := htraced.outward.2 inner rfl
        exact ⟨inner, k, rfl, hpaving.atHand hthere⟩
      · rcases (haccounted.traced l hl).outward.1 with hthere | ⟨inner, k, rfl, hthere⟩
        · exact .inl (hpaving.atHand hthere)
        · exact .inr ⟨inner, k, rfl, hpaving.atHand hthere⟩
    · obtain ⟨more, rfl⟩ := hinside
      refine hcopying.fails hready hpairs ⟨[], more, by simp [pairAt], ?_, rfl⟩
      rintro rfl
      exact hne rfl

/-- The disk `letterDisk` with another directory in `s`, in which there is one file. -/
def branchDisk : Disk :=
  (letterDisk.putDirectory ["t", "s"]).putFile ["b", "t", "s"] [98] (.fresh 1)

/-- The directory of `branchDisk` and the one in it are copied in two turns if the target is apart,
and the copy fails if the target lies inside the tree. -/
theorem copyTree_ends_branch :
    branchDisk.Linkless ∧ branchDisk.locate (Path.parse "s") = .ok ["s"] ∧
    branchDisk.HasDirectory ["s"] ∧ Clear ["s"] ["d"] ∧
    (∃ ready, ensureDirectory usualChain (Path.parse "d") branchDisk = .ok () ready ∧
      Copying usualChain [(Path.parse "s", Path.parse "d")] ready
        [Path.parse "s", Path.parse "s/t"]
        (copyTree usualChain (Path.parse "s") (Path.parse "d") branchDisk) ∧
      ∀ p ∈ [Path.parse "s", Path.parse "s/t"], ∃ inner, p = (Path.parse "s").under inner ∧
        branchDisk.HasDirectory (inner ++ [("s" : Text)])) ∧
    ∃ fault after,
      copyTree usualChain (Path.parse "s") (Path.parse "s/d") branchDisk = .error fault after := by
  have hlinkless : branchDisk.Linkless :=
    linkless_of_inventory (p := Path.parse "") (by decide +kernel)
  have hleads : branchDisk.locate (Path.parse "s") = .ok [("s" : Text)] := by decide +kernel
  have hdirectory : branchDisk.HasDirectory [("s" : Text)] :=
    ⟨[("a", none), ("t", none)], by decide +kernel⟩
  have hclear : Clear [("s" : Text)] [("d" : Text)] := by
    unfold Clear
    decide +kernel
  have hapart := copyTree_ends usualChain hlinkless hleads hdirectory
    (Path.isClean_parse "d") (d := ["d"]) (by decide +kernel)
  have hinside := copyTree_ends usualChain hlinkless hleads hdirectory
    (Path.isClean_parse "s/d") (d := ["d", "s"]) (by decide +kernel)
  -- the two turns
  have hturns : succeeds (ensureDirectory usualChain (Path.parse "d") branchDisk) fun _ ready =>
      ready.list (Path.parse "s") = .ok ["a", "t"] ∧
        succeeds (copyEntries usualChain (Path.parse "s") (Path.parse "d") ["a", "t"] ready)
          fun result after => result = (1, [(Path.parse "s/t", Path.parse "d/t")]) ∧
            after.list (Path.parse "s/t") = .ok ["b"] ∧
              succeeds (copyEntries usualChain (Path.parse "s/t") (Path.parse "d/t") ["b"] after)
                fun result _ => result = (1, []) := by decide_cbv
  have hmade : succeeds (ensureDirectory usualChain (Path.parse "s/d") branchDisk)
      fun _ _ => true := by decide +kernel
  obtain ⟨_, ready, hready, hfirst⟩ := exists_of_succeeds hturns
  obtain ⟨hlist, hfirst⟩ := of_decide_eq_true hfirst
  obtain ⟨_, after, hentries, hsecond⟩ := exists_of_succeeds hfirst
  obtain ⟨rfl, hlist', hsecond⟩ := of_decide_eq_true hsecond
  obtain ⟨_, final, hentries', hlast⟩ := exists_of_succeeds hsecond
  obtain rfl := of_decide_eq_true hlast
  obtain ⟨_, ready', hready', -⟩ := exists_of_succeeds hmade
  rw [hready] at hapart
  rw [hready'] at hinside
  obtain ⟨visited, hcopying, -, hvisited, -⟩ := hapart
  obtain ⟨-, -, -, -, -, hfails⟩ := hinside
  obtain ⟨rfl, -⟩ := (hcopying _ _).1 (.turn hlist hentries (.turn hlist' hentries' (.done final)))
  refine ⟨hlinkless, hleads, hdirectory, hclear,
    ⟨ready, hready, (hcopying _ _).2 ⟨rfl, rfl⟩, fun p hp => ?_⟩,
    hfails (by decide +kernel) (by decide +kernel)⟩
  obtain ⟨inner, hinner, hthere | ⟨-, front, hfront, heq⟩⟩ := (hvisited hclear).1 p hp
  · exact ⟨inner, hinner, hthere⟩
  · -- the path of the target does not pass through the tree
    have hway : ∀ front ∈ (Path.parse "d").parts.inits, ¬ [("s" : Text)] <:+
        nominal (branchDisk.origin (Path.parse "d")) front := by decide +kernel
    exact absurd (heq ▸ List.suffix_append inner _) (hway front ((List.mem_inits _ _).2 hfront))

/-! ## Copies that come to what they have made -/

/-- A disk with an empty directory `s`. -/
def barrenDisk : Disk := Disk.empty.putDirectory ["s"]

/-- A disk with a directory `t/q/a`, and another one of the same name in `t/q/q`, with a file. -/
def outwardDisk : Disk :=
  ((((Disk.empty.putDirectory ["t"]).putDirectory ["q", "t"]).putDirectory
    ["a", "q", "t"]).putDirectory ["q", "q", "t"]).putDirectory ["a", "q", "q", "t"]
    |>.putFile ["b", "a", "q", "q", "t"] [120] (.fresh 0)

set_option maxRecDepth 10000 in
lemma copyTree_outwardDisk :
    succeeds (copyTree usualChain (Path.parse "t/q") (Path.parse "t") outwardDisk)
      fun n after => n = 2 ∧ after.content? ["b", "a", "t"] = some (.file [120]) := by decide_cbv

/-- **A copy may come to what it has made.**  An empty directory that is copied into itself fails,
and leaves a copy of the directory that was made at the target.  A directory that is copied to where
it lies counts a file twice, and leaves a copy of the file it has copied before. -/
theorem copyTree_findsItself :
    (barrenDisk.Linkless ∧ barrenDisk.isDirectory (Path.parse "s") = .ok true ∧
      barrenDisk.children ["s"] = [] ∧
      ∃ fault after,
        copyTree usualChain (Path.parse "s") (Path.parse "s/d") barrenDisk =
          .error fault after ∧
        after.HasDirectory ["d", "d", "s"]) ∧
    (outwardDisk.Linkless ∧ outwardDisk.isDirectory (Path.parse "t/q") = .ok true ∧
      outwardDisk.content? ["b", "a", "t"] = none ∧
      outwardDisk.content? ["b", "a", "q", "t"] = none ∧
      ∃ after, copyTree usualChain (Path.parse "t/q") (Path.parse "t") outwardDisk = .ok 2 after ∧
        after.content? ["b", "a", "t"] = some (.file [120])) := by
  have hlinkless : barrenDisk.Linkless :=
    linkless_of_inventory (p := Path.parse "") (by decide +kernel)
  have hsource : barrenDisk.isDirectory (Path.parse "s") = .ok true := by decide +kernel
  have hleads : barrenDisk.locate (Path.parse "s") = .ok [("s" : Text)] := by decide +kernel
  have hdirectory : barrenDisk.HasDirectory [("s" : Text)] := ⟨[], by decide +kernel⟩
  refine ⟨⟨hlinkless, hsource, by decide +kernel, ?_⟩, linkless_of_inventory (p := Path.parse "")
    (by decide +kernel), by decide +kernel, by decide +kernel, by decide +kernel, ?_⟩
  · -- the first turn
    have hfirst : succeeds (ensureDirectory usualChain (Path.parse "s/d") barrenDisk) fun _ ready =>
        ready.list (Path.parse "s") = .ok ["d"] ∧
          succeeds (copyEntries usualChain (Path.parse "s") (Path.parse "s/d") ["d"] ready)
            fun _ after => after.content? ["d", "d", "s"] = some .directory := by decide +kernel
    obtain ⟨_, ready, hensure, hready⟩ := exists_of_succeeds hfirst
    obtain ⟨hnames, hmade⟩ := of_decide_eq_true hready
    obtain ⟨⟨copied, found⟩, after, hentries, hthere⟩ := exists_of_succeeds hmade
    have hpaving := ensureDirectory_ok hlinkless (Path.isClean_parse _) hensure
    have hstill := hlinkless.grows hpaving.grows
    have hmatched := hpaving.matched hleads hdirectory (d := ["d", "s"]) (by decide +kernel)
    have hpairs := hmatched.allMatched
    obtain ⟨visited, hcopying⟩ := exists_copying usualChain
      (Path.length_parts_le_of_isDirectory hsource) (Path.parse "s/d") ready
    rw [copyTree_eq hsource, hensure]
    dsimp only
    generalize copyLevels usualChain (pathLimit + 1) [(Path.parse "s", Path.parse "s/d")] ready =
      result at hcopying ⊢
    obtain ⟨fault, final, hfails⟩ := hcopying.fails hstill hpairs
      ⟨[], [("d" : Text)], by simp [pairAt], by simp, rfl⟩
    refine ⟨fault, final, hfails, ?_⟩
    -- what the first turn has made is still there
    obtain ⟨visited', rest, -, hresult, hrest⟩ := hcopying.rest hnames hentries
    obtain ⟨hafter, hnext, -⟩ := AllMatched.turn hstill (by simpa [pairAt] using hpairs)
      hmatched (by simpa using hnames) (by simpa using hentries)
    have hgrows := (hrest.accounted hafter (.refl after _ _) hnext).1.grows
    rw [← leftBy_counted copied, ← hresult, hfails] at hgrows
    exact hgrows.directory _ (content?_eq_directory_iff.1 (of_decide_eq_true hthere))
  · obtain ⟨n, after, hcopy, hcopied⟩ := exists_of_succeeds copyTree_outwardDisk
    obtain ⟨rfl, hfile⟩ := of_decide_eq_true hcopied
    exact ⟨after, hcopy, hfile⟩

end Storage

end OnePage
