import OnePage.Proofs.Outcome
import OnePage.Proofs.Storage.Growth
import OnePage.Storage.Resolve

/-!
# Where paths lead

A path is followed part by part, and links on the way put further parts in front.  This file says
when parts lead from one location to another, and what can be told about it without following them
again.

* `Disk.Leads` — parts lead from a location to another one, and so many links may still be followed.
* **`Disk.walk_eq_ok_iff`** — a walk succeeds exactly if its parts lead somewhere.
* `Disk.Leads.append` — parts can be followed in two goes.
* `Disk.Leads.grows` — parts lead to the same place after a disk has grown.
* `Disk.Leads.names` — names that stand for no links lead where they say.
* `Disk.Leads.remove` — what is neither a directory nor a link is not needed on the way to a
  directory.
* `Disk.locate_eq_ok_iff`, `Disk.isDirectory_eq_true_iff` and the lemmas after them say the same of
  paths.
* `Disk.Bypasses` — a path needs no link at a location.
-/

namespace OnePage

namespace Storage

/-! ## Following parts -/

/-- A part that stands for an entry of its own. -/
def IsProper (part : Text) : Prop := part ≠ dotDot ∧ ¬ (part = dot ∨ part = [])

lemma isProper_of_validName {name : Text} (h : validName name) : IsProper name := by
  simp only [validName, Bool.and_eq_true, decide_eq_true_eq] at h
  obtain ⟨⟨⟨⟨⟨⟨hempty, hdot⟩, hdotDot⟩, -⟩, -⟩, -⟩, -⟩ := h
  exact ⟨hdotDot, by rintro (rfl | rfl) <;> contradiction⟩

lemma byteLength_le_of_validName {name : Text} (h : validName name) :
    byteLength name ≤ nameLimit := by
  simp only [validName, Bool.and_eq_true, decide_eq_true_eq] at h
  exact h.2

/-- A valid name is that of the entry it stands for. -/
lemma entryName_of_validName {name : Text} (h : validName name) : entryName name = name := by
  simp only [validName, Bool.and_eq_true, decide_eq_true_eq] at h
  exact h.1.2

lemma slash_notMem_of_validName {name : Text} (h : validName name) : slash ∉ name := by
  simp only [validName, Bool.and_eq_true, decide_eq_true_eq] at h
  exact h.1.1.1.2

namespace Disk

/-- Where a link's target starts from, the link lying in a directory. -/
def linkStart (target : Text) (directory : Location) : Location :=
  if target.head? = some slash then [] else directory

/-- A part that is followed as the name of an entry, with so many parts after it. -/
structure IsName (making : Bool) (part : Text) (parts : List Text) : Prop where
  /-- It is no step up. -/
  notUp : part ≠ dotDot
  /-- It does not stand for the directory itself. -/
  notHere : ¬ (part = dot ∨ part = [])
  /-- It is not what is to be made as a file while the path asks for a directory. -/
  notMade : ¬ (making ∧ parts = [[]])
  /-- It is not too long. -/
  short : ¬ nameLimit < byteLength part

/-- **Leading somewhere.**  With at most `linksLeft` links on the way, parts lead from one location
to another; what is left of the links comes before the place they lead to. -/
inductive Leads (disk : Disk) (making : Bool) :
    (linksLeft : Nat) → Location → List Text → Nat → Location → Prop where
  /-- Nothing is left to follow. -/
  | done (n : Nat) (l : Location) : Leads disk making n l [] n l
  /-- A step up. -/
  | up {n m : Nat} {l place : Location} {parts : List Text} (hl : disk.HasDirectory l)
      (rest : Leads disk making n l.tail parts m place) :
      Leads disk making n l (dotDot :: parts) m place
  /-- A part that stands for the directory itself. -/
  | stay {n m : Nat} {l place : Location} {part : Text} {parts : List Text}
      (hl : disk.HasDirectory l) (hpart : part = dot ∨ part = [])
      (rest : Leads disk making n l parts m place) :
      Leads disk making n l (part :: parts) m place
  /-- A name that does not stand for a link. -/
  | enter {n m : Nat} {l place : Location} {part : Text} {parts : List Text}
      (hl : disk.HasDirectory l) (hname : IsName making part parts)
      (hlink : ¬ disk.HasLink (entryName part :: l))
      (rest : Leads disk making n (entryName part :: l) parts m place) :
      Leads disk making n l (part :: parts) m place
  /-- A link. -/
  | link {n m : Nat} {l place : Location} {part target : Text} {parts : List Text}
      (hl : disk.HasDirectory l) (hname : IsName making part parts)
      (hlink : disk.face? (entryName part :: l) = some (.link target))
      (rest : Leads disk making n (linkStart target l) (targetParts target ++ parts) m place) :
      Leads disk making (n + 1) l (part :: parts) m place

variable {disk new : Disk} {making : Bool} {n m : Nat} {l place : Location} {parts : List Text}

/-- A walk from the end of a trail, one part at a time. -/
lemma walk_cons (root : Node) (making : Bool) (n : Nat) (trail : Trail) (part : Text)
    (parts : List Text) : walk root making n trail (part :: parts) =
      match trail.node? root with
      | none => .error .noEntry
      | some (.directory _) =>
        if part = dotDot then walk root making n trail.tail parts
        else if part = dot ∨ part = [] then walk root making n trail parts
        else if making ∧ parts = [[]] then .error .isDirectory
        else if nameLimit < byteLength part then .error .nameTooLong
        else match (trail.step root (entryName part)).node? root with
          | some (.link target) => match n with
            | 0 => .error .tooManyLinks
            | n + 1 => walk root making n (targetStart target trail) (targetParts target ++ parts)
          | _ => walk root making n (trail.step root (entryName part)) parts
      | some _ => .error .notDirectory := by
  cases n <;> rfl

lemma walk_nil (root : Node) (making : Bool) (n : Nat) (trail : Trail) :
    walk root making n trail [] = .ok trail := by
  cases n <;> rfl

lemma tail_trail (disk : Disk) (l : Location) : (disk.trail l).tail = disk.trail l.tail := by
  cases l <;> rfl

lemma targetStart_trail (disk : Disk) (target : Text) (l : Location) :
    targetStart target (disk.trail l) = disk.trail (linkStart target l) := by
  rw [targetStart, linkStart]
  split_ifs <;> rfl

lemma step_trail (disk : Disk) (l : Location) (name : Text) :
    (disk.trail l).step disk.root name = disk.trail (name :: l) := rfl

lemma leads_of_walk {trail : Trail} (h : walk disk.root making n (disk.trail l) parts = .ok trail) :
    ∃ m place, disk.Leads making n l parts m place ∧ trail = disk.trail place := by
  -- a link is followed with fewer links left, and everything else leaves fewer parts
  induction n using Nat.strong_induction_on generalizing l parts with
  | _ n ihn =>
    induction parts generalizing l with
    | nil =>
      rw [walk_nil] at h
      exact ⟨n, l, .done n l, (Except.ok.inj h).symm⟩
    | cons part parts ih =>
      rw [walk_cons, node?_trail, tail_trail, step_trail, node?_trail] at h
      split at h
      · simp at h
      · next entries hentries =>
        have hl : disk.HasDirectory l := hasDirectory_iff.2 ⟨entries, hentries⟩
        split_ifs at h with hup hhere hmade hlong
        · obtain ⟨m, place, hrest, htrail⟩ := ih h
          exact ⟨m, place, hup ▸ .up hl hrest, htrail⟩
        · obtain ⟨m, place, hrest, htrail⟩ := ih h
          exact ⟨m, place, .stay hl hhere hrest, htrail⟩
        · split at h
          · next target hlink =>
            cases n with
            | zero => simp at h
            | succ n =>
              simp only [targetStart_trail] at h
              obtain ⟨m, place, hrest, htrail⟩ := ihn n (Nat.lt_succ_self n) h
              exact ⟨m, place, .link hl ⟨hup, hhere, hmade, hlong⟩ (face?_eq_link.2 hlink) hrest,
                htrail⟩
          · next hnot =>
            obtain ⟨m, place, hrest, htrail⟩ := ih h
            refine ⟨m, place, .enter hl ⟨hup, hhere, hmade, hlong⟩ ?_ hrest, htrail⟩
            rw [hasLink_iff]
            rintro ⟨target, hlink⟩
            exact hnot target hlink
      · simp at h

section Step

variable {part target : Text} (hl : disk.HasDirectory l)

include hl

lemma walk_up : walk disk.root making n (disk.trail l) (dotDot :: parts) =
    walk disk.root making n (disk.trail l.tail) parts := by
  obtain ⟨entries, hentries⟩ := hasDirectory_iff.1 hl
  rw [walk_cons, node?_trail, hentries, tail_trail]
  rfl

lemma walk_stay (hpart : part = dot ∨ part = []) :
    walk disk.root making n (disk.trail l) (part :: parts) =
      walk disk.root making n (disk.trail l) parts := by
  obtain ⟨entries, hentries⟩ := hasDirectory_iff.1 hl
  have hup : part ≠ dotDot := by
    rcases hpart with rfl | rfl <;> decide
  simp only [walk_cons, node?_trail, hentries, if_neg hup, if_pos hpart]

variable (hname : IsName making part parts)

include hname

lemma walk_enter (hlink : ¬ disk.HasLink (entryName part :: l)) :
    walk disk.root making n (disk.trail l) (part :: parts) =
      walk disk.root making n (disk.trail (entryName part :: l)) parts := by
  obtain ⟨entries, hentries⟩ := hasDirectory_iff.1 hl
  simp only [walk_cons, node?_trail, hentries, if_neg hname.notUp, if_neg hname.notHere,
    if_neg hname.notMade, if_neg hname.short, step_trail]
  split
  · next target htarget => exact absurd (hasLink_iff.2 ⟨target, htarget⟩) hlink
  · rfl

lemma walk_link (hlink : disk.face? (entryName part :: l) = some (.link target)) :
    walk disk.root making (n + 1) (disk.trail l) (part :: parts) =
      walk disk.root making n (disk.trail (linkStart target l)) (targetParts target ++ parts) := by
  obtain ⟨entries, hentries⟩ := hasDirectory_iff.1 hl
  simp only [walk_cons, node?_trail, hentries, if_neg hname.notUp, if_neg hname.notHere,
    if_neg hname.notMade, if_neg hname.short, step_trail, face?_eq_link.1 hlink, targetStart_trail]

end Step

lemma Leads.walk (h : disk.Leads making n l parts m place) :
    walk disk.root making n (disk.trail l) parts = .ok (disk.trail place) := by
  induction h with
  | done n l => exact walk_nil _ _ n _
  | up hl _ ih => rw [walk_up hl, ih]
  | stay hl hpart _ ih => rw [walk_stay hl hpart, ih]
  | enter hl hname hlink _ ih => rw [walk_enter hl hname hlink, ih]
  | link hl hname hlink _ ih => rw [walk_link hl hname hlink, ih]

/-- **A walk succeeds exactly if its parts lead somewhere**, and it ends there. -/
lemma walk_eq_ok_iff {trail : Trail} :
    walk disk.root making n (disk.trail l) parts = .ok trail ↔
      ∃ m place, disk.Leads making n l parts m place ∧ trail = disk.trail place := by
  refine ⟨leads_of_walk, ?_⟩
  rintro ⟨m, place, h, rfl⟩
  exact h.walk

/-- A directory is still there without what is none. -/
lemma HasDirectory.remove {name : Text} {parent : Location} (hl : disk.HasDirectory l)
    (hnot : ¬ disk.HasDirectory (name :: parent)) :
    (disk.remove (name :: parent)).HasDirectory l := by
  refine hasDirectory_remove_iff.2 ⟨?_, hl⟩
  rintro ⟨inner, rfl⟩
  by_cases hinner : inner = []
  · exact hnot (by simpa [hinner] using hl)
  · obtain ⟨names, hnames⟩ := hl
    simp [face?_eq_none.2 (disk.node?_append_eq_none hinner hnot)] at hnames

/-- A link is still there without something else that is no directory. -/
lemma face?_remove_eq_link {name target : Text} {parent : Location}
    (hlink : disk.face? l = some (.link target)) (hnot : ¬ disk.HasDirectory (name :: parent))
    (hne : l ≠ name :: parent) : (disk.remove (name :: parent)).face? l = some (.link target) := by
  refine (face?_remove_eq_link_iff _).2 ⟨?_, hlink⟩
  rintro ⟨inner, rfl⟩
  by_cases hinner : inner = []
  · exact hne (by simp [hinner])
  · simp [face?_eq_none.2 (disk.node?_append_eq_none hinner hnot)] at hlink

namespace Leads

/-- Parts lead to one place only. -/
lemma unique {m' : Nat} {place' : Location} (h : disk.Leads making n l parts m place)
    (h' : disk.Leads making n l parts m' place') : place = place' := by
  have htrail : disk.trail place = disk.trail place' := Except.ok.inj (h.walk.symm.trans h'.walk)
  rw [← disk.location_trail place, htrail, disk.location_trail]

/-- Parts are followed in directories only. -/
lemma hasDirectory {part : Text} (h : disk.Leads making n l (part :: parts) m place) :
    disk.HasDirectory l := by
  cases h <;> assumption

/-- **Parts can be followed in two goes**: first some of them, and then, from where they lead, the
others.  A file may be made at the end of the second go, unless that only asks for a directory. -/
lemma append {first second : List Text} (hmaking : making = true → second ≠ [] ∧ second ≠ [[]]) :
    disk.Leads making n l (first ++ second) m place ↔
      ∃ n' l', disk.Leads false n l first n' l' ∧ disk.Leads making n' l' second m place := by
  constructor
  · intro h
    -- with no parts to begin with, everything is left to the second go
    have hnil {n m : Nat} {l place : Location} {parts : List Text} (hparts : [] ++ second = parts)
        (h : disk.Leads making n l parts m place) :
        ∃ n' l', disk.Leads false n l [] n' l' ∧ disk.Leads making n' l' second m place := by
      subst hparts
      exact ⟨n, l, .done n l, h⟩
    generalize hparts : first ++ second = parts at h
    induction h generalizing first with
    | done n l =>
      obtain ⟨rfl, rfl⟩ := List.append_eq_nil_iff.1 hparts
      exact ⟨n, l, .done n l, .done n l⟩
    | up hl hrest ih =>
      cases first with
      | nil => exact hnil hparts (.up hl hrest)
      | cons part first =>
        obtain ⟨rfl, htail⟩ := List.cons.inj hparts
        obtain ⟨n', l', hfirst, hsecond⟩ := ih htail
        exact ⟨n', l', .up hl hfirst, hsecond⟩
    | stay hl hpart hrest ih =>
      cases first with
      | nil => exact hnil hparts (.stay hl hpart hrest)
      | cons part first =>
        obtain ⟨rfl, htail⟩ := List.cons.inj hparts
        obtain ⟨n', l', hfirst, hsecond⟩ := ih htail
        exact ⟨n', l', .stay hl hpart hfirst, hsecond⟩
    | enter hl hname hlink hrest ih =>
      cases first with
      | nil => exact hnil hparts (.enter hl hname hlink hrest)
      | cons part first =>
        obtain ⟨rfl, htail⟩ := List.cons.inj hparts
        obtain ⟨n', l', hfirst, hsecond⟩ := ih htail
        exact ⟨n', l', .enter hl ⟨hname.notUp, hname.notHere, by simp, hname.short⟩ hlink hfirst,
          hsecond⟩
    | link hl hname hlink hrest ih =>
      cases first with
      | nil => exact hnil hparts (.link hl hname hlink hrest)
      | cons part first =>
        obtain ⟨rfl, rfl⟩ := List.cons.inj hparts
        obtain ⟨n', l', hfirst, hsecond⟩ := ih (List.append_assoc _ _ _)
        exact ⟨n', l', .link hl ⟨hname.notUp, hname.notHere, by simp, hname.short⟩ hlink hfirst,
          hsecond⟩
  · rintro ⟨n', l', hfirst, hsecond⟩
    -- a name that more names come after is not the last thing to be made
    have hname {part : Text} {parts : List Text} (h : IsName false part parts) :
        IsName making part (parts ++ second) := by
      refine ⟨h.notUp, h.notHere, ?_, h.short⟩
      rintro ⟨hmade, hlast⟩
      obtain ⟨hne, hnotSlash⟩ := hmaking hmade
      rcases List.append_eq_singleton_iff.1 hlast with ⟨rfl, hs⟩ | ⟨-, hs⟩
      · exact hnotSlash hs
      · exact hne hs
    induction hfirst with
    | done n l => exact hsecond
    | up hl _ ih => exact .up hl (ih hsecond)
    | stay hl hpart _ ih => exact .stay hl hpart (ih hsecond)
    | enter hl hpart hlink _ ih => exact .enter hl (hname hpart) hlink (ih hsecond)
    | link hl hpart hlink _ ih =>
      have hrest := ih hsecond
      rw [List.append_assoc] at hrest
      exact .link hl (hname hpart) hlink hrest

/-- **Growth changes no way**: parts lead to the same place afterwards. -/
lemma grows (h : disk.Leads making n l parts m place) (hgrows : disk.Grows new) :
    new.Leads making n l parts m place := by
  induction h with
  | done n l => exact .done n l
  | up hl _ ih => exact .up (hgrows.directory _ hl) ih
  | stay hl hpart _ ih => exact .stay (hgrows.directory _ hl) hpart ih
  | enter hl hname hlink _ ih =>
    exact .enter (hgrows.directory _ hl) hname (mt hgrows.hasLink_iff.1 hlink) ih
  | link hl hname hlink _ ih =>
    exact .link (hgrows.directory _ hl) hname ((hgrows.link _ _).2 hlink) ih

/-- **Valid names that stand for no links** lead where they say. -/
lemma names (h : disk.Leads making n l parts m place)
    (hlinks : ∀ front, front <+: parts → front ≠ [] → ¬ disk.HasLink (front.reverse ++ l))
    (hparts : ∀ part ∈ parts, validName part) :
    m = n ∧ place = parts.reverse ++ l := by
  induction h with
  | done n l => exact ⟨rfl, rfl⟩
  | up _ _ _ => exact absurd rfl (isProper_of_validName (hparts dotDot (by simp))).1
  | stay _ hpart _ _ => exact absurd hpart (isProper_of_validName (hparts _ (by simp))).2
  | @enter n m l place part parts _ _ _ _ ih =>
    rw [entryName_of_validName (hparts part (by simp))] at ih
    have hbelow : ∀ front, front <+: parts → front ≠ [] →
        ¬ disk.HasLink (front.reverse ++ part :: l) := by
      intro front hfront _
      simpa using hlinks (part :: front) ((List.prefix_cons_inj part).2 hfront) (by simp)
    obtain ⟨rfl, rfl⟩ := ih hbelow fun other hother => hparts other (by simp [hother])
    exact ⟨rfl, by simp⟩
  | @link n m l place part target parts _ _ hlink _ _ =>
    rw [entryName_of_validName (hparts part (by simp))] at hlink
    exact absurd ⟨target, hlink⟩ (hlinks [part] (by simp) (by simp))

/-- **A way to a directory** does not need what is neither a directory nor a link. -/
lemma remove {name : Text} {parent : Location} (h : disk.Leads making n l parts m place)
    (hplace : disk.HasDirectory place) (hdirectory : ¬ disk.HasDirectory (name :: parent))
    (hlink : ¬ disk.HasLink (name :: parent)) :
    (disk.remove (name :: parent)).Leads making n l parts m place := by
  induction h with
  | done n l => exact .done n l
  | up hl _ ih => exact .up (hl.remove hdirectory) (ih hplace)
  | stay hl hpart _ ih => exact .stay (hl.remove hdirectory) hpart (ih hplace)
  | enter hl hname hnone _ ih =>
    refine .enter (hl.remove hdirectory) hname ?_ (ih hplace)
    rintro ⟨target, htarget⟩
    exact hnone ⟨target, ((face?_remove_eq_link_iff target).1 htarget).2⟩
  | link hl hname htarget _ ih =>
    refine .link (hl.remove hdirectory) hname ?_ (ih hplace)
    exact face?_remove_eq_link htarget hdirectory fun heq => hlink ⟨_, heq ▸ htarget⟩

/-- A name on the way to a directory stands for something. -/
lemma node?_ne_none {part : Text} (h : disk.Leads making n l (part :: parts) m place)
    (hplace : disk.HasDirectory place) (hpart : IsProper part) :
    disk.node? (entryName part :: l) ≠ none := by
  cases h with
  | up _ _ => exact absurd rfl hpart.1
  | stay _ hhere _ => exact absurd hhere hpart.2
  | enter _ _ _ hrest =>
    have hdirectory : disk.HasDirectory (entryName part :: l) := by
      cases parts with
      | nil =>
        cases hrest with
        | done _ _ => exact hplace
      | cons next parts => exact hrest.hasDirectory
    obtain ⟨entries, hentries⟩ := hasDirectory_iff.1 hdirectory
    simp [hentries]
  | link _ _ hlink _ => simp [face?_eq_link.1 hlink]

end Leads

/-! ## Paths -/

/-- Where a path starts. -/
def origin (disk : Disk) (p : Path) : Location :=
  match p.anchor with
  | .here => disk.here
  | _ => []

lemma start_eq_trail (disk : Disk) (p : Path) : disk.start p = disk.trail (disk.origin p) := by
  rw [start, origin]
  cases p.anchor <;> rfl

lemma origin_congr (hhere : new.here = disk.here) (p : Path) : new.origin p = disk.origin p := by
  rw [origin, origin, hhere]

lemma Grows.origin (h : disk.Grows new) (p : Path) : new.origin p = disk.origin p :=
  origin_congr h.here p

lemma follow_eq_ok_iff {p : Path} {trail : Trail} :
    disk.follow making p parts = .ok trail ↔
      p.fault? = none ∧ ∃ m place, disk.Leads making linkLimit (disk.origin p) parts m place ∧
        trail = disk.trail place := by
  rw [follow, start_eq_trail]
  cases hfault : p.fault? with
  | some fault => simp
  | none =>
    simp only [true_and]
    rw [← walk_eq_ok_iff]
    cases Storage.walk disk.root making linkLimit (disk.trail (disk.origin p)) parts <;>
      simp [Except.mapError]

/-- What is found at the end of a path's parts. -/
lemma location_follow_eq_ok_iff {p : Path} :
    (disk.follow making p p.parts).map Trail.location = .ok place ↔
      p.fault? = none ∧ ∃ m, disk.Leads making linkLimit (disk.origin p) p.parts m place := by
  rw [except_map_eq_ok]
  constructor
  · rintro ⟨trail, hfollow, hplace⟩
    obtain ⟨hfault, m, found, hleads, rfl⟩ := follow_eq_ok_iff.1 hfollow
    rw [location_trail] at hplace
    exact ⟨hfault, m, hplace ▸ hleads⟩
  · rintro ⟨hfault, m, hleads⟩
    exact ⟨_, follow_eq_ok_iff.2 ⟨hfault, m, place, hleads, rfl⟩, disk.location_trail place⟩

lemma locate_eq_ok_iff {p : Path} : disk.locate p = .ok place ↔
    p.fault? = none ∧ ∃ m, disk.Leads false linkLimit (disk.origin p) p.parts m place :=
  location_follow_eq_ok_iff

lemma locateNew_eq_ok_iff {p : Path} : disk.locateNew p = .ok place ↔
    p.fault? = none ∧ ∃ m, disk.Leads true linkLimit (disk.origin p) p.parts m place :=
  location_follow_eq_ok_iff

/-- After a disk has grown, a path leads to the same place. -/
lemma locate_grows {p : Path} (h : disk.locate p = .ok place) (hgrows : disk.Grows new) :
    new.locate p = .ok place := by
  obtain ⟨hfault, m, hleads⟩ := locate_eq_ok_iff.1 h
  exact locate_eq_ok_iff.2 ⟨hfault, m, hgrows.origin p ▸ hleads.grows hgrows⟩

/-- **A path bypasses a location** if no link there is needed to follow it: without the link, it
leads to the same place. -/
def Bypasses (disk : Disk) (p : Path) (location : Location) : Prop :=
  disk.HasLink location → (disk.remove location).locate p = disk.locate p

lemma LinklessAt.bypasses {p : Path} {name : Text} {names : List Text}
    (h : disk.LinklessAt place names) (hname : name ∈ names) : disk.Bypasses p (name :: place) :=
  fun hlink => absurd hlink (h name hname _ (List.suffix_refl _))

/-- A path to a directory that bypasses a file leads there without it. -/
lemma Bypasses.locate_remove {p : Path} {name : Text} {parent : Location}
    (h : disk.Bypasses p (name :: parent)) (hp : disk.locate p = .ok place)
    (hplace : disk.HasDirectory place) (hdirectory : ¬ disk.HasDirectory (name :: parent)) :
    (disk.remove (name :: parent)).locate p = .ok place := by
  by_cases hlink : disk.HasLink (name :: parent)
  · rw [h hlink, hp]
  · obtain ⟨hfault, m, hleads⟩ := locate_eq_ok_iff.1 hp
    have horigin : (disk.remove (name :: parent)).origin p = disk.origin p := by
      rw [origin, origin, remove_here]
    exact locate_eq_ok_iff.2 ⟨hfault, m, horigin ▸ hleads.remove hplace hdirectory hlink⟩

lemma find_eq_ok_iff {p : Path} {node : Node} : disk.find p = .ok node ↔
    ∃ place, disk.locate p = .ok place ∧ disk.node? place = some node := by
  rw [find, locate]
  cases hfollow : disk.follow false p p.parts with
  | error fault => simp [Except.map]
  | ok trail =>
    obtain ⟨-, m, place, -, rfl⟩ := follow_eq_ok_iff.1 hfollow
    simp only [node?_trail, Except.map, location_trail, Except.ok.injEq, exists_eq_left']
    cases disk.node? place <;> simp

lemma isDirectory_eq_true_iff {p : Path} : disk.isDirectory p = .ok true ↔
    ∃ place, disk.locate p = .ok place ∧ disk.HasDirectory place := by
  have hfind : disk.isDirectory p = .ok true ↔
      ∃ entries, disk.find p = .ok (.directory entries) := by
    rw [isDirectory, leadsTo]
    cases disk.find p with
    | error fault =>
      by_cases habsent : fault.meansAbsent <;> simp [habsent]
    | ok node => cases node <;> simp [Node.isDirectory]
  simp only [hfind, find_eq_ok_iff, hasDirectory_iff]
  exact ⟨fun ⟨entries, place, h⟩ => ⟨place, h.1, entries, h.2⟩,
    fun ⟨place, h, entries, h'⟩ => ⟨entries, place, h, h'⟩⟩

/-- The last part of a path names an entry of a directory. -/
structure EntryAt (disk : Disk) (p : Path) (name : Text) (parent : Location) : Prop where
  /-- The path can be followed. -/
  fault : p.fault? = none
  /-- The name is the last part. -/
  parts : p.parts = p.parts.dropLast ++ [name]
  /-- The name is no step up. -/
  notUp : name ≠ dotDot
  /-- The name is not too long. -/
  short : ¬ nameLimit < byteLength name
  /-- There is a directory. -/
  directory : disk.HasDirectory parent
  /-- The parts before the last one lead to the directory. -/
  leads : ∃ m, disk.Leads false linkLimit (disk.origin p) p.parts.dropLast m parent

/-- The place of an entry lies in the directory that the parts before the last one lead to. -/
lemma entryPlace_eq_some {p : Path} (h : disk.entryPlace p = .ok (some place)) :
    ∃ name parent, place = entryName name :: parent ∧ disk.EntryAt p name parent := by
  rw [entryPlace] at h
  split at h
  · split at h <;> simp at h
  · next name hlast =>
    split at h
    · simp at h
    · next trail hfollow =>
      obtain ⟨hfault, m, parent, hleads, rfl⟩ := follow_eq_ok_iff.1 hfollow
      rw [node?_trail, location_trail] at h
      split at h
      · simp at h
      · next entries hentries =>
        split_ifs at h with hup hlong
        · simp at h
        exact ⟨name, parent, (Option.some.inj (Except.ok.inj h)).symm, hfault,
          (List.dropLast_append_getLast? name hlast).symm, hup, hlong,
          hasDirectory_iff.2 ⟨entries, hentries⟩, m, hleads⟩
      · simp at h

end Disk

end Storage

end OnePage
