import OnePage.Proofs.Storage.Refusal
import OnePage.Proofs.Text.Numeral

/-!
# Operations that proceed

Copying takes many steps, each in a directory that the step before has made.  As long as the disk
does not refuse anything, those directories stay where they are, so nothing but a refusal can end
it.

* `Proceeds` — an operation lets a disk grow, or is refused; `proceeds_bind` puts operations
  together.
* `Disk.Offers` — a path leads to a directory in which more can be made.
* **`proceeds_copyTree`** — copying a tree proceeds once its target has been made.
* `Written.isDirectory_or_refuses` — a file that has been written in one step is beside a directory
  still, unless it has taken the place of a link on the way to itself; then nothing more is made
  there.
* **`writeAtomically_error`** — a write in one step is refused, or its text holds a surrogate.
-/

namespace OnePage

namespace Storage

variable {α β : Type} {disk old new after : Disk} {p source target : Path} {fault : Fault}
  {chain : Nat}

/-! ## Proceeding -/

/-- **Proceeding.**  An operation succeeds, and then the disk has grown and a condition holds of the
result and the disk; or the disk refuses something. -/
def Proceeds (operation : Operation α) (disk : Disk) (post : α → Disk → Prop) : Prop :=
  match operation disk with
  | .ok a after => disk.Grows after ∧ post a after
  | .error fault _ => fault.IsRefusal

section Rules

variable {operation : Operation α} {post : α → Disk → Prop}

lemma Proceeds.isRefusal (h : Proceeds operation disk post)
    (herror : operation disk = .error fault after) : fault.IsRefusal := by
  rw [Proceeds, herror] at h
  exact h

lemma Proceeds.of_ok (h : Proceeds operation disk post) {a : α}
    (hok : operation disk = .ok a after) : disk.Grows after ∧ post a after := by
  rw [Proceeds, hok] at h
  exact h

lemma proceeds_pure {a : α} (h : post a disk) : Proceeds (pure a) disk post :=
  ⟨.refl disk, h⟩

lemma proceeds_query {look : Disk → Except Fault α}
    (h : ∀ fault, look disk = .error fault → fault.IsRefusal) :
    Proceeds (query look) disk fun a after => look disk = .ok a ∧ after = disk := by
  rw [Proceeds, query]
  cases hlook : look disk with
  | ok a => exact ⟨.refl disk, rfl, rfl⟩
  | error fault => exact h fault hlook

lemma proceeds_bind {next : α → Operation β} {post' : β → Disk → Prop}
    (h : Proceeds operation disk post)
    (hnext : ∀ a after, disk.Grows after → post a after → Proceeds (next a) after post') :
    Proceeds (operation >>= next) disk post' := by
  simp only [Proceeds, bind, EStateM.bind]
  cases hresult : operation disk with
  | error fault after => exact h.isRefusal hresult
  | ok a after =>
    obtain ⟨hgrows, hpost⟩ := h.of_ok hresult
    have hrest := hnext a after hgrows hpost
    rw [Proceeds] at hrest
    dsimp only
    split at hrest
    · exact ⟨hgrows.trans hrest.1, hrest.2⟩
    · exact hrest

/-- An operation that lets the disk grow proceeds if it is refused when it fails. -/
lemma proceeds_of_ensures {disk : Disk}
    (hgrows : Ensures (fun after => disk.Grows after) operation fun _ => True)
    (hpost : ∀ a after, operation disk = .ok a after → post a after)
    (hrefused : ∀ fault after, operation disk = .error fault after → fault.IsRefusal) :
    Proceeds operation disk post := by
  have hresult := hgrows disk (.refl disk)
  rw [Proceeds]
  cases h : operation disk with
  | ok a after =>
    rw [h] at hresult
    exact ⟨hresult.1, hpost a after h⟩
  | error fault after => exact hrefused fault after h

end Rules

/-! ## Directories that are there -/

namespace Disk

/-- A clean path leads to a directory. -/
structure Offers (disk : Disk) (p : Path) : Prop where
  /-- No part of the path holds a slash. -/
  clean : p.IsClean
  /-- There is a directory. -/
  directory : disk.isDirectory p = .ok true

lemma isDirectory_grows (h : old.isDirectory p = .ok true) (hgrows : old.Grows new) :
    new.isDirectory p = .ok true := by
  obtain ⟨place, hplace, hdirectory⟩ := isDirectory_eq_true_iff.1 h
  exact isDirectory_eq_true_iff.2
    ⟨place, locate_grows hplace hgrows, hgrows.directory place hdirectory⟩

namespace Offers

lemma grows (h : old.Offers p) (hgrows : old.Grows new) : new.Offers p :=
  ⟨h.clean, isDirectory_grows h.directory hgrows⟩

lemma isPlain (h : disk.Offers p) : p.IsPlain := isPlain_of_isDirectory h.directory

end Offers

end Disk

lemma Path.IsClean.child {name : Text} (hp : p.IsClean) (hname : validName name) :
    (p.child name).IsClean := by
  intro part hpart
  rcases List.mem_append.1 hpart with hpart | hpart
  · exact hp part hpart
  · obtain rfl := List.mem_singleton.1 hpart
    exact slash_notMem_of_validName hname

/-- A directory in one that is there is made. -/
lemma Disk.Offers.proceeds_child {name : Text} (h : disk.Offers p) (hname : validName name) :
    Proceeds (ensureDirectory chain (p.child name)) disk
      fun _ after => after.Offers (p.child name) := by
  refine proceeds_of_ensures ensures_ensureDirectory_grows (fun _ after hmade => ?_)
    fun fault after hmade => ?_
  · exact ⟨h.clean.child hname, isDirectory_of_ensureDirectory (h.clean.child hname) hmade⟩
  · rw [ensureDirectory_child h.directory hname] at hmade
    exact isRefusal_of_makeUnlessThere (h.isPlain.child hname) hmade

/-! ## Copying trees -/

lemma proceeds_copyFile {name : Text} (hsource : source.IsPlain) (htarget : disk.Offers target)
    (hname : validName name) : Proceeds (copyFile source (target.child name)) disk
      fun _ _ => True :=
  proceeds_of_ensures (ensures_copyFile fun _ => ensures_write_grows (by simp [Path.child]))
    (fun _ _ _ => trivial)
    fun _ _ h => isRefusal_of_copyFile hsource (htarget.isPlain.child hname) h

lemma proceeds_copyEntries {names : List Text} (hsource : source.IsPlain)
    (htarget : disk.Offers target) (hnames : ∀ name ∈ names, validName name) :
    Proceeds (copyEntries chain source target names) disk fun result after =>
      ∀ pair ∈ result.2, pair.1.IsPlain ∧ after.Offers pair.2 := by
  induction names generalizing disk with
  | nil => exact proceeds_pure (by simp)
  | cons name names ih =>
    have hname := hnames name (by simp)
    have hrest {disk : Disk} (htarget : disk.Offers target) :=
      ih htarget fun other hother => hnames other (by simp [hother])
    rw [copyEntries]
    refine proceeds_bind (proceeds_query fun fault => Disk.isRefusal_of_leadsTo) ?_
    rintro is _ - ⟨-, rfl⟩
    cases is with
    | true =>
      refine proceeds_bind (htarget.proceeds_child hname) fun _ made hgrows hmade => ?_
      refine proceeds_bind (hrest (htarget.grows hgrows)) fun result after hmore hresult => ?_
      refine proceeds_pure fun pair hpair => ?_
      rcases List.mem_cons.1 hpair with rfl | hpair
      · exact ⟨hsource.child hname, hmade.grows hmore⟩
      · exact hresult pair hpair
    | false =>
      refine proceeds_bind (proceeds_copyFile (hsource.child hname) htarget hname)
        fun _ copied hgrows _ => ?_
      refine proceeds_bind (hrest (htarget.grows hgrows)) fun result after _ hresult => ?_
      exact proceeds_pure hresult

lemma proceeds_copyPairs {deeper : List (Path × Path) → Operation Nat}
    (hdeeper : ∀ disk pairs, (∀ pair ∈ pairs, pair.1.IsPlain ∧ disk.Offers pair.2) →
      Proceeds (deeper pairs) disk fun _ _ => True)
    {pairs : List (Path × Path)}
    (hpairs : ∀ pair ∈ pairs, pair.1.IsPlain ∧ disk.Offers pair.2) :
    Proceeds (copyPairs chain deeper pairs) disk fun _ _ => True := by
  induction pairs generalizing disk with
  | nil => exact proceeds_pure trivial
  | cons pair pairs ih =>
    obtain ⟨source, target⟩ := pair
    obtain ⟨hsource, htarget⟩ := hpairs (source, target) (by simp)
    rw [copyPairs]
    refine proceeds_bind (proceeds_query fun fault => Disk.isRefusal_of_list hsource) ?_
    rintro names _ - ⟨hlist, rfl⟩
    refine proceeds_bind (proceeds_copyEntries hsource htarget fun name =>
      Disk.validName_of_list _ hlist) fun result copied hcopied hresult => ?_
    refine proceeds_bind (hdeeper copied _ fun pair hpair => hresult pair (by simpa using hpair))
      fun _ below hbelow _ => ?_
    -- the directories that are still to be copied have stayed
    refine proceeds_bind (ih fun pair hpair => ?_) fun _ _ _ _ => proceeds_pure trivial
    obtain ⟨hplain, hoffers⟩ := hpairs pair (by simp [hpair])
    exact ⟨hplain, hoffers.grows (hcopied.trans hbelow)⟩

lemma proceeds_copyLevels {room : Nat} {pairs : List (Path × Path)}
    (hpairs : ∀ pair ∈ pairs, pair.1.IsPlain ∧ disk.Offers pair.2) :
    Proceeds (copyLevels chain room pairs) disk fun _ _ => True := by
  induction room generalizing disk pairs with
  | zero =>
    refine proceeds_copyPairs (fun disk pairs _ => ?_) hpairs
    cases pairs with
    | nil => exact proceeds_pure trivial
    | cons pair pairs => exact trivial
  | succ room ih => exact proceeds_copyPairs (fun _ _ => ih) hpairs

/-- **Copying a tree proceeds** to a name in a directory that is there. -/
lemma proceeds_copyTree {name : Text} (htarget : disk.Offers target) (hname : validName name) :
    Proceeds (copyTree chain source (target.child name)) disk fun _ _ => True := by
  rw [copyTree]
  refine proceeds_bind (proceeds_query fun fault => Disk.isRefusal_of_leadsTo) ?_
  rintro is _ - ⟨his, rfl⟩
  cases is with
  | true =>
    refine proceeds_bind (htarget.proceeds_child hname) fun _ made _ hmade => ?_
    refine proceeds_copyLevels ?_
    simpa using ⟨Disk.isPlain_of_isDirectory his, hmade⟩
  | false => exact proceeds_pure trivial

/-- Nothing is copied where no directory can be made. -/
lemma proceeds_copyTree_of_error (h : ensureDirectory chain target disk = .error fault disk)
    (hrefused : fault.IsRefusal) :
    Proceeds (copyTree chain source target) disk fun _ after => after = disk := by
  rw [copyTree]
  refine proceeds_bind (proceeds_query fun fault => Disk.isRefusal_of_leadsTo) ?_
  rintro is _ - ⟨-, rfl⟩
  cases is with
  | true =>
    simp only [Proceeds, if_true, bind, EStateM.bind, h]
    exact hrefused
  | false => exact proceeds_pure rfl

/-! ## A file in the place of a link -/

namespace Disk

/-- What a directory lies in is a directory. -/
lemma isDirectory_of_child {name : Text} (h : disk.isDirectory (p.child name) = .ok true) :
    disk.isDirectory p = .ok true := by
  obtain ⟨place, hplace, -⟩ := isDirectory_eq_true_iff.1 h
  obtain ⟨hfault, m, hleads⟩ := locate_eq_ok_iff.1 hplace
  obtain ⟨n, l, hfirst, hsecond⟩ := (Leads.append (by simp)).1 hleads
  have hbefore : p.fault? = none := Path.fault?_of_prefix (List.prefix_append _ _) hfault
  exact isDirectory_eq_true_iff.2
    ⟨l, locate_eq_ok_iff.2 ⟨hbefore, n, hfirst⟩, hsecond.hasDirectory⟩

variable {n m : Nat} {l place parent : Location} {parts : List Text} {name : Text}
  {content : Bytes} {stamp : Stamp} (hfree : ¬ disk.HasDirectory (name :: parent))
  (hgrows : (disk.remove (name :: parent)).Grows new)
  (hfile : new.face? (name :: parent) = some (.file content stamp))

include hfree hgrows hfile

/-- **A way to a directory after a file has taken the place of a link** still leads there, or it now
ends at the file, or the file is in the way. -/
lemma Leads.replace (h : disk.Leads false n l parts m place) :
    Storage.walk new.root false n (new.trail l) parts = .ok (new.trail place) ∨
      Storage.walk new.root false n (new.trail l) parts = .ok (new.trail (name :: parent)) ∨
        Storage.walk new.root false n (new.trail l) parts = .error .notDirectory := by
  have hdirectory {l : Location} (hl : disk.HasDirectory l) : new.HasDirectory l :=
    hgrows.directory l (hl.remove hfree)
  induction h with
  | done n l => exact .inl (walk_nil _ _ n _)
  | up hl _ ih => simpa only [walk_up (hdirectory hl)] using ih
  | stay hl hpart _ ih => simpa only [walk_stay (hdirectory hl) hpart] using ih
  | @enter n m l place part parts hl hname hlink _ ih =>
    have hnone : ¬ new.HasLink (entryName part :: l) := by
      rintro ⟨target, htarget⟩
      exact hlink ⟨target, ((face?_remove_eq_link_iff target).1
        ((hgrows.link _ _).1 htarget)).2⟩
    simpa only [walk_enter (hdirectory hl) hname hnone] using ih
  | @link n m l place part target parts hl hname hlink _ ih =>
    by_cases hspot : entryName part :: l = name :: parent
    · have hnone : ¬ new.HasLink (entryName part :: l) := by
        rintro ⟨target, htarget⟩
        simp [hspot, hfile] at htarget
      rw [walk_enter (hdirectory hl) hname hnone, hspot]
      cases parts with
      | nil => exact .inr (.inl (walk_nil _ _ _ _))
      | cons next parts =>
        refine .inr (.inr ?_)
        rw [walk_cons, node?_trail, face?_eq_file.1 hfile]
    · have hstill : new.face? (entryName part :: l) = some (.link target) :=
        (hgrows.link _ _).2 (face?_remove_eq_link hlink hfree hspot)
      simpa only [walk_link (hdirectory hl) hname hstill] using ih

/-- Behind a file that has taken the place of a link on the way, nothing can be made. -/
lemma isDirectory_or_refuses (hp : disk.isDirectory p = .ok true) :
    new.isDirectory p = .ok true ∨ ∀ child, validName child →
      ∃ fault, ensureDirectory chain (p.child child) new = .error fault new ∧ fault.IsRefusal := by
  obtain ⟨place, hplace, hdirectory⟩ := isDirectory_eq_true_iff.1 hp
  obtain ⟨hfault, m, hleads⟩ := locate_eq_ok_iff.1 hplace
  have horigin : new.origin p = disk.origin p := by
    rw [hgrows.origin, origin, origin, remove_here]
  by_cases hstill : new.isDirectory p = .ok true
  · exact .inl hstill
  refine .inr fun child hchild => ?_
  have hend := (hleads.replace hfree hgrows hfile).resolve_left fun hwalk => by
    obtain ⟨m', place', hleads', htrail⟩ := leads_of_walk hwalk
    obtain rfl : place = place' := by
      rw [← new.location_trail place, htrail, new.location_trail]
    exact hstill (isDirectory_eq_true_iff.2 ⟨place,
      locate_eq_ok_iff.2 ⟨hfault, m', horigin ▸ hleads'⟩,
      hgrows.directory place (hdirectory.remove hfree)⟩)
  have hplain := (isPlain_of_isDirectory hp).child hchild
  have hentry : ∃ errno, errno ≠ .noEntry ∧
      new.entryPlace (p.child child) = .error (.system errno (p.child child) none) := by
    have hlast : (p.child child).parts.getLast? = some child := by simp [Path.child]
    have hfront : (p.child child).parts.dropLast = p.parts := by simp [Path.child]
    have hstart : new.start (p.child child) = new.trail (disk.origin p) := by
      rw [start_eq_trail, ← horigin]
      rfl
    simp only [entryPlace, hlast, hfront, follow, hstart]
    rcases Path.isPlain_iff.1 hplain with hnone | hlong
    · refine ⟨.notDirectory, by decide, ?_⟩
      rcases hend with hwalk | hwalk
      · simp [hnone, hwalk, Except.mapError, node?_trail, face?_eq_file.1 hfile]
      · simp [hnone, hwalk, Except.mapError]
    · exact ⟨.nameTooLong, by decide, by simp [hlong]⟩
  obtain ⟨errno, herrno, hentry⟩ := hentry
  exact ensureDirectory_of_entryPlace_error hentry herrno fun hthere =>
    hstill (isDirectory_of_child hthere)

end Disk

/-! ## Writing in one step -/

/-- Copying beside a file that has been written in one step goes on in its directory, unless the
file is in the way there. -/
lemma Written.isDirectory_or_refuses (chain : Nat) {place : Location} {text : Text}
    (h : Written p place text disk after) (hplace : disk.locate p.parent = .ok place)
    (hdirectory : disk.HasDirectory place) (hvalid : validName (entryName p.name)) :
    after.isDirectory p.parent = .ok true ∨ ∀ child, validName child →
      ∃ fault, ensureDirectory chain (p.parent.child child) after = .error fault after ∧
        fault.IsRefusal := by
  obtain ⟨content, stamp, -, hfile⟩ := h.face? hdirectory hvalid
  exact Disk.isDirectory_or_refuses h.free (h.grows_remove hdirectory hvalid) hfile
    (Disk.isDirectory_eq_true_iff.2 ⟨place, hplace, hdirectory⟩)

/-! ### The temporary file -/

/-- What lies on a disk has valid names. -/
lemma Disk.validName_of_mem_location {l : Location} (h : disk.node? l ≠ none) {name : Text}
    (hname : name ∈ l) : validName name := by
  induction l with
  | nil => simp at hname
  | cons first parent ih =>
    have hparent := hasDirectory_of_node?_cons h
    obtain ⟨entries, hentries⟩ := hasDirectory_iff.1 hparent
    rcases List.mem_cons.1 hname with rfl | hname
    · rw [node?, hentries, Option.bind_some, Node.child?, Entries.find?] at h
      obtain ⟨e, he⟩ := Option.ne_none_iff_exists'.1 (mt Option.map_eq_none_iff.2 h)
      have hmem := List.mem_of_find?_eq_some he
      obtain rfl : e.name = name := by simpa using List.find?_some he
      exact (Node.sound_directory.1 (disk.sound_node? hentries)).valid e hmem
    · exact ih (by simp [hentries]) hname

/-- A part that stands for something is not too long. -/
lemma Disk.byteLength_le_of_node? {l : Location} {part : Text}
    (h : disk.node? (entryName part :: l) ≠ none) : byteLength part ≤ nameLimit := by
  have hvalid := disk.validName_of_mem_location h List.mem_cons_self
  simpa using byteLength_le_of_validName hvalid

lemma Path.mem_collapse {names parts : List Text} {part : Text}
    (h : part ∈ collapse names parts) : part ∈ names ∨ part ∈ parts := by
  induction parts generalizing names with
  | nil => exact .inl h
  | cons next parts ih =>
    rcases ih h with hmem | hmem
    · dsimp only at hmem
      split at hmem
      · exact .inl (List.mem_of_mem_tail hmem)
      · rcases List.mem_cons.1 hmem with rfl | hmem
        · exact .inr (by simp)
        · exact .inl hmem
    · exact .inr (by simp [hmem])

/-- A directory that a path leads to from the working directory needs one. -/
lemma Disk.hasDirectory_here {place : Location} (hplace : disk.locate p = .ok place)
    (hdirectory : disk.HasDirectory place) (hanchor : p.anchor = .here) :
    disk.HasDirectory disk.here := by
  obtain ⟨-, m, hleads⟩ := locate_eq_ok_iff.1 hplace
  have horigin : disk.origin p = disk.here := by rw [origin, hanchor]
  rw [horigin] at hleads
  cases hparts : p.parts with
  | nil =>
    rw [hparts] at hleads
    cases hleads with
    | done _ _ => exact hdirectory
  | cons first parts => exact (hparts ▸ hleads).hasDirectory

/-- The path to a directory stays plain when steps up are taken away. -/
lemma Disk.isPlain_absolute (h : disk.isDirectory p = .ok true) :
    (p.absolute disk.here).IsPlain := by
  have hplain := isPlain_of_isDirectory h
  have hhere : p.anchor = .here → ∀ part ∈ disk.here, part.IsPlain := by
    intro hanchor part hpart
    obtain ⟨place, hplace, hdirectory⟩ := isDirectory_eq_true_iff.1 h
    have hstart := hasDirectory_here hplace hdirectory hanchor
    exact isPlain_of_validName (disk.validName_of_mem_location hstart.node?_ne_none hpart)
  intro part hpart
  rw [Path.absolute] at hpart
  split at hpart
  · next hanchor =>
    rcases Path.mem_collapse (List.mem_reverse.1 hpart) with hmem | hmem
    · exact hhere hanchor part hmem
    · exact hplain part hmem
  · rcases Path.mem_collapse (List.mem_reverse.1 hpart) with hmem | hmem
    · simp at hmem
    · exact hplain part hmem

/-- A temporary file has a plain name beside one that has. -/
lemma isPlain_temporaryName {taken : List Text} {name : Text} (hname : name.IsPlain) :
    (temporaryName taken name).IsPlain := by
  have hfilling (n : Nat) : (filling n).IsPlain := by
    cases n with
    | zero => decide
    | succ n =>
      refine Text.IsPlain.append (fun c hc => ?_) fun c hc => ?_
      · rw [List.eq_of_mem_replicate hc]
        decide
      · have hdigit := Numeral.isDigit_of_mem_ofNat hc
        simp only [CodePoint.isDigit, Bool.and_eq_true, decide_eq_true_eq] at hdigit
        refine ⟨?_, ?_⟩
        · rintro rfl
          exact absurd hdigit.1 (by decide)
        · exact .inl (CodePoint.isSurrogate_eq_false_of_lt (by omega))
  have hwith (n : Nat) : (temporaryNameWith name (filling n)).IsPlain := by
    have hdot : Text.IsPlain "." := by decide
    have hend : Text.IsPlain ".tmp" := by decide
    exact (((hdot.append hname).append hdot).append (hfilling n)).append hend
  rw [temporaryName]
  cases hfound : ((List.range (taken.length + 1)).map fun n =>
      temporaryNameWith name (filling n)).find? fun candidate => entryName candidate ∉ taken with
  | none => exact hwith 0
  | some candidate =>
    obtain ⟨n, -, rfl⟩ := List.mem_map.1 (List.mem_of_find?_eq_some hfound)
    exact hwith n

lemma isRefusal_of_createNew (hp : p.IsPlain) (h : createNew p disk = .error fault after) :
    fault.IsRefusal := by
  rw [createNew] at h
  split at h
  · next other hentry =>
    obtain ⟨rfl, -⟩ := EStateM.Result.error.inj h
    exact disk.isRefusal_of_entryPlace hp hentry
  · obtain ⟨rfl, -⟩ := EStateM.Result.error.inj h
    trivial
  · split at h
    · obtain ⟨rfl, -⟩ := EStateM.Result.error.inj h
      trivial
    · simp at h

lemma isRefusal_of_moveOnto {location : Location} (htarget : target.IsPlain)
    (h : moveOnto location source target disk = .error fault after) : fault.IsRefusal := by
  rw [moveOnto] at h
  split at h
  · next other hentry =>
    obtain ⟨rfl, -⟩ := EStateM.Result.error.inj h
    have hrefused := disk.isRefusal_of_entryPlace htarget hentry
    cases other <;> exact hrefused
  · obtain ⟨rfl, -⟩ := EStateM.Result.error.inj h
    trivial
  · split at h
    · obtain ⟨rfl, -⟩ := EStateM.Result.error.inj h
      trivial
    · simp at h
    · obtain ⟨rfl, -⟩ := EStateM.Result.error.inj h
      trivial

section Failing

variable {text : Text} (hparent : disk.isDirectory p.parent = .ok true)

include hparent

/-- **Why a write in one step fails** in a directory that is there: the disk refuses it, or the
temporary file has been made and the text cannot be written. -/
lemma writeAtomically_error (hp : p.IsPlain) (hname : p.name.IsPlain)
    (h : writeAtomically chain p text disk = .error fault after) :
    fault.IsRefusal ∨ ∃ location made surrogates,
      createNew (temporaryPath disk p) disk = .ok location made ∧
      Utf8.firstSurrogates? 0 text = some surrogates ∧ fault = .unencodable surrogates := by
  have htemporary : (temporaryPath disk p).IsPlain := by
    intro part hpart
    rcases List.mem_append.1 hpart with hpart | hpart
    · exact Disk.isPlain_absolute hparent part hpart
    · exact List.mem_singleton.1 hpart ▸ isPlain_temporaryName hname
  rw [writeAtomically_eq hparent] at h
  cases hcreate : createNew (temporaryPath disk p) disk with
  | error other made =>
    rw [hcreate] at h
    obtain ⟨rfl, -⟩ := EStateM.Result.error.inj h
    exact .inl (isRefusal_of_createNew htemporary hcreate)
  | ok location made =>
    simp only [hcreate, fillAndMove, Utf8.encode] at h
    cases hsurrogates : Utf8.firstSurrogates? 0 text with
    | some surrogates =>
      simp only [hsurrogates] at h
      exact .inr ⟨location, made, surrogates, rfl, rfl, (EStateM.Result.error.inj h).1.symm⟩
    | none =>
      simp only [hsurrogates] at h
      split at h
      · simp at h
      · next hmove =>
        obtain ⟨rfl, -⟩ := EStateM.Result.error.inj h
        exact .inl (isRefusal_of_moveOnto hp hmove)

lemma writeAtomically_of_surrogates {location : Location} {made : Disk}
    {surrogates : Utf8.EncodeFault}
    (hcreate : createNew (temporaryPath disk p) disk = .ok location made)
    (hsurrogates : Utf8.firstSurrogates? 0 text = some surrogates) :
    ∃ after, writeAtomically chain p text disk = .error (.unencodable surrogates) after := by
  rw [writeAtomically_eq hparent, hcreate]
  simp only [fillAndMove, Utf8.encode, hsurrogates]
  exact ⟨_, rfl⟩

end Failing

end Storage

end OnePage
