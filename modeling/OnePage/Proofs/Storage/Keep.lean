import OnePage.Proofs.Storage.Leads
import OnePage.Storage.Copy

/-!
# What operations keep

An operation may fail half way, and whatever it has done by then stays.  What it keeps is therefore
said of the disk that it leaves, whether it succeeds or fails.

* `Ensures` — an operation keeps a condition on the disk, and what it returns satisfies another one.
* `ensures_bind` and the lemmas around it put operations together.
* `leftBy` — the disk that an operation leaves.
* `ensures_makeDirectory` and `ensures_write` — all that the two operations that change a disk can
  do to it.
* `ensures_ensureDirectory` and `ensures_copyTree` — a condition that these two keep is also kept by
  the operations that are made of them.
-/

namespace OnePage

namespace Storage

section Rules

variable {ε σ α β : Type} {keeps : σ → Prop} {post : α → Prop}

/-- **Keeping a condition.**  An operation leaves a state in which a condition holds still, also
when it fails; what it returns satisfies another condition. -/
def Ensures (keeps : σ → Prop) (operation : EStateM ε σ α) (post : α → Prop) : Prop :=
  ∀ state, keeps state → match operation state with
    | .ok a after => keeps after ∧ post a
    | .error _ after => keeps after

/-! ## Putting operations together -/

lemma ensures_pure {a : α} (h : post a) : Ensures keeps (pure a : EStateM ε σ α) post :=
  fun _ hstate => ⟨hstate, h⟩

lemma ensures_bind {operation : EStateM ε σ α} {next : α → EStateM ε σ β} {post' : β → Prop}
    (h : Ensures keeps operation post) (hnext : ∀ a, post a → Ensures keeps (next a) post') :
    Ensures keeps (operation >>= next) post' := by
  intro state hstate
  have hfirst := h state hstate
  simp only [bind, EStateM.bind]
  split at hfirst
  · next a after hresult =>
    rw [hresult]
    exact hnext a hfirst.2 after hfirst.1
  · next fault after hresult =>
    rw [hresult]
    exact hfirst

section Outcome

variable {operation : EStateM ε σ α} {state after : σ} (h : Ensures keeps operation post)
  (hstate : keeps state)

include h hstate

/-- What is so after an operation that has succeeded. -/
lemma Ensures.of_ok {a : α} (hresult : operation state = .ok a after) : keeps after ∧ post a := by
  have hkept := h state hstate
  rw [hresult] at hkept
  exact hkept

/-- What is so after one that has failed. -/
lemma Ensures.of_error {e : ε} (hresult : operation state = .error e after) : keeps after := by
  have hkept := h state hstate
  rw [hresult] at hkept
  exact hkept

end Outcome

end Rules

variable {α β : Type} {keeps : Disk → Prop} {post : α → Prop} {chain : Nat}

/-- The disk that an operation leaves, whether it succeeds or fails. -/
def leftBy : EStateM.Result Fault Disk α → Disk
  | .ok _ after => after
  | .error _ after => after

lemma Ensures.leftBy {operation : Operation α} (h : Ensures keeps operation post) {disk : Disk}
    (hdisk : keeps disk) : keeps (leftBy (operation disk)) := by
  cases hresult : operation disk with
  | ok a after => exact (h.of_ok hdisk hresult).1
  | error fault after => exact h.of_error hdisk hresult

lemma ensures_fail (fault : Fault) : Ensures keeps (fail fault : Operation α) post :=
  fun _ hdisk => hdisk

lemma ensures_query {look : Disk → Except Fault α}
    (h : ∀ disk a, keeps disk → look disk = .ok a → post a) : Ensures keeps (query look) post := by
  intro disk hdisk
  rw [query]
  cases hlook : look disk with
  | ok a => exact ⟨hdisk, h disk a hdisk hlook⟩
  | error fault => exact hdisk

lemma ensures_query_any (look : Disk → Except Fault α) :
    Ensures keeps (query look) fun _ => True :=
  ensures_query fun _ _ _ _ => trivial

/-! ## Making directories -/

/-- What making a directory comes to: nothing, if the path cannot be followed or something is there
already, or an empty directory where there was nothing. -/
lemma makeDirectory_cases (p : Path) (disk : Disk) :
    (∃ fault, makeDirectory p disk = .error fault disk ∧
      (disk.entryPlace p = .error fault ∨ fault = .system .alreadyThere p none)) ∨
      ∃ place, disk.entryPlace p = .ok (some place) ∧ disk.node? place = none ∧
        makeDirectory p disk = .ok () (disk.putDirectory place) := by
  rw [makeDirectory]
  split
  · next fault hfault => exact .inl ⟨fault, rfl, .inl hfault⟩
  · exact .inl ⟨_, rfl, .inr rfl⟩
  · next place hplace =>
    split
    · exact .inl ⟨_, rfl, .inr rfl⟩
    · next hfree => exact .inr ⟨place, hplace, hfree, rfl⟩

lemma ensures_makeDirectory {p : Path} (h : ∀ disk place, keeps disk →
    disk.entryPlace p = .ok (some place) → disk.node? place = none →
      keeps (disk.putDirectory place)) :
    Ensures keeps (makeDirectory p) fun _ => True := by
  intro disk hdisk
  rcases makeDirectory_cases p disk with ⟨_, hresult, -⟩ | ⟨place, hplace, hfree, hresult⟩
  · rw [hresult]
    exact hdisk
  · rw [hresult]
    exact ⟨h disk place hdisk hplace hfree, trivial⟩

/-- Making a directory unless it is there leaves the disk that making it leaves. -/
lemma ensures_makeUnlessThere {p : Path} (h : Ensures keeps (makeDirectory p) fun _ => True) :
    Ensures keeps (makeUnlessThere p) fun _ => True := by
  intro disk hdisk
  have hmade := h disk hdisk
  rw [makeUnlessThere]
  cases hresult : makeDirectory p disk with
  | ok a after =>
    rw [hresult] at hmade
    exact hmade
  | error fault after =>
    rw [hresult] at hmade
    cases fault with
    | system errno q target =>
      cases errno with
      | noEntry => exact hmade
      | _ =>
        dsimp only
        cases hthere : after.isDirectory p with
        | error fault => exact hmade
        | ok is =>
          cases is with
          | true => exact ⟨hmade, trivial⟩
          | false => exact hmade
    | _ => exact hmade

lemma ensures_ensureParts {anchor : Anchor} {room : Nat} {inner : List Text}
    (h : ∀ parts, parts <+: inner.reverse →
      Ensures keeps (makeDirectory ⟨anchor, parts⟩) fun _ => True) :
    Ensures keeps (ensureParts anchor room inner) fun _ => True := by
  induction inner generalizing room with
  | nil =>
    cases room with
    | zero => exact ensures_fail _
    | succ room => exact ensures_makeUnlessThere (h [] List.nil_prefix)
  | cons name outer ih =>
    cases room with
    | zero => exact ensures_fail _
    | succ room =>
      have hfirst := ensures_makeUnlessThere (h (name :: outer).reverse (List.prefix_refl _))
      have houter := @ih room fun parts hparts => h parts (by
        rw [List.reverse_cons]
        exact hparts.trans (List.prefix_append _ _))
      intro disk hdisk
      have hmade := hfirst disk hdisk
      rw [ensureParts]
      dsimp only
      generalize makeUnlessThere ⟨anchor, (name :: outer).reverse⟩ disk = result at hmade ⊢
      cases result with
      | ok a after => exact hmade
      | error fault after =>
        cases fault with
        | system errno q target =>
          cases errno with
          | noEntry =>
            have hmore := houter after hmade
            dsimp only
            generalize ensureParts anchor room outer after = rest at hmore ⊢
            cases rest with
            | ok a after' => exact hfirst after' hmore.1
            | error fault after' => exact hmore
          | _ => exact hmade
        | _ => exact hmade

/-- Making a directory with all that it lies in makes directories on the way to it only. -/
lemma ensures_ensureDirectory {p : Path}
    (h : ∀ parts, parts <+: p.parts →
      Ensures keeps (makeDirectory ⟨p.anchor, parts⟩) fun _ => True) :
    Ensures keeps (ensureDirectory chain p) fun _ => True :=
  ensures_ensureParts (by rwa [List.reverse_reverse])

/-! ## Writing and copying -/

/-- What writing comes to: nothing, or a file where there is no directory. -/
lemma write_cases (p : Path) (content : Bytes) (disk : Disk) :
    (∃ fault, write p content disk = .error fault disk) ∨
      ∃ place, disk.locateNew p = .ok place ∧ ¬ disk.HasDirectory place ∧
        write p content disk = .ok () (disk.putFile place content disk.nextStamp) := by
  rw [write]
  split
  · next fault _ => exact .inl ⟨fault, rfl⟩
  · next place hplace =>
    split
    · exact .inl ⟨_, rfl⟩
    · next hnot =>
      refine .inr ⟨place, hplace, fun hdirectory => ?_, rfl⟩
      obtain ⟨entries, hentries⟩ := Disk.hasDirectory_iff.1 hdirectory
      exact hnot entries hentries

lemma ensures_write {p : Path} {content : Bytes} (h : ∀ disk place, keeps disk →
    disk.locateNew p = .ok place → ¬ disk.HasDirectory place →
      keeps (disk.putFile place content disk.nextStamp)) :
    Ensures keeps (write p content) fun _ => True := by
  intro disk hdisk
  rcases write_cases p content disk with ⟨fault, hresult⟩ | ⟨place, hplace, hnot, hresult⟩
  · rw [hresult]
    exact hdisk
  · rw [hresult]
    exact ⟨h disk place hdisk hplace hnot, trivial⟩

/-- What copying a file comes to: nothing, or writing something onto the target. -/
lemma copyFile_cases (source target : Path) (disk : Disk) :
    (∃ fault, copyFile source target disk = .error fault disk) ∨
      ∃ content, copyFile source target disk = writeOnto target content disk := by
  rw [copyFile]
  split
  · exact .inl ⟨_, rfl⟩
  · exact .inl ⟨_, rfl⟩
  · dsimp only
    split_ifs
    · exact .inl ⟨_, rfl⟩
    · cases disk.read source with
      | error fault => exact .inl ⟨fault, rfl⟩
      | ok content => exact .inr ⟨content, rfl⟩

lemma ensures_writeOnto {p : Path} {content : Bytes}
    (h : Ensures keeps (write p content) fun _ => True) :
    Ensures keeps (writeOnto p content) fun _ => True := by
  intro disk hdisk
  have hwritten := h disk hdisk
  rw [writeOnto]
  generalize write p content disk = result at hwritten ⊢
  cases result with
  | ok a after => exact hwritten
  | error fault after =>
    cases fault with
    | system errno q target =>
      cases errno with
      | isDirectory =>
        dsimp only
        cases after.find p <;> exact hwritten
      | _ => exact hwritten
    | _ => exact hwritten

lemma ensures_copyFile {source target : Path}
    (h : ∀ content, Ensures keeps (write target content) fun _ => True) :
    Ensures keeps (copyFile source target) fun _ => True := by
  intro disk hdisk
  rcases copyFile_cases source target disk with ⟨fault, hresult⟩ | ⟨content, hresult⟩
  · rw [hresult]
    exact hdisk
  · rw [hresult]
    exact ensures_writeOnto (h content) disk hdisk

/-! ## Copying trees -/

lemma Disk.sound_node? (disk : Disk) {location : Location} {node : Node}
    (h : disk.node? location = some node) : node.Sound := by
  induction location generalizing node with
  | nil =>
    obtain rfl : disk.root = node := Option.some.inj h
    exact Node.sound_directory.2 disk.sound
  | cons name parent ih =>
    obtain ⟨above, habove, hchild⟩ := Option.bind_eq_some_iff.1 h
    cases above with
    | directory entries =>
      obtain ⟨e, he, rfl⟩ := Option.map_eq_some_iff.1 hchild
      exact (Node.sound_directory.1 (ih habove)).below e (List.mem_of_find?_eq_some he)
    | _ => simp [Node.child?] at hchild

/-- The names in a directory are valid. -/
lemma Disk.validName_of_list (disk : Disk) {p : Path} {names : List Text}
    (h : disk.list p = .ok names) {name : Text} (hname : name ∈ names) : validName name := by
  rw [list] at h
  cases hfollow : disk.follow false p p.parts with
  | error fault => simp [hfollow] at h
  | ok trail =>
    obtain ⟨-, m, place, -, rfl⟩ := follow_eq_ok_iff.1 hfollow
    simp only [hfollow, node?_trail] at h
    split at h
    · next entries hentries =>
      split_ifs at h
      obtain rfl := Except.ok.inj h
      obtain ⟨e, he, rfl⟩ := List.mem_map.1 hname
      exact (Node.sound_directory.1 (disk.sound_node? hentries)).valid e (List.mem_mergeSort.1 he)
    · simp at h
    · simp at h

section Copy

variable {good : Path → Prop}
  (hchild : ∀ p name, good p → validName name → good (p.child name))
  (hmake : ∀ p, good p → Ensures keeps (ensureDirectory chain p) fun _ => True)
  (hwrite : ∀ p content, good p → Ensures keeps (write p content) fun _ => True)

include hchild hmake hwrite

lemma ensures_copyEntries {source target : Path} (htarget : good target) {names : List Text}
    (hnames : ∀ name ∈ names, validName name) :
    Ensures keeps (copyEntries chain source target names) fun result =>
      ∀ pair ∈ result.2, good pair.2 := by
  induction names with
  | nil => exact ensures_pure (by simp)
  | cons name names ih =>
    have hcopy : good (target.child name) := hchild target name htarget (hnames name (by simp))
    have hrest := ih fun other hother => hnames other (by simp [hother])
    rw [copyEntries]
    refine ensures_bind (ensures_query_any _) fun is _ => ?_
    cases is with
    | true =>
      refine ensures_bind (hmake _ hcopy) fun _ _ => ensures_bind hrest fun result hresult => ?_
      refine ensures_pure fun pair hpair => ?_
      rcases List.mem_cons.1 hpair with rfl | hpair
      · exact hcopy
      · exact hresult pair hpair
    | false =>
      refine ensures_bind (ensures_copyFile fun content => hwrite _ content hcopy) fun _ _ =>
        ensures_bind hrest fun result hresult => ?_
      exact ensures_pure hresult

lemma ensures_copyPairs {deeper : List (Path × Path) → Operation Nat}
    (hdeeper : ∀ pairs : List (Path × Path), (∀ pair ∈ pairs, good pair.2) →
      Ensures keeps (deeper pairs) fun _ => True)
    {pairs : List (Path × Path)} (hpairs : ∀ pair ∈ pairs, good pair.2) :
    Ensures keeps (copyPairs chain deeper pairs) fun _ => True := by
  induction pairs with
  | nil => exact ensures_pure trivial
  | cons pair pairs ih =>
    obtain ⟨source, target⟩ := pair
    rw [copyPairs]
    have hvalid : Ensures keeps (query fun disk => disk.list source)
        fun names => ∀ name ∈ names, validName name :=
      ensures_query fun disk names _ hlist name hname => disk.validName_of_list hlist hname
    refine ensures_bind hvalid fun names hnames => ?_
    refine ensures_bind (ensures_copyEntries hchild hmake hwrite
      (hpairs (source, target) (by simp)) hnames) fun result hresult => ?_
    refine ensures_bind (hdeeper _ fun pair hpair => hresult pair (by simpa using hpair))
      fun _ _ => ensures_bind (ih fun pair hpair => hpairs pair (by simp [hpair])) fun _ _ =>
        ensures_pure trivial

lemma ensures_copyLevels {room : Nat} {pairs : List (Path × Path)}
    (hpairs : ∀ pair ∈ pairs, good pair.2) :
    Ensures keeps (copyLevels chain room pairs) fun _ => True := by
  induction room generalizing pairs with
  | zero =>
    refine ensures_copyPairs hchild hmake hwrite (fun pairs _ => ?_) hpairs
    cases pairs with
    | nil => exact ensures_pure trivial
    | cons pair pairs => exact ensures_fail _
  | succ room ih => exact ensures_copyPairs hchild hmake hwrite (fun _ => ih) hpairs

/-- **Copying a tree** makes directories and writes files at its target and below it only. -/
lemma ensures_copyTree {source target : Path} (htarget : good target) :
    Ensures keeps (copyTree chain source target) fun _ => True := by
  rw [copyTree]
  refine ensures_bind (ensures_query_any _) fun is _ => ?_
  cases is with
  | true =>
    refine ensures_bind (hmake target htarget) fun _ _ =>
      ensures_copyLevels hchild hmake hwrite ?_
    simpa using htarget
  | false => exact ensures_pure trivial

end Copy

end Storage

end OnePage
