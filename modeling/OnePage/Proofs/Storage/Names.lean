import OnePage.Proofs.Storage.EntryName
import OnePage.Proofs.Storage.Leads
import OnePage.Proofs.Text.Search

/-!
# Names in paths

The parts of a path that has been read from a text hold no slashes, and a path with a NUL in it, or
with a surrogate that is no escape, never reaches the disk.  So whatever a path leads to could be
made there.

* `Path.IsClean` — no part of a path holds a slash; `Path.isClean_parse` says that of every path
  that has been read from a text.  Nor does a part of such a path stay where it is (`Path.IsTidy`).
* `Path.validName_of_mem` — the parts of a clean path that can be followed stand for valid names.
* `Path.parse_of_validName` — a valid name is read as the path of that one name, and
  `Path.parse_join` says the same of several names.
* `Path.IsPlain` — the disk may refuse a path for its length, and nothing else keeps it away.
-/

namespace OnePage

/-- A text without NULs and without surrogates other than escapes. -/
def Text.IsPlain (text : Text) : Prop := ∀ c ∈ text, c ≠ CodePoint.ofNat 0 ∧ c.IsWritable

namespace Text.IsPlain

instance (text : Text) : Decidable text.IsPlain := inferInstanceAs (Decidable (∀ c ∈ text, _))

lemma append {text more : Text} (h : text.IsPlain) (hmore : more.IsPlain) :
    (text ++ more).IsPlain := fun c hc => (List.mem_append.1 hc).elim (h c) (hmore c)

end Text.IsPlain

namespace Storage

lemma isPlain_of_validName {name : Text} (h : validName name) : name.IsPlain := by
  have hname := entryName_of_validName h
  simp only [validName, Bool.and_eq_true, decide_eq_true_eq] at h
  exact fun c hc => ⟨fun heq => h.1.1.2 (heq ▸ hc),
    @isWritable_of_mem_entryName c name (hname.symm ▸ hc)⟩

/-- A part that stands for a valid name is followed as the name of an entry. -/
lemma isProper_of_validName_entryName {part : Text} (h : validName (entryName part)) :
    IsProper part := by
  obtain ⟨hup, hhere⟩ := isProper_of_validName h
  refine ⟨mt (entryName_eq_iff (by decide)).2 hup, mt ?_ hhere⟩
  exact Or.imp (entryName_eq_iff (by decide)).2 (entryName_eq_iff (by simp)).2

namespace Path

/-- No part of a path holds a slash. -/
def IsClean (p : Path) : Prop := ∀ part ∈ p.parts, slash ∉ part

lemma not_mem_of_mem_partsOf {text part : Text} (h : part ∈ partsOf text) : slash ∉ part :=
  Text.not_mem_of_mem_splitOn (List.mem_filter.1 h).1

/-- A path that has been read from a text is clean. -/
lemma isClean_parse (text : Text) : (parse text).IsClean := fun _ h => not_mem_of_mem_partsOf h

/-- No part of a path stays where it is. -/
def IsTidy (p : Path) : Prop := ∀ part ∈ p.parts, part ≠ [] ∧ part ≠ dot

lemma isTidy_parse (text : Text) : (parse text).IsTidy := fun _ hpart => by
  simpa using (List.mem_filter.1 hpart).2

/-- A path that has a name is that of an entry of the directory it lies in. -/
lemma child_parent_name {p : Path} (h : p.name ≠ []) : p.parent.child p.name = p := by
  cases hlast : p.parts.getLast? with
  | none => simp [name, hlast] at h
  | some last =>
    have hparts := List.dropLast_append_getLast? last hlast
    simp only [parent, child, name, hlast, Option.getD_some, hparts]

lemma child_parent_of_validName {p : Path} (h : validName (entryName p.name)) :
    p.parent.child p.name = p :=
  child_parent_name fun hnone => (isProper_of_validName_entryName h).2 (.inr hnone)

lemma name_mem_parts {p : Path} (h : p.name ≠ []) : p.name ∈ p.parts := by
  have hlast : p.name ∈ (p.parent.child p.name).parts := by simp [child]
  rwa [child_parent_name h] at hlast

/-- A valid name is read as the path of that one name. -/
lemma parse_of_validName {name : Text} (h : validName name) : parse name = ⟨.here, [name]⟩ := by
  obtain ⟨-, hproper⟩ := isProper_of_validName h
  simp only [validName, Bool.and_eq_true, decide_eq_true_eq] at h
  obtain ⟨⟨⟨⟨⟨⟨hempty, hdot⟩, -⟩, hslash⟩, -⟩, -⟩, -⟩ := h
  have hanchor : name.takeWhile (· = slash) = [] := by
    cases name with
    | nil => rfl
    | cons c name =>
      have hc : c ≠ slash := fun hc => hslash (by simp [hc])
      simp [hc]
  rw [parse, partsOf, Text.splitOn_of_not_mem hslash, hanchor]
  simp [hempty, hdot]

/-- A path goes on with a valid name as with an entry. -/
lemma join_of_validName {name : Text} (h : validName name) (p : Path) :
    p.join name = p.child name := by
  rw [join, parse_of_validName h]
  rfl

/-- Valid names that have been joined are read as the path of these names. -/
lemma parse_join {names : List Text} (hne : names ≠ []) (h : ∀ name ∈ names, validName name) :
    parse (Text.join [slash] names) = ⟨.here, names⟩ := by
  have hvalid (name : Text) (hname : name ∈ names) : name ≠ [] ∧ name ≠ dot ∧ slash ∉ name := by
    have := h name hname
    simp only [validName, Bool.and_eq_true, decide_eq_true_eq] at this
    exact ⟨this.1.1.1.1.1.1, this.1.1.1.1.1.2, this.1.1.1.2⟩
  have hanchor : (Text.join [slash] names).takeWhile (· = slash) = [] := by
    cases names with
    | nil => exact absurd rfl hne
    | cons name names =>
      obtain ⟨hempty, -, hslash⟩ := hvalid name (by simp)
      obtain ⟨c, rest, rfl⟩ := List.exists_cons_of_ne_nil hempty
      have hc : c ≠ slash := fun hc => hslash (by simp [hc])
      cases names <;> simp [Text.join, hc]
  rw [parse, partsOf, hanchor, Text.splitOn_join hne fun name hname => (hvalid name hname).2.2]
  have hall : names.filter (fun part => part ≠ [] ∧ part ≠ dot) = names :=
    List.filter_eq_self.2 fun name hname => by
      simpa using ⟨(hvalid name hname).1, (hvalid name hname).2.1⟩
  rw [hall]
  rfl

/-- A path goes on with valid names as with entries, one inside the other. -/
lemma join_join {names : List Text} (hne : names ≠ []) (h : ∀ name ∈ names, validName name)
    (p : Path) : p.join (Text.join [slash] names) = ⟨p.anchor, p.parts ++ names⟩ := by
  rw [join, parse_join hne h]

lemma infix_text {p : Path} {part : Text} (h : part ∈ p.parts) : part <:+: p.text := by
  rw [text]
  split
  · next hparts =>
    rw [hparts] at h
    simp at h
  · exact (Text.infix_join h).trans (List.suffix_append _ _).isInfix

/-- What the text of a path is made of. -/
lemma mem_text {p : Path} {c : CodePoint} (h : c ∈ p.text) :
    c = slash ∨ c ∈ dot ∨ ∃ part ∈ p.parts, c ∈ part := by
  have hjoin {parts : List Text} (hc : c ∈ Text.join [slash] parts) :
      c = slash ∨ ∃ part ∈ parts, c ∈ part := by
    induction parts with
    | nil => simp [Text.join] at hc
    | cons part parts ih =>
      cases parts with
      | nil => exact .inr ⟨part, by simp, hc⟩
      | cons next parts =>
        simp only [Text.join, List.mem_append, List.mem_singleton] at hc
        rcases hc with (hc | hc) | hc
        · exact .inr ⟨part, by simp, hc⟩
        · exact .inl hc
        · refine (ih hc).imp_right ?_
          rintro ⟨part, hpart, hc⟩
          exact ⟨part, by simp [hpart], hc⟩
  rw [text] at h
  split at h
  · exact .inr (.inl h)
  · rcases List.mem_append.1 h with h | h
    · cases hanchor : p.anchor <;> simp [hanchor, Anchor.text] at h
      · exact .inl h
      · exact .inl h
    · exact (hjoin h).imp_right .inr

lemma fault?_cases {p : Path} {fault : Fault} (h : p.fault? = some fault) :
    fault = .nul ∨ (∃ surrogates, fault = .unencodable surrogates) ∨
      fault = .system .nameTooLong p none := by
  rw [fault?] at h
  split at h
  · exact .inr (.inl ⟨_, (Option.some.inj h).symm⟩)
  · split at h
    · exact .inl (Option.some.inj h).symm
    · split at h
      · exact .inr (.inr (Option.some.inj h).symm)
      · simp at h

/-- Every part of a path can be handed to the disk. -/
def IsPlain (p : Path) : Prop := ∀ part ∈ p.parts, part.IsPlain

/-- The disk may refuse a plain path for its length, and nothing else keeps it away. -/
lemma isPlain_iff {p : Path} :
    p.IsPlain ↔ p.fault? = none ∨ p.fault? = some (.system .nameTooLong p none) := by
  constructor
  · intro h
    have htext : p.text.IsPlain := by
      intro c hc
      rcases mem_text hc with rfl | hdot | ⟨part, hpart, hc⟩
      · decide
      · exact (by decide : dot.IsPlain) c hdot
      · exact h part hpart c hc
    have hnul : CodePoint.ofNat 0 ∉ p.text := fun hmem => (htext _ hmem).1 rfl
    have hnone : Name.fault? 0 p.text = none :=
      Name.fault?_eq_none_iff.2 fun c hc => (htext c hc).2
    rw [fault?, hnone]
    dsimp only
    rw [if_neg hnul]
    split
    · exact .inr rfl
    · exact .inl rfl
  · intro h part hpart c hc
    have hmem : c ∈ p.text := (infix_text hpart).subset hc
    rw [fault?] at h
    split at h
    · simp at h
    · next hnone =>
      split at h
      · simp at h
      · next hnul =>
        exact ⟨fun heq => hnul (heq ▸ hmem), Name.fault?_eq_none_iff.1 hnone c hmem⟩

lemma IsPlain.append {p : Path} {names : List Text} (h : p.IsPlain)
    (hnames : ∀ name ∈ names, validName name) : (⟨p.anchor, p.parts ++ names⟩ : Path).IsPlain := by
  intro part hpart
  rcases List.mem_append.1 hpart with hpart | hpart
  · exact h part hpart
  · exact isPlain_of_validName (hnames part hpart)

lemma IsPlain.child {p : Path} {name : Text} (h : p.IsPlain) (hname : validName name) :
    (p.child name).IsPlain :=
  h.append (by simpa using hname)

/-- **The parts of a clean path that can be followed stand for valid names.** -/
lemma validName_of_mem {p : Path} (hclean : p.IsClean) (hfault : p.fault? = none) {part : Text}
    (hpart : part ∈ p.parts) (hproper : IsProper part)
    (hshort : ¬ nameLimit < byteLength part) : validName (entryName part) := by
  have hplain := isPlain_iff.2 (.inl hfault) part hpart
  obtain ⟨hup, hhere⟩ := hproper
  rw [not_or] at hhere
  exact validName_entryName hhere.2 hhere.1 hup (hclean part hpart)
    (fun hmem => (hplain _ hmem).1 rfl) (Nat.le_of_not_lt hshort)

/-! ## Paths that go on -/

variable {p : Path}

lemma fault?_eq_none_iff : p.fault? = none ↔ p.IsPlain ∧ byteLength p.text ≤ pathLimit := by
  constructor
  · intro h
    refine ⟨isPlain_iff.2 (.inl h), ?_⟩
    by_contra hlong
    rw [fault?] at h
    split at h
    · simp at h
    · split at h
      · simp at h
      · simp [Nat.lt_of_not_le hlong] at h
  · rintro ⟨hplain, hlength⟩
    refine (isPlain_iff.1 hplain).resolve_right fun h => ?_
    rw [fault?] at h
    split at h
    · simp at h
    · split at h
      · simp at h
      · simp [Nat.not_lt.2 hlength] at h

lemma fault?_start (anchor : Anchor) : (⟨anchor, []⟩ : Path).fault? = none := by
  cases anchor <;> decide

lemma byteLength_join_le (parts more : List Text) :
    byteLength (Text.join [slash] parts) ≤ byteLength (Text.join [slash] (parts ++ more)) := by
  induction parts with
  | nil => simp [Text.join, byteLength, Name.encode]
  | cons part parts ih =>
    cases parts with
    | nil =>
      cases more with
      | nil => exact le_rfl
      | cons next more =>
        have hjoin : Text.join [slash] (part :: next :: more) =
            part ++ [slash] ++ Text.join [slash] (next :: more) := rfl
        rw [List.cons_append, List.nil_append, hjoin, byteLength_append, byteLength_append,
          Text.join]
        omega
    | cons next parts =>
      simp only [List.cons_append, Text.join, byteLength_append] at ih ⊢
      omega

/-- A first part of a path can be followed if the path can. -/
lemma fault?_of_prefix {anchor : Anchor} {parts whole : List Text} (hparts : parts <+: whole)
    (h : (⟨anchor, whole⟩ : Path).fault? = none) : (⟨anchor, parts⟩ : Path).fault? = none := by
  obtain ⟨more, rfl⟩ := hparts
  by_cases hnone : parts = []
  · rw [hnone]
    exact fault?_start anchor
  · obtain ⟨hplain, hlength⟩ := fault?_eq_none_iff.1 h
    refine fault?_eq_none_iff.2 ⟨fun part hpart => hplain part (List.mem_append_left _ hpart), ?_⟩
    have htext {parts : List Text} (hne : parts ≠ []) :
        (⟨anchor, parts⟩ : Path).text = anchor.text ++ Text.join [slash] parts := by
      rw [text]
      split
      · next heq => exact absurd heq hne
      · rfl
    have hjoin := byteLength_join_le parts more
    rw [htext hnone, htext (by simp [hnone])] at *
    simp only [byteLength_append] at *
    omega

end Path

end Storage

end OnePage
