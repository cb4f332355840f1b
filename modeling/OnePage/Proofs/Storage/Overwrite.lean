import OnePage.Proofs.Storage.AllOrNothing

/-!
# Writing a text once more

A write in one step makes a temporary file first, and it goes wrong if that file cannot be made.
Whoever writes a text again where it has been written finds the same name free for the temporary
file, so that nothing can go wrong the second time.

* `Disk.locate_absolute` — without links, the absolute path of a directory leads there as well.
* `temporaryName_congr` — more names in a directory make no difference to the name of the temporary
  file, unless they are names of such files themselves.
* `temporary_of_write` — without links, whoever has written in one step could make the temporary
  file in the same directory, and `Temporary.keep` says that this is still so later.
* **`writeAtomically_again`** — a text that has been written can be written again, and the disk
  holds the same afterwards.
-/

namespace OnePage

namespace Storage

open Disk

variable {p : Path} {text : Text} {name : Text} {disk after : Disk} {place : Location}
  {taken more : List Text} {chain : Nat}

/-! ## Absolute paths -/

/-- What remains of the parts of a path stands for where they lead. -/
lemma map_collapse {names parts : List Text} (h : ∀ part ∈ parts, part ≠ [] ∧ part ≠ dot) :
    (Path.collapse names parts).map entryName = nominal (names.map entryName) parts := by
  induction parts generalizing names with
  | nil => rfl
  | cons part parts ih =>
    obtain ⟨hempty, hdot⟩ := h part (by simp)
    have hhere : ¬ (part = dot ∨ part = []) := by simp [hempty, hdot]
    have hrest := @ih (if part = dotDot then names.tail else part :: names)
      fun other hother => h other (by simp [hother])
    have hstep : (if part = dotDot then names.tail else part :: names).map entryName =
        if part = dotDot then (names.map entryName).tail
        else entryName part :: names.map entryName := by
      split_ifs <;> simp
    rw [hstep] at hrest
    simpa only [Path.collapse, nominal, List.foldl_cons, if_neg hhere] using hrest

section Absolute

variable (hlinkless : disk.Linkless) (htidy : p.IsTidy) (hplace : disk.locate p = .ok place)
  (hdirectory : disk.HasDirectory place)

include hlinkless htidy hplace hdirectory

/-- The absolute path names the place that the path leads to. -/
lemma Disk.absolute_eq : ∃ anchor parts, anchor ≠ .here ∧ parts.map entryName = place.reverse ∧
    p.absolute disk.here = ⟨anchor, parts⟩ := by
  have hnominal := locate_eq_nominal hlinkless hplace
  rw [origin] at hnominal
  rw [Path.absolute]
  cases hanchor : p.anchor with
  | here =>
    have hhere := hasDirectory_here hplace hdirectory hanchor
    have hself : disk.here.map entryName = disk.here := map_entryName fun name hname =>
      disk.validName_of_mem_location hhere.node?_ne_none hname
    refine ⟨.root, _, by simp, ?_, rfl⟩
    rw [List.map_reverse, map_collapse htidy, hself, hnominal, hanchor]
  | root =>
    refine ⟨.root, _, by simp, ?_, rfl⟩
    rw [List.map_reverse, map_collapse htidy, List.map_nil, hnominal, hanchor]
  | doubleRoot =>
    refine ⟨.doubleRoot, _, by simp, ?_, rfl⟩
    rw [List.map_reverse, map_collapse htidy, List.map_nil, hnominal, hanchor]

/-- **The absolute path of a directory** leads there. -/
lemma Disk.locate_absolute (hfault : (p.absolute disk.here).fault? = none) :
    disk.locate (p.absolute disk.here) = .ok place := by
  obtain ⟨anchor, parts, hanchor, hparts, habsolute⟩ :=
    Disk.absolute_eq hlinkless htidy hplace hdirectory
  have hvalid : ∀ part ∈ parts, validName (entryName part) := by
    intro part hpart
    have hmem : entryName part ∈ place.reverse := hparts ▸ List.mem_map_of_mem hpart
    exact disk.validName_of_mem_location hdirectory.node?_ne_none (List.mem_reverse.1 hmem)
  have horigin : disk.origin ⟨anchor, parts⟩ = [] := by
    cases anchor <;> first | exact absurd rfl hanchor | rfl
  -- what a directory lies in is a directory
  have hway : ∀ front, front <+: parts → disk.HasDirectory (nominal [] front) := by
    intro front hfront
    rw [nominal_parts fun part hpart => hvalid part (hfront.subset hpart), List.append_nil]
    have hnames : (front.map entryName).reverse.reverse <+: place.reverse := by
      rw [List.reverse_reverse, ← hparts]
      exact hfront.map entryName
    obtain ⟨inner, hinner⟩ := List.reverse_prefix.1 hnames
    by_cases hnone : inner = []
    · rw [hnone, List.nil_append] at hinner
      exact hinner ▸ hdirectory
    · refine hasDirectory_of_content?_append hnone ?_
      rw [hinner, content?_eq_directory_iff.2 hdirectory]
      simp
  have hshort : ∀ part ∈ parts, byteLength part ≤ nameLimit := fun part hpart => by
    simpa using byteLength_le_of_validName (hvalid part hpart)
  have hleads := leads_of_way hlinkless hshort (fun front hfront _ => hway front hfront) linkLimit
  rw [nominal_parts hvalid, hparts, List.reverse_reverse, List.append_nil] at hleads
  rw [habsolute] at hfault ⊢
  exact locate_eq_ok_iff.2 ⟨hfault, linkLimit, by rwa [horigin]⟩

end Absolute

/-! ## The name of the temporary file -/

/-- The first candidate that is not taken is chosen. -/
lemma temporaryName_of_first {n : Nat} (hn : n ≤ taken.length)
    (hfree : entryName (temporaryNameWith name (filling n)) ∉ taken)
    (hbefore : ∀ m, m < n → entryName (temporaryNameWith name (filling m)) ∈ taken) :
    temporaryName taken name = temporaryNameWith name (filling n) := by
  have hfound : (List.range (taken.length + 1)).find?
      ((fun candidate => decide (entryName candidate ∉ taken)) ∘
        fun n => temporaryNameWith name (filling n)) = some n :=
    List.find?_range_eq_some.2
      ⟨by simpa using hfree, List.mem_range.2 (Nat.lt_succ_of_le hn), by simpa using hbefore⟩
  rw [temporaryName, List.find?_map, hfound]
  rfl

/-- **More names make no difference** if no candidate is among them. -/
lemma temporaryName_congr (hdistinct : taken.Nodup) (hmore : taken ⊆ more)
    (hnew : ∀ n, entryName (temporaryNameWith name (filling n)) ∈ more →
      entryName (temporaryNameWith name (filling n)) ∈ taken) :
    temporaryName more name = temporaryName taken name := by
  have hfree := temporaryName_notMem taken name
  obtain ⟨n, hn, hname, hbefore⟩ := exists_temporaryName taken name
  rw [hname] at hfree ⊢
  exact temporaryName_of_first (hn.trans (hdistinct.subperm hmore).length_le) (mt (hnew n) hfree)
    fun m hm => hmore (hbefore m hm)

/-! ## What a write leaves -/

/-- Whoever writes what is there already leaves what was there. -/
lemma Written.sameContents {written : Disk} {content : Bytes}
    (h : Written p place text disk written) (hdirectory : disk.HasDirectory place)
    (hvalid : validName (entryName p.name)) (hencode : Utf8.encode text = .ok content)
    (hfile : disk.content? (entryName p.name :: place) = some (.file content)) :
    SameContents disk written := by
  obtain ⟨content', hencode', hcontent⟩ := h.content?_eq hdirectory hvalid
  obtain rfl := Except.ok.inj (hencode.symm.trans hencode')
  intro l
  rw [hcontent]
  split
  · next heq => rw [heq, hfile]
  · rfl

/-! ## Beside a file -/

section Beside

variable (hlinkless : disk.Linkless) (htidy : p.parent.IsTidy)
  (hplace : disk.locate p.parent = .ok place) (hdirectory : disk.HasDirectory place)

/-- A temporary file can be made as well on a disk on which there are more names, but no more
candidates. -/
lemma Temporary.keep (h : Temporary disk p place name) (hgrows : disk.Grows after)
    (hthere : ∀ other,
      disk.content? (other :: place) ≠ none → after.content? (other :: place) ≠ none)
    (hnew : ∀ n, after.content? (entryName (temporaryNameWith p.name (filling n)) :: place) ≠ none →
      disk.content? (entryName (temporaryNameWith p.name (filling n)) :: place) ≠ none) :
    Temporary after p place name := by
  have hsame : temporaryName (after.children place) p.name =
      temporaryName (disk.children place) p.name :=
    temporaryName_congr (disk.nodup_children place)
      (fun other hother => mem_children_iff.2 (hthere other (mem_children_iff.1 hother)))
      fun n hn => mem_children_iff.2 (hnew n (mem_children_iff.1 hn))
  refine ⟨?_, hgrows.directory place h.directory, h.chosen.trans hsame.symm, h.valid, ?_⟩
  · rw [hgrows.here]
    exact locate_grows h.leads hgrows
  · rw [hgrows.here]
    exact h.fault

include hlinkless htidy hplace hdirectory

/-- **Who has written in one step** could make the temporary file, in the same directory. -/
lemma temporary_of_write (hslash : slash ∉ p.name)
    (hwrite : writeAtomically chain p text disk = .ok () after) :
    ∃ name, Temporary disk p place name := by
  obtain ⟨location, made, content, hcreate, -, -⟩ := writeAtomically_steps hplace hdirectory hwrite
  obtain ⟨l, name, htemporary⟩ :=
    exists_temporary hslash hcreate
  have hfault := Path.fault?_of_prefix (List.prefix_append _ [name]) htemporary.fault
  have habsolute := locate_absolute hlinkless htidy hplace hdirectory hfault
  obtain rfl : l = place := Except.ok.inj (htemporary.leads.symm.trans habsolute)
  exact ⟨name, htemporary⟩

/-- **A text that has been written** can be written again later, and that changes nothing, as long
as the file is there and no temporary file has been left beside it. -/
lemma writeAtomically_again {written : Disk} {content : Bytes}
    (hwrite : writeAtomically chain p text disk = .ok () written)
    (hvalid : validName (entryName p.name)) (hencode : Utf8.encode text = .ok content)
    (hgrows : disk.Grows after)
    (hthere : ∀ other,
      disk.content? (other :: place) ≠ none → after.content? (other :: place) ≠ none)
    (hnew : ∀ n, after.content? (entryName (temporaryNameWith p.name (filling n)) :: place) ≠ none →
      disk.content? (entryName (temporaryNameWith p.name (filling n)) :: place) ≠ none)
    (hfile : after.content? (entryName p.name :: place) = some (.file content)) :
    ∃ again, writeAtomically chain p text after = .ok () again ∧ again.here = after.here ∧
      again.fleeting = after.fleeting ∧ SameContents after again := by
  obtain ⟨name, htemporary⟩ := temporary_of_write hlinkless htidy hplace hdirectory
    (mt (mem_entryName_iff (by decide)).2 (slash_notMem_of_validName hvalid)) hwrite
  have hfirst := written_of_writeAtomically hplace hdirectory hwrite
  have hnow := locate_grows hplace hgrows
  have hstill := hgrows.directory place hdirectory
  have hfree : ¬ after.HasDirectory (entryName p.name :: place) := by
    rw [← content?_eq_directory_iff, hfile]
    simp
  obtain ⟨again, hagain⟩ := writeAtomically_of_temporary hnow hstill
    (htemporary.keep hgrows hthere hnew) hfirst.fault hvalid hencode hfree
  have hsecond := written_of_writeAtomically hnow hstill hagain
  obtain ⟨content', between, stamp, -, hhere, hfleeting, -, rfl⟩ := hsecond.put
  refine ⟨_, hagain, ?_, ?_, hsecond.sameContents hstill hvalid hencode hfile⟩
  · simpa [putFile] using hhere
  · simpa [putFile] using hfleeting

end Beside

end Storage

end OnePage
