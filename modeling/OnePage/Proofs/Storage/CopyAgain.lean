import OnePage.Proofs.Storage.CopyTree

/-!
# Copying a tree once more

What has been copied can be copied again, and then the disk holds what it held.

* **`copyTree_again`** — a tree that has been copied is copied again.
* `Separate.copied` — what has been copied is copied still, if neither the tree nor its copy
  changes.
* `Repeatable` — a copy can be repeated, and `Repeatable.copyTree` says what comes of that.
* **`repeatable_of_copyTree`** — a copy into a directory can be repeated after other changes there.
-/

namespace OnePage

namespace Storage

open Disk

variable {disk other ready after after' : Disk} {source target : Path} {s d l : Location}
  {name : Text} {chain : Nat}

/-- **A tree that has been copied can be copied again**, and then the disk holds what it held. -/
lemma copyTree_again (hlinkless : disk.Linkless) (hsource : disk.locate source = .ok s)
    (hdirectory : disk.HasDirectory s) (htarget : disk.locate target = .ok d)
    (hthere : disk.HasDirectory d) (habove : ¬ s <:+ d) (hbelow : ¬ d <:+ s)
    (hcopied : Copied disk source target s d disk []) :
    ∃ n after, copyTree chain source target disk = .ok n after ∧ (n : ℕ∞) = disk.fileCount s ∧
      SameContents disk after ∧ disk.Confined (d <:+ ·) after := by
  have hmade : ensureDirectory chain target disk = .ok () disk :=
    ensureDirectory_of_isDirectory (isDirectory_eq_true_iff.2 ⟨d, htarget, hthere⟩)
  have hmatched : Matched disk source target s d disk [] :=
    ⟨hdirectory, by simpa using hsource, by simpa using htarget, hthere⟩
  have hlevels := copyLevels_yields hlinkless habove hbelow hmatched chain
  rw [copyTree_eq (isDirectory_eq_true_iff.2 ⟨s, hsource, hdirectory⟩), hmade]
  dsimp only
  rw [Yields] at hlevels
  cases hresult : copyLevels chain (pathLimit + 1) [(source, target)] disk with
  | error fault after =>
    rw [hresult] at hlevels
    exact absurd hlevels (hcopied.not_obstructed (.refl disk))
  | ok n after =>
    rw [hresult] at hlevels
    obtain ⟨hcount, hlays, -⟩ := hlevels
    refine ⟨n, after, rfl, hcount, fun l => ?_, hlays.confined.grows, fun l hl => ?_⟩
    · rcases hlays.held l with hsame | ⟨inner, rfl, hbase, hlaid⟩
      · exact hsame
      · have hsettled := hcopied.settled inner (by simpa using hbase)
        rw [List.append_nil] at hsettled
        exact hlaid.trans hsettled.held.symm
    · refine hlays.confined.same l ?_
      rintro ⟨inner, rfl, -⟩
      exact hl (List.suffix_append _ _)

/-- Nothing is lost where a tree has been laid over another. -/
lemma Overlaid.there (h : Overlaid target s d disk after) (hthere : disk.content? l ≠ none) :
    after.content? l ≠ none := by
  by_cases hcounterpart : IsCounterpart disk s d l
  · obtain ⟨inner, rfl, hsource⟩ := hcounterpart
    rwa [h.laid inner hsource]
  · by_cases hmissing : disk.IsMissing target l
    · simp [content?_eq_directory_iff.2 (h.made l hmissing)]
    · rwa [h.held l hcounterpart hmissing]

/-- What has been copied is copied still, if neither the tree nor its copy has changed since. -/
lemma Separate.copied {n : Nat} {new : Disk} (h : Separate disk source target s d)
    (hcopy : copyTree chain source target disk = .ok n after)
    (hsource : ∀ inner, new.content? (inner ++ s) = disk.content? (inner ++ s))
    (htarget : ∀ inner, new.content? (inner ++ d) = after.content? (inner ++ d))
    (hfleeting : new.fleeting = disk.fleeting) :
    Copied new source target s d new [] ∧ (n : ℕ∞) = new.fileCount s := by
  have hresult := copyTree_result h chain
  rw [hcopy] at hresult
  obtain ⟨hcount, hoverlaid, hfree⟩ := hresult
  refine ⟨⟨fun inner hthere => ?_, fun inner hlaid hmem => hfree (.inr (.unlistable inner ?_ ?_))⟩,
    hcount.trans (fileCount_congr hsource).symm⟩
  · rw [List.nil_append, hsource] at hthere
    have hfault : ¬ ((source.under inner).fault? ≠ none ∨ (target.under inner).fault? ≠ none) :=
      fun hfault => hfree (.inr (.fault inner hthere hfault))
    rw [not_or, not_not, not_not] at hfault
    rw [List.append_nil]
    exact ⟨by rw [htarget, hoverlaid.laid inner hthere, hsource], hfault.1, hfault.2⟩
  · rwa [List.nil_append, ← content?_eq_directory_iff, hsource, content?_eq_directory_iff] at hlaid
  · rwa [List.nil_append, hfleeting] at hmem

/-! ### Into a directory that is there -/

/-- **A copy can be repeated**: there is nothing to be copied, or all of it has been copied. -/
inductive Repeatable (disk : Disk) (source target : Path) (n : Nat) : Prop where
  /-- There is nothing to be copied. -/
  | nothing (hsource : disk.isDirectory source = .ok false) (hn : n = 0)
  /-- The tree has been copied, and there were so many files in it. -/
  | copied {s d : Location} (hsource : disk.locate source = .ok s)
      (hdirectory : disk.HasDirectory s) (htarget : disk.locate target = .ok d)
      (hthere : disk.HasDirectory d) (habove : ¬ s <:+ d)
      (hbelow : ¬ d <:+ s) (hcopied : Copied disk source target s d disk [])
      (hn : (n : ℕ∞) = disk.fileCount s)

/-- **Repeating a copy** does what was done, on each disk that holds the same. -/
lemma Repeatable.copyTree (chain : Nat) {n : Nat} (h : Repeatable disk source target n)
    (hlinkless : disk.Linkless) (hhere : other.here = disk.here)
    (hfleeting : other.fleeting = disk.fleeting) (hsame : SameContents disk other) :
    ∃ after, Storage.copyTree chain source target other = .ok n after ∧ after.here = disk.here ∧
      after.fleeting = disk.fleeting ∧ SameContents disk after := by
  cases h with
  | nothing hsource hn =>
    have hother := (hsame.isDirectory_eq hlinkless hhere source).trans hsource
    refine ⟨other, ?_, hhere, hfleeting, hsame⟩
    simp [Storage.copyTree, query, hother, hn, bind, EStateM.bind, pure, EStateM.pure]
  | copied hsource hdirectory htarget hthere habove hbelow hcopied hn =>
    have hlocate := hsame.locate_eq hlinkless hhere
    have hcopied' : Copied other source target _ _ other [] :=
      ⟨fun more hmore => ⟨by simpa [hsame _] using (hcopied.settled more (hsame _ ▸ hmore)).held,
        (hcopied.settled more (hsame _ ▸ hmore)).source,
        (hcopied.settled more (hsame _ ▸ hmore)).target⟩,
        fun more hmore => hfleeting ▸ hcopied.listable more ((hsame.hasDirectory_iff _).1 hmore)⟩
    obtain ⟨m, after, hcopy, hm, hafter, hconfined⟩ := copyTree_again (hsame.linkless hlinkless)
      ((hlocate source).trans hsource) ((hsame.hasDirectory_iff _).2 hdirectory)
      ((hlocate target).trans htarget) ((hsame.hasDirectory_iff _).2 hthere) habove hbelow hcopied'
    obtain rfl : m = n := by
      rw [fileCount_congr fun inner => hsame _, ← hn] at hm
      exact Nat.cast_inj.1 hm
    exact ⟨after, hcopy, hconfined.grows.here.trans hhere, hconfined.grows.fleeting.trans hfleeting,
      hsame.trans hafter⟩

/-- No name on a way that leads through directories is too long. -/
lemma Disk.Paves.short {parts : List Text} (h : disk.Paves l parts) :
    ∀ part ∈ parts, byteLength part ≤ nameLimit := by
  intro part hpart
  obtain ⟨front, rest, rfl⟩ := List.append_of_mem hpart
  have hdirectory := h (front ++ [part]) (by simp)
  by_cases hproper : IsProper part
  · rw [nominal_append, nominal_enter hproper] at hdirectory
    exact byteLength_le_of_node? hdirectory.node?_ne_none
  · rw [IsProper] at hproper
    by_cases hup : part = dotDot
    · rw [hup]
      decide
    · obtain rfl | rfl : part = dot ∨ part = [] := not_not.1 fun hhere => hproper ⟨hup, hhere⟩
      · decide
      · decide

section Into

variable {p : Path} {place : Location} {n : Nat} {new : Disk} (hlinkless : disk.Linkless)
  (hplace : disk.locate p = .ok place) (hdirectory : disk.HasDirectory place) (hclean : p.IsClean)
  (hvalid : validName name)

include hlinkless hplace hdirectory hclean hvalid

/-- A directory that is there and an entry of another, neither of which lies in the other. -/
lemma separate_child (hsource : disk.locate source = .ok s) (hs : disk.HasDirectory s)
    (hbelow : ¬ place <:+ s) (habove : ¬ s <:+ place) :
    Separate disk source (p.child name) s (name :: place) := by
  have hpaves := paves_of_isDirectory hlinkless
    (isDirectory_eq_true_iff.2 ⟨place, hplace, hdirectory⟩)
  have hends : nominal (disk.origin p) (p.child name).parts = name :: place := by
    rw [nominal_child hvalid, ← locate_eq_nominal hlinkless hplace]
  exact {
    linkless := hlinkless
    leads := hsource
    directory := hs
    clean := hclean.child hvalid
    short := fun part hpart => by
      rcases List.mem_append.1 hpart with hpart | hpart
      · exact hpaves.short part hpart
      · exact List.mem_singleton.1 hpart ▸ byteLength_le_of_validName hvalid
    ends := hends
    above := fun h => by
      rcases List.suffix_cons_iff.1 h with rfl | h
      · exact hbelow (List.suffix_cons name place)
      · exact habove h
    below := fun h => hbelow ((List.suffix_cons name place).trans h)
    way := fun front hfront _ => by
      rcases List.prefix_concat_iff.1 hfront with rfl | hfront
      · exact .inl hends
      · exact .inr (hpaves front hfront) }

variable (hapart : ∀ s, disk.locate source = .ok s → ¬ place <:+ s ∧ ¬ s <:+ place)
  (hcopy : copyTree chain source (p.child name) disk = .ok n after)

include hapart hcopy

/-- Nothing is lost when something is copied into a directory. -/
lemma there_of_copyTree (hthere : disk.content? l ≠ none) : after.content? l ≠ none := by
  rcases isDirectory_of_copyTree hcopy with ⟨-, -, rfl⟩ | hsource
  · exact hthere
  · obtain ⟨s, hs, hs'⟩ := isDirectory_eq_true_iff.1 hsource
    obtain ⟨hbelow, habove⟩ := hapart s hs
    have hresult := copyTree_result
      (separate_child hlinkless hplace hdirectory hclean hvalid hs hs' hbelow habove) chain
    rw [hcopy] at hresult
    exact hresult.2.1.there hthere

/-- **What has been copied into a directory** can be copied again, if nothing has changed but in the
directory, and nothing in the copy. -/
lemma repeatable_of_copyTree (hnew : disk.Confined (place <:+ ·) new)
    (hlast : ∀ inner,
      new.content? (inner ++ name :: place) = after.content? (inner ++ name :: place))
    (hstill : disk.isDirectory source = .ok false → after = disk →
      new.isDirectory source = .ok false) : Repeatable new source (p.child name) n := by
  rcases isDirectory_of_copyTree hcopy with ⟨hsource, rfl, hsame⟩ | hsource
  · exact .nothing (hstill hsource hsame) rfl
  · obtain ⟨s, hs, hs'⟩ := isDirectory_eq_true_iff.1 hsource
    obtain ⟨hbelow, habove⟩ := hapart s hs
    have hseparate := separate_child hlinkless hplace hdirectory hclean hvalid hs hs' hbelow habove
    have hsame (inner : Location) : new.content? (inner ++ s) = disk.content? (inner ++ s) := by
      refine content?_of_face? (hnew.same _ fun hsuffix => ?_)
      rcases List.suffix_or_suffix_of_suffix hsuffix (List.suffix_append inner s) with h | h
      · exact hbelow h
      · exact habove h
    obtain ⟨hcopied, hn⟩ := hseparate.copied hcopy hsame hlast hnew.grows.fleeting
    have hresult := copyTree_result hseparate chain
    rw [hcopy] at hresult
    -- the copy of the directory itself
    have hstays := content?_eq_directory_iff.2 (hnew.grows.directory s hs')
    have hlaid := hcopied.settled [] (by simp [hstays])
    have hthere : new.HasDirectory (name :: place) :=
      content?_eq_directory_iff.1 (hlaid.held.trans hstays)
    have htarget := locate_child (locate_grows hplace hnew.grows)
      (hnew.grows.directory place hdirectory) (hlinkless.grows hnew.grows _)
      (by simpa using hlaid.target) hvalid
    exact .copied (locate_grows hs hnew.grows) (hnew.grows.directory s hs') htarget hthere
      hseparate.above hseparate.below hcopied hn

end Into

end Storage

end OnePage
