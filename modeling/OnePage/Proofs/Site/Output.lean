import OnePage.Proofs.Site.Steps
import OnePage.Proofs.Storage.AtomicWrite

/-!
# Where a build works

A build writes its page into the output directory and copies assets into three directories beside
it.

* `copyNames` and `writtenNames` — the names below the output directory.
* `copies_of_copyAssets` — each copy changes one branch of the output.
* **`ensures_build_confined`** — a build changes nothing outside its output directory, if no link
  lies where it writes.
-/

namespace OnePage

namespace Site

open Storage (Disk Path Location Ensures Branch entryName validName)

variable {settings : Settings} {config : Config}

lemma Config.page_eq (config : Config) : config.page = config.output.child "index.html" :=
  Path.join_of_validName (by decide) config.output

lemma Config.parent_page (config : Config) : config.page.parent = config.output := by
  rw [page_eq, Path.parent, Path.child, List.dropLast_concat]

lemma Config.name_page (config : Config) : config.page.name = "index.html" := by
  rw [page_eq, Path.name, Path.child, List.getLast?_concat]
  rfl

lemma Config.entryName_page (config : Config) : entryName config.page.name = "index.html" := by
  rw [config.name_page]
  exact Storage.entryName_of_validName (by decide)

lemma Config.validName_page (config : Config) : validName (entryName config.page.name) := by
  rw [config.entryName_page]
  decide

/-- The names below the output directory that assets are copied to. -/
def copyNames : List Text := ["styles", "scripts", "assets"]

/-- The names below the output directory that a build writes to. -/
def writtenNames : List Text := "index.html" :: copyNames

/-- Where assets are copied to. -/
def IsCopied (place l : Location) : Prop := ∃ name ∈ copyNames, Branch place name l

variable {place : Location} {old : Disk}

lemma suffix_of_branch {name : Text} {l : Location} (h : Branch place name l) : place <:+ l := by
  rcases h with rfl | h
  · exact List.suffix_refl _
  · exact (List.suffix_cons name place).trans h

/-- Copying assets changes nothing outside the three directories that they are copied to. -/
lemma ensures_copyAssets (hopens : old.OpensAt config.output place copyNames) :
    Ensures (old.Confined (IsCopied place)) (copyAssets settings.chain config) fun _ => True := by
  have hcopy (source : Path) {name : Text} (hname : name ∈ copyNames) (hvalid : validName name) :
      Ensures (old.Confined (IsCopied place))
        (Storage.copyTree settings.chain source (config.output.join name)) fun _ => True := by
    rw [Path.join_of_validName hvalid]
    refine Storage.ensures_confined (fun l (hl : Branch place name l) => ⟨name, hname, hl⟩) ?_
    exact fun disk hdisk =>
      Storage.ensures_copyTree_branch (hopens.grows hdisk.grows) hname hvalid
  rw [copyAssets]
  refine Storage.ensures_bind (hcopy _ (by decide) (by decide)) fun _ _ => ?_
  refine Storage.ensures_bind (hcopy _ (by decide) (by decide)) fun _ _ => ?_
  refine Storage.ensures_bind (hcopy _ (by decide) (by decide)) fun _ _ => ?_
  exact Storage.ensures_pure trivial

/-- **The copies of a build**, one after the other: each changes one branch of the output. -/
lemma copies_of_copyAssets {new : Disk} {copied : Nat}
    (hopens : old.OpensAt config.output place copyNames)
    (h : copyAssets settings.chain config old = .ok copied new) :
    ∃ styles first scripts second assets, copied = styles + scripts + assets ∧
      Storage.copyTree settings.chain config.styles (config.output.child "styles") old =
        .ok styles first ∧
      Storage.copyTree settings.chain config.scripts (config.output.child "scripts") first =
        .ok scripts second ∧
      Storage.copyTree settings.chain config.assets (config.output.child "assets") second =
        .ok assets new ∧
      old.Confined (Branch place "styles") first ∧ first.Confined (Branch place "scripts") second ∧
      second.Confined (Branch place "assets") new := by
  obtain ⟨styles, first, hstyles, h⟩ := bind_eq_ok.1 h
  obtain ⟨scripts, second, hscripts, h⟩ := bind_eq_ok.1 h
  obtain ⟨assets, third, hassets, h⟩ := bind_eq_ok.1 h
  obtain ⟨rfl, rfl⟩ := EStateM.Result.ok.inj h
  rw [Path.join_of_validName (by decide)] at hstyles hscripts hassets
  have hcopy {disk result : Disk} {source : Path} {folder : Text} {n : Nat}
      (hdisk : old.Grows disk) (hmem : folder ∈ copyNames) (hvalid : validName folder)
      (hresult : Storage.copyTree settings.chain source (config.output.child folder) disk =
        .ok n result) :
      disk.Confined (Branch place folder) result := by
    have hconfined : Ensures (disk.Confined (Branch place folder))
        (Storage.copyTree settings.chain source (config.output.child folder)) fun _ => True :=
      Storage.ensures_copyTree_branch (hopens.grows hdisk) hmem hvalid
    exact (hconfined.of_ok (.refl disk) hresult).1
  have hfirst := hcopy (.refl old) (by decide) (by decide) hstyles
  have hsecond := hcopy hfirst.grows (by decide) (by decide) hscripts
  have hthird := hcopy (hfirst.grows.trans hsecond.grows) (by decide) (by decide) hassets
  exact ⟨styles, first, scripts, second, assets, rfl, hstyles, hscripts, hassets, hfirst, hsecond,
    hthird⟩

section Within

variable (hopens : old.OpensAt config.output place writtenNames)

include hopens

lemma ensures_writePage_within (text : Text) : Ensures (old.Confined (place <:+ ·))
    (Storage.writeAtomically settings.chain config.page text) fun _ => True := by
  have hparent : old.OpensAt config.page.parent place writtenNames := by
    rw [config.parent_page]
    exact hopens
  have hname : entryName config.page.name ∈ writtenNames := by
    rw [config.entryName_page]
    decide
  exact Storage.ensures_confined (fun l => suffix_of_branch) fun disk hdisk =>
    Storage.ensures_writeAtomically (hparent.grows hdisk.grows) hname

lemma confined_of_writePage {text : Text} {new : Disk}
    (h : Storage.writeAtomically settings.chain config.page text old = .ok () new) :
    old.Confined (place <:+ ·) new :=
  ((ensures_writePage_within hopens text).of_ok (.refl old) h).1

lemma ensures_copyAssets_within : Ensures (old.Confined (place <:+ ·))
    (copyAssets settings.chain config) fun _ => True := by
  have hcopied (l : Location) : IsCopied place l → place <:+ l := fun ⟨_, _, hl⟩ =>
    suffix_of_branch hl
  have hcopies : old.OpensAt config.output place copyNames :=
    hopens.mono fun _ => List.mem_cons_of_mem _
  exact Storage.ensures_confined hcopied fun disk hdisk =>
    ensures_copyAssets (hcopies.grows hdisk.grows)

lemma confined_of_copyAssets {copied : Nat} {new : Disk}
    (h : copyAssets settings.chain config old = .ok copied new) : old.Confined (place <:+ ·) new :=
  ((ensures_copyAssets_within hopens).of_ok (.refl old) h).1

/-- **A build changes nothing outside its output directory**, whether it succeeds or fails, if there
is such a directory and no link lies at or below the names it writes to. -/
lemma ensures_build_confined :
    Ensures (fun world : World => old.Confined (place <:+ ·) world.disk) (build settings config)
      fun _ => True := by
  refine ensures_build ?_ (ensures_writePage_within hopens) (ensures_copyAssets_within hopens)
  intro disk hdisk
  rw [Storage.ensureDirectory_of_isDirectory (hopens.grows hdisk.grows).isDirectory]
  exact ⟨hdisk, trivial⟩

end Within

end Site

end OnePage
