import OnePage.Proofs.Site.Page
import OnePage.Proofs.Storage.Made

/-!
# What a failing build leaves

A build may fail at many points: while its directory is made, at any file that it reads, or while
the page is written.  Up to then it has changed nothing but made directories.

* `onlyMade_of_publish_error` — a build that fails before it copies assets has only made directories
  on the way to its output.
* `ne_load_of_conclude_error` — once the page is written, no file is read as a text any more.
* **`onlyMade_of_build_error`** — a build that fails has either failed that early or while it copied
  assets, and then not because of a file that it could not use.
-/

namespace OnePage

namespace Site

open Storage (Disk Path OnlyMade)

variable {settings : Settings} {config : Config} {world after : World} {failure : Failure}

/-! ## A build that fails -/

/-- **Before assets are copied**, a failing build has only made directories on the way to its
output. -/
lemma onlyMade_of_publish_error (hclean : config.output.IsClean)
    (h : publish settings config world = .error failure after) :
    OnlyMade config.output world.disk after.disk := by
  rcases publishing_eq_error.1 (does_publish.error h) with ⟨fault, hmake, -⟩ |
    ⟨ready, hmade, ⟨-, hsame⟩ | ⟨prepared, -, fault, hwrite, -⟩⟩
  · -- not all of the directories could be made
    exact Storage.ensures_ensureDirectory_onlyMade.of_error (.refl config.output world.disk) hmake
  · -- the page could not be prepared
    exact hsame ▸ Storage.onlyMade_of_ensureDirectory hmade
  · -- the page could not be written
    obtain ⟨place, hplace, hdirectory⟩ := Storage.Disk.isDirectory_eq_true_iff.1
      (Storage.isDirectory_of_ensureDirectory hclean hmade)
    have hresult := Storage.writeAtomically_result settings.chain prepared.html
      (config.parent_page ▸ hplace) hdirectory
    rw [hwrite] at hresult
    obtain ⟨hhere, hfleeting, hface⟩ := hresult
    exact (Storage.onlyMade_of_ensureDirectory hmade).of_face? hhere hfleeting hface

/-- Once the page is written, no file of the site is read as a text any more. -/
lemma ne_load_of_conclude_error {prepared : Prepared}
    (h : conclude settings config prepared world = .error failure after) (fault : LoadFault) :
    failure ≠ .load fault := by
  rcases concluding_eq_error.1 ((does_conclude prepared).error h) with ⟨other, -, rfl⟩ |
    ⟨_, -, range, -, rfl⟩
  · simp
  · simp

/-- **What a failing build leaves.**  If a build fails before it copies assets, it has only made
directories on the way to its output; the page has kept its contents, or there still is none.
Otherwise it has failed to copy assets, and not because of a file that it could not use. -/
theorem onlyMade_of_build_error {source output assets : Text} {mode : BuildMode}
    (hbuild : build settings (.ofTexts source output assets mode) world = .error failure after) :
    (publish settings (.ofTexts source output assets mode) world = .error failure after ∧
      OnlyMade (Path.parse output) world.disk after.disk ∧
      ∀ place, after.disk.locate (Path.parse output) = .ok place → ∀ content stamp,
        after.disk.face? ("index.html" :: place) = some (.file content stamp) ↔
          world.disk.face? ("index.html" :: place) = some (.file content stamp)) ∨
    ∃ prepared published,
      publish settings (.ofTexts source output assets mode) world = .ok prepared published ∧
      conclude settings (.ofTexts source output assets mode) prepared published =
        .error failure after ∧
      ∀ fault, failure ≠ .load fault := by
  rw [build_eq] at hbuild
  rcases bind_eq_error.1 hbuild with hpublish | ⟨prepared, published, hpublish, hconclude⟩
  · have honly := onlyMade_of_publish_error (Path.isClean_parse output) hpublish
    exact .inl ⟨hpublish, honly, fun place _ => honly.file_iff _⟩
  · exact .inr ⟨prepared, published, hpublish, hconclude, ne_load_of_conclude_error hconclude⟩

/-- A site whose template is no text. -/
def brokenDisk : Disk :=
  ((Disk.empty.putDirectory ["src"]).putDirectory ["templates", "src"]).putFile
    ["page.html", "templates", "src"] [0xFF] (.fresh 0)

/-- What is wrong with that template. -/
def brokenFault : LoadFault :=
  ⟨.undecodable .template ⟨0, 0xFF, 0, .start⟩, some (Path.parse "src/templates/page.html")⟩

/-- The directory of its output is made, and that is all. -/
theorem onlyMade_of_build_error_broken :
    ∃ fault after,
      build plainSettings smallConfig ⟨brokenDisk, .silent, 0.0⟩ = .error (.load fault) after ∧
      publish plainSettings smallConfig ⟨brokenDisk, .silent, 0.0⟩ = .error (.load fault) after ∧
      OnlyMade (Path.parse "dist") brokenDisk after.disk ∧
      ¬ brokenDisk.HasDirectory ["dist"] ∧ after.disk.HasDirectory ["dist"] := by
  have hload : fails (build plainSettings smallConfig ⟨brokenDisk, .silent, 0.0⟩)
      fun failure after => decide (failure = .load brokenFault ∧
        after.disk.face? ["dist"] = some (.directory [])) := by decide +kernel
  have hbefore : brokenDisk.face? ["dist"] = none := by decide +kernel
  obtain ⟨failure, after, hbuild, hfound⟩ := exists_of_fails hload
  obtain ⟨rfl, hmade⟩ := of_decide_eq_true hfound
  rcases onlyMade_of_build_error hbuild with ⟨hpublish, honly, -⟩ | ⟨_, _, -, -, hother⟩
  · exact ⟨brokenFault, after, hbuild, hpublish, honly, by simp [Disk.HasDirectory, hbefore], [],
      hmade⟩
  · exact absurd rfl (hother brokenFault)

end Site

end OnePage
