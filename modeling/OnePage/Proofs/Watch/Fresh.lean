import OnePage.Proofs.Site.Sources
import OnePage.Proofs.Storage.Edits
import OnePage.Proofs.Storage.Walk
import OnePage.Proofs.Watch.Differences
import OnePage.Proofs.Watch.Moment

/-!
# The page while a site is watched

As long as nothing is held back, and the last build has succeeded, a watched site has the page that
would be built from its sources as they are.  What a look has seen tells the sources apart if files
are stamped faithfully; what a build changes cannot be seen from the sources; and what is changed in
a pause is not the page.

* `Faithful` — stamps tell trees apart.
* `IsFresh` — the page is the one that would be built now.
* `InStep` — what holds from one look to the next: the page is fresh unless something is held back,
  and the watcher has seen the sources as they are.
* `InStep.start`, `InStep.next` and `InStep.run` — a build begins so, and looks keep it so.
* `Watched` is a site that is built and then watched through a list of pauses.
* **`isFresh_of_watched`** — its page is fresh after any number of looks.
-/

namespace OnePage

namespace Watch

open Site (Program Settings Config World BuildResult)
open Storage (Disk Path Location Snapshot SameTree nominal validName)

variable {settings : Settings} {config : Config} {debounce : Float} {place : Location}
  {states : List Disk} {m later last : Moment} {pause : Pause} {pauses : List Pause}

/-- **Faithful stamps.**  Disks on which all files below a path have the same stamps have the same
tree there. -/
def Faithful (root : Path) (states : List Disk) : Prop :=
  ∀ first ∈ states, ∀ second ∈ states, ∀ before after : Snapshot,
    first.snapshot root = .ok before → second.snapshot root = .ok after →
      (∀ name, after.get? name = before.get? name) → SameTree root first second

/-- **A fresh page**: what the page holds is what would be built from the disk as it is. -/
def IsFresh (settings : Settings) (config : Config) (disk : Disk) : Prop :=
  ∃ content, disk.read config.page = .ok content ∧
    Site.freshPage settings config disk = .ok content

/-- What holds from one look to the next. -/
structure InStep (settings : Settings) (config : Config) (place : Location) (states : List Disk)
    (m : Moment) : Prop where
  /-- There are no links. -/
  linkless : m.world.disk.Linkless
  /-- The output directory is there. -/
  opens : m.world.disk.OpensAt config.output place Site.writtenNames
  /-- The sources lie apart from it. -/
  apart : m.world.disk.IsApart config.source place
  /-- The watcher has seen the sources as they are. -/
  seen : ∃ disk ∈ states, disk.snapshot config.source = .ok m.watcher.snapshot ∧
    SameTree config.source disk m.world.disk
  /-- The page is fresh, if nothing is held back and the last build has succeeded. -/
  fresh : m.watcher.pending = [] → m.built = true → IsFresh settings config m.world.disk

namespace InStep

/-- **A build begins a session in step.** -/
lemma start {world started waiting : World} {result : BuildResult} {snapshot : Snapshot}
    {built : Bool} (hclean : config.output.IsClean) (hlinkless : world.disk.Linkless)
    (hapart : world.disk.IsApart config.source
      (nominal (world.disk.origin config.output) config.output.parts))
    (hbuild : Site.build settings config world = .ok result started)
    (hsnapshot : started.disk.snapshot config.source = .ok snapshot)
    (hwaiting : waiting.disk = started.disk) (hmem : started.disk ∈ states) :
    InStep settings config (nominal (world.disk.origin config.output) config.output.parts) states
      ⟨waiting, .start snapshot, built⟩ := by
  obtain ⟨ready, hgrows, hopens, hconfined, content, hread, hfresh⟩ :=
    Site.freshPage_of_build hclean hbuild hlinkless
  have hready := hlinkless.grows hgrows
  have hsame : SameTree config.source ready started.disk :=
    Storage.sameTree_of_confined hready hconfined hopens.directory (hapart.grows hgrows)
  constructor <;> dsimp only <;> rw [hwaiting]
  case linkless => exact hready.grows hconfined.grows
  case opens => exact hopens.grows hconfined.grows
  case apart => exact (hapart.grows hgrows).grows hconfined.grows
  case seen => exact ⟨started.disk, hmem, hsnapshot, .refl config.source started.disk⟩
  case fresh => exact fun _ _ => ⟨content, hread, (Site.freshPage_eq hsame).trans hfresh⟩

/-- **One look keeps a session in step.** -/
lemma next (h : InStep settings config place states m) (hclean : config.output.IsClean)
    (hfaithful : Faithful config.source states)
    (hnext : m.next settings config debounce pause = .ok later)
    (hmem : m.world.disk.edit pause.edits ∈ states)
    (hlinkless : (m.world.disk.edit pause.edits).Linkless)
    (huntouched : Disk.Untouched config.output m.world.disk (m.world.disk.edit pause.edits)) :
    InStep settings config place states later := by
  obtain ⟨hsnapshot, hlook⟩ := Moment.next_eq_ok hnext
  have hhere := m.world.disk.edit_here pause.edits
  generalize m.world.disk.edit pause.edits = slept at *
  have hopens := h.opens.untouched huntouched hlinkless
  have hapart : slept.IsApart config.source place :=
    h.apart.keep hhere fun l hl hdirectory => huntouched.hasDirectory h.opens.leads hl hdirectory
  rcases hlook with ⟨hdisk, hbuilt, hpending⟩ | ⟨start, done, rfl, hdone, hwork⟩
  · -- nothing is built
    constructor <;> rw [hdisk]
    case linkless => exact hlinkless
    case opens => exact hopens
    case apart => exact hapart
    case seen => exact ⟨slept, hmem, hsnapshot, .refl config.source slept⟩
    case fresh =>
      intro hnone hsucceeded
      rw [hpending, List.append_eq_nil_iff] at hnone
      obtain ⟨content, hread, hfresh⟩ := h.fresh hnone.1 (hbuilt ▸ hsucceeded)
      -- the sources are what they were when the watcher last looked
      obtain ⟨seen, hseen, hbefore, hsame⟩ := h.seen
      have htree : SameTree config.source m.world.disk slept :=
        hsame.symm.trans (hfaithful seen hseen slept hmem _ _ hbefore hsnapshot
          (get?_of_differences hnone.2))
      refine ⟨content, ?_, (Site.freshPage_eq htree).trans hfresh⟩
      rw [config.page_eq] at hread ⊢
      exact h.opens.read_child huntouched hlinkless (by decide) (by decide) hread
  · -- a build begins on the disk as the pause has left it
    have hconfined : start.disk.Confined (place <:+ ·) done.disk := by
      have hkept : Storage.Ensures
          (fun world : World => start.disk.Confined (place <:+ ·) world.disk)
          (Site.build settings config) fun _ => True := Site.ensures_build_confined hopens
      have hresult := hkept start (.refl start.disk)
      rcases hwork with ⟨-, result, hbuild⟩ | ⟨-, failure, hbuild⟩
      · rw [hbuild] at hresult
        exact hresult.1
      · rw [hbuild] at hresult
        exact hresult
    have hsame : SameTree config.source start.disk done.disk :=
      Storage.sameTree_of_confined hlinkless hconfined hopens.directory hapart
    constructor <;> rw [hdone]
    case linkless => exact hlinkless.grows hconfined.grows
    case opens => exact hopens.grows hconfined.grows
    case apart => exact hapart.grows hconfined.grows
    case seen => exact ⟨start.disk, hmem, hsnapshot, hsame⟩
    case fresh =>
      intro _ hsucceeded
      rcases hwork with ⟨-, result, hbuild⟩ | ⟨hfailed, -⟩
      · obtain ⟨content, hread, hfresh⟩ := Site.read_page_of_opens hclean hbuild hopens
        exact ⟨content, hread, (Site.freshPage_eq hsame).trans hfresh⟩
      · rw [hfailed] at hsucceeded
        cases hsucceeded

/-- **A run keeps a session in step.** -/
lemma run {sleeps : List Slept} (h : InStep settings config place states m)
    (hclean : config.output.IsClean) (hfaithful : Faithful config.source states)
    (hrun : m.run settings config debounce pauses = .ok (sleeps, last))
    (hsleeps : ∀ slept ∈ sleeps, slept.after ∈ states ∧ slept.after.Linkless ∧
      Disk.Untouched config.output slept.before slept.after) :
    InStep settings config place states last := by
  induction pauses generalizing m sleeps with
  | nil =>
    obtain ⟨-, rfl⟩ := Prod.mk.inj (Except.ok.inj hrun)
    exact h
  | cons pause pauses ih =>
    obtain ⟨later, rest, hnext, hrest, rfl⟩ := Moment.run_cons_eq_ok hrun
    obtain ⟨hmem, hlinkless, huntouched⟩ := hsleeps _ (List.mem_cons_self ..)
    exact ih (h.next hclean hfaithful hnext hmem hlinkless huntouched) hrest
      fun slept hslept => hsleeps slept (List.mem_cons_of_mem _ hslept)

end InStep

/-! ## Watched sites -/

/-- **A watched site.**  A site without links is built and then watched through a list of pauses.
No pause makes links or touches the output directory, and stamps tell apart the sources as the build
and the pauses have left them. -/
structure Watched (settings : Settings) (config : Config) (debounce : Float) where
  /-- What there is before the build. -/
  world : World
  /-- No link lies on the disk. -/
  linkless : world.disk.Linkless
  /-- What the build has done. -/
  result : BuildResult
  /-- What there is after the build. -/
  started : World
  /-- The build succeeds. -/
  build : Site.build settings config world = .ok result started
  /-- What there is when the first snapshot is taken. -/
  waiting : World
  /-- Nothing has been changed since the build. -/
  unchanged : waiting.disk = started.disk
  /-- The first snapshot. -/
  snapshot : Snapshot
  /-- It can be taken. -/
  seen : started.disk.snapshot config.source = .ok snapshot
  /-- What happens before each look. -/
  pauses : List Pause
  /-- What that does to the disk. -/
  sleeps : List Slept
  /-- The moment after the last look. -/
  last : Moment
  /-- No look fails. -/
  run : Moment.run settings config debounce ⟨waiting, .start snapshot, true⟩ pauses =
    .ok (sleeps, last)
  /-- No pause makes links or touches the output directory. -/
  apart : ∀ slept ∈ sleeps,
    slept.after.Linkless ∧ Disk.Untouched config.output slept.before slept.after
  /-- Stamps tell the sources apart. -/
  faithful : Faithful config.source (started.disk :: sleeps.map (·.after))

/-- **Freshness.**  The sources of a watched site lie apart from its output directory.  Then after
every look at which nothing is held back, if the last build has succeeded, the page holds what would
be built from the disk as it is, and what any build that succeeds would put there. -/
theorem isFresh_of_watched {source output assets : Text} {mode : BuildMode}
    (site : Watched settings (.ofTexts source output assets mode) debounce)
    (hapart : site.world.disk.IsApart (Path.parse source)
      (nominal (site.world.disk.origin (Path.parse output)) (Path.parse output).parts))
    (hpending : site.last.watcher.pending = []) (hbuilt : site.last.built = true) :
    ∃ content, site.last.world.disk.read (Config.ofTexts source output assets mode).page =
        .ok content ∧
      Site.freshPage settings (.ofTexts source output assets mode) site.last.world.disk =
        .ok content ∧
      ∀ again : World, again.disk = site.last.world.disk → ∀ result after,
        Site.build settings (.ofTexts source output assets mode) again = .ok result after →
          after.disk.read (Config.ofTexts source output assets mode).page = .ok content := by
  have hclean : (Config.ofTexts source output assets mode).output.IsClean :=
    Path.isClean_parse output
  have hstart : InStep settings (.ofTexts source output assets mode) _
      (site.started.disk :: site.sleeps.map (·.after)) ⟨site.waiting, _, true⟩ :=
    .start hclean site.linkless hapart site.build site.seen site.unchanged (by simp)
  have hlast := hstart.run hclean site.faithful site.run fun slept hslept =>
    ⟨List.mem_cons_of_mem _ (List.mem_map_of_mem hslept), site.apart slept hslept⟩
  obtain ⟨content, hread, hfresh⟩ := hlast.fresh hpending hbuilt
  refine ⟨content, hread, hfresh, fun again hagain result after hbuild => ?_⟩
  obtain ⟨content', hread', hfresh'⟩ := Site.read_page_of_opens hclean hbuild (hagain ▸ hlast.opens)
  rw [hagain, hfresh] at hfresh'
  obtain rfl := Except.ok.inj hfresh'
  exact hread'

/-! ### A site with one source file -/

/-- All that lies below a path is one directory with one file in it. -/
def HoldsOneFile (disk : Disk) (root : Path) (directory name : Text) (stamp : Storage.Stamp) :
    Prop :=
  let file := (root.child directory).child name
  disk.isDirectory root = .ok true ∧ disk.list root = .ok [directory] ∧
    disk.isDirectory (root.child directory) = .ok true ∧
    disk.list (root.child directory) = .ok [name] ∧ disk.isDirectory file = .ok false ∧
    disk.stamps root [file] = .ok [(root.relativeTo file, stamp)]

instance (disk : Disk) (root : Path) (directory name : Text) (stamp : Storage.Stamp) :
    Decidable (HoldsOneFile disk root directory name stamp) :=
  inferInstanceAs (Decidable (_ ∧ _))

lemma HoldsOneFile.snapshot_eq {disk : Disk} {root : Path} {directory name : Text}
    {stamp : Storage.Stamp} (h : HoldsOneFile disk root directory name stamp) :
    disk.snapshot root =
      .ok [(root.relativeTo ((root.child directory).child name), stamp)] := by
  obtain ⟨hroot, hlist, hdirectory, hnames, hfile, hstamps⟩ := h
  have hone (name : Text) : Text.sort [name] = [name] := by simp [Text.sort]
  have houter : disk.look root [directory] = ⟨[], [root.child directory], none⟩ := by
    simp [Disk.look, hone, Disk.sortOut, hdirectory]
  have hinner : disk.look (root.child directory) [name] =
      ⟨[(root.child directory).child name], [], none⟩ := by
    simp [Disk.look, hone, Disk.sortOut, hfile]
  have hbelow : disk.filesFrom [root.child directory] =
      ⟨[(root.child directory).child name], none⟩ := by
    rw [Disk.filesFrom_visit [] hnames (by rw [hinner]), hinner]
    simp [Disk.filesFrom]
  have hwalk : disk.filesBelow root = ⟨[(root.child directory).child name], none⟩ := by
    simp only [Disk.filesBelow, hroot]
    rw [Disk.filesFrom_visit [] hlist (by rw [houter]), houter]
    simp [hbelow]
  rw [Disk.snapshot, hwalk]
  simp [hstamps]

/-- A disk with the sources of a site whose template is a single letter. -/
def letterDisk : Disk :=
  ((Disk.empty.putDirectory ["src"]).putDirectory ["templates", "src"]).putFile
    ["page.html", "templates", "src"] [65] (.fresh 0)

/-- What there is after a site has been built. -/
def builtWorld (config : Config) (disk : Disk) : World :=
  match Site.build Site.plainSettings config ⟨disk, .silent, 0.0⟩ with
  | .ok _ world => world
  | .error _ world => world

lemma build_eq_builtWorld {disk : Disk}
    (h : succeeds (Site.build Site.plainSettings config ⟨disk, .silent, 0.0⟩) fun _ _ => true) :
    ∃ result, Site.build Site.plainSettings config ⟨disk, .silent, 0.0⟩ =
      .ok result (builtWorld config disk) := by
  obtain ⟨result, world, hbuild, -⟩ := exists_of_succeeds h
  rw [builtWorld, hbuild]
  exact ⟨result, rfl⟩

/-- The path of the template and when it was written. -/
def letterSnapshot (stamp : Storage.Stamp) : Snapshot := [("templates/page.html", stamp)]

lemma snapshot_eq_letterSnapshot {disk : Disk} {stamp : Storage.Stamp}
    (h : HoldsOneFile disk (Path.parse "src") "templates" "page.html" stamp) :
    disk.snapshot Site.smallConfig.source = .ok (letterSnapshot stamp) := h.snapshot_eq

/-- A pause in which the letter is changed. -/
def editingPause : Pause :=
  ⟨0.5, [⟨Path.parse "src/templates/page.html", .file [66] (.given (.whole 1))⟩], false⟩

/-- A pause in which nothing happens. -/
def quietPause : Pause := ⟨2.0, [], false⟩

/-- The one change that a watcher finds. -/
def letterChange : FileChange := ⟨.modified, Path.parse "src/templates/page.html"⟩

section Session

variable {built edited : Disk} {world : World}

/-- The moment after the letter has been changed.  The change is held back for a second. -/
def heldMoment (edited : Disk) : Moment where
  world := ⟨edited, .silent, 0.0 + 0.5⟩
  watcher := ⟨letterSnapshot (.given (.whole 1)), [letterChange], 0.0 + 0.5⟩
  built := true

lemma next_editingPause (hedit : built.edit editingPause.edits = edited)
    (hsnapshot : edited.snapshot Site.smallConfig.source =
      .ok (letterSnapshot (.given (.whole 1)))) :
    Moment.next Site.plainSettings Site.smallConfig 1.0
      ⟨⟨built, .silent, 0.0⟩, .start (letterSnapshot (.fresh 0)), true⟩ editingPause =
        .ok (heldMoment edited) := by
  have hfound : differences Site.smallConfig.source (letterSnapshot (.fresh 0))
      (letterSnapshot (.given (.whole 1))) = [letterChange] := by decide
  have hheld : Watcher.holdsBack 1.0 (0.0 + 0.5) (0.0 + 0.5) true = true := by decide +kernel
  have hlook : (Watcher.start (letterSnapshot (.fresh 0))).look Site.smallConfig.source 1.0
      (0.0 + 0.5) (letterSnapshot (.given (.whole 1))) = ((heldMoment edited).watcher, none) := by
    simp [Watcher.look, Watcher.start, hfound, hheld, heldMoment]
  have hpassed : editingPause.passed ⟨built, .silent, 0.0⟩ = ⟨edited, .silent, 0.0 + 0.5⟩ := by
    rw [← hedit]
    rfl
  rw [Moment.next_of_held (m := ⟨⟨built, .silent, 0.0⟩, _, true⟩)
    (by rw [hpassed]; exact hsnapshot) (by rw [hpassed]; exact hlook), hpassed]
  rfl

lemma next_quietPause (hsnapshot : edited.snapshot Site.smallConfig.source =
      .ok (letterSnapshot (.given (.whole 1))))
    (hrespond : respond Site.plainSettings (Site.buildAgain Site.plainSettings Site.smallConfig)
      [letterChange] ⟨edited, .silent, 0.0 + 0.5 + 2.0⟩ = .ok true world) :
    (heldMoment edited).next Site.plainSettings Site.smallConfig 1.0 quietPause =
      .ok ⟨world, ⟨letterSnapshot (.given (.whole 1)), [], 0.0 + 0.5⟩, true⟩ := by
  have hsame : differences Site.smallConfig.source (letterSnapshot (.given (.whole 1)))
      (letterSnapshot (.given (.whole 1))) = [] := by decide
  have hquiet : Watcher.holdsBack 1.0 (0.0 + 0.5 + 2.0) (0.0 + 0.5) false = false := by
    decide +kernel
  have hlook : (heldMoment edited).watcher.look Site.smallConfig.source 1.0 (0.0 + 0.5 + 2.0)
      (letterSnapshot (.given (.whole 1))) =
        (⟨letterSnapshot (.given (.whole 1)), [], 0.0 + 0.5⟩, some [letterChange]) := by
    simp [Watcher.look, hsame, hquiet, heldMoment]
  have hpassed : quietPause.passed (heldMoment edited).world =
      ⟨edited, .silent, 0.0 + 0.5 + 2.0⟩ := rfl
  exact Moment.next_of_handed (by rw [hpassed]; exact hsnapshot) (by rw [hpassed]; exact hlook)
    (by rw [hpassed]; exact hrespond)

/-- The stamps tell the two letters apart. -/
lemma faithful_letter
    (hbefore : built.snapshot Site.smallConfig.source = .ok (letterSnapshot (.fresh 0)))
    (hafter : edited.snapshot Site.smallConfig.source =
      .ok (letterSnapshot (.given (.whole 1)))) :
    Faithful Site.smallConfig.source [built, edited, edited] := by
  intro first hfirst second hsecond before after hsnapshot hsnapshot' hsame
  have hdiffer : (letterSnapshot (.fresh 0)).get? "templates/page.html" ≠
      (letterSnapshot (.given (.whole 1))).get? "templates/page.html" := by decide
  simp only [List.mem_cons, List.not_mem_nil, or_false, or_self] at hfirst hsecond
  rcases hfirst with rfl | rfl <;> rcases hsecond with rfl | rfl
  · exact .refl _ _
  · obtain rfl := Except.ok.inj (hbefore.symm.trans hsnapshot)
    obtain rfl := Except.ok.inj (hafter.symm.trans hsnapshot')
    exact absurd (hsame "templates/page.html").symm hdiffer
  · obtain rfl := Except.ok.inj (hafter.symm.trans hsnapshot)
    obtain rfl := Except.ok.inj (hbefore.symm.trans hsnapshot')
    exact absurd (hsame "templates/page.html") hdiffer
  · exact .refl _ _

end Session

/-- The disk after the site has been built and the letter has been changed then. -/
def letterEdited : Disk := (builtWorld Site.smallConfig letterDisk).disk.edit editingPause.edits

lemma untouched_letterEdited : Disk.Untouched Site.smallConfig.output
    (builtWorld Site.smallConfig letterDisk).disk letterEdited := by
  have hbefore : (builtWorld Site.smallConfig letterDisk).disk.locate Site.smallConfig.output =
      .ok [("dist" : Text)] := by decide +kernel
  have hafter : letterEdited.locate Site.smallConfig.output = .ok [("dist" : Text)] := by
    decide +kernel
  have hnames : (builtWorld Site.smallConfig letterDisk).disk.face? [("dist" : Text)] =
      some (.directory [("index.html", none)]) := by decide +kernel
  refine Disk.untouched_of_files hbefore hafter hnames (by decide +kernel) fun name hname => ?_
  obtain rfl : name = "index.html" := by simpa using hname
  exact ⟨[65], .fresh 5, by decide +kernel, by decide +kernel⟩

lemma respond_letterEdited : ∃ world,
    respond Site.plainSettings (Site.buildAgain Site.plainSettings Site.smallConfig)
        [letterChange] ⟨letterEdited, .silent, 0.0 + 0.5 + 2.0⟩ = .ok true world ∧
      world.disk.read Site.smallConfig.page = .ok [66] := by
  have hresponds : succeeds (respond Site.plainSettings
      (Site.buildAgain Site.plainSettings Site.smallConfig) [letterChange]
      ⟨letterEdited, .silent, 0.0 + 0.5 + 2.0⟩) fun succeeded world =>
        decide (succeeded = true ∧ world.disk.read Site.smallConfig.page = .ok [66]) := by
    decide +kernel
  obtain ⟨succeeded, world, hrespond, hfound⟩ := exists_of_succeeds hresponds
  obtain ⟨rfl, hread⟩ := of_decide_eq_true hfound
  exact ⟨world, hrespond, hread⟩

lemma isApart_letterDisk : letterDisk.IsApart (Path.parse "src") [("dist" : Text)] := by
  refine ⟨by decide, by decide, fun front hfront hsuffix => ?_⟩
  have hnot : ∀ front ∈ (Path.parse "src").parts.inits,
      ¬ [("dist" : Text)] <:+ nominal (letterDisk.origin (Path.parse "src")) front := by decide
  exact absurd hsuffix (hnot front ((List.mem_inits _ _).2 hfront))

/-- The letter is changed, the change is held back for a second and handed on then, and the page
holds the new letter. -/
theorem isFresh_of_watched_letter :
    ∃ site : Watched Site.plainSettings Site.smallConfig 1.0,
      site.pauses = [editingPause, quietPause] ∧
      site.world.disk.IsApart (Path.parse "src")
        (nominal (site.world.disk.origin (Path.parse "dist")) (Path.parse "dist").parts) ∧
      site.last.watcher.pending = [] ∧ site.last.built = true ∧
      site.started.disk.read Site.smallConfig.page = .ok [65] ∧
      site.last.world.disk.read Site.smallConfig.page = .ok [66] ∧
      Site.freshPage Site.plainSettings Site.smallConfig site.last.world.disk = .ok [66] := by
  obtain ⟨result, hbuild⟩ : ∃ result, Site.build Site.plainSettings Site.smallConfig
      ⟨letterDisk, .silent, 0.0⟩ = .ok result (builtWorld Site.smallConfig letterDisk) :=
    build_eq_builtWorld (by decide +kernel)
  obtain ⟨world, hrespond, hread⟩ := respond_letterEdited
  have hlinkless : letterDisk.Linkless :=
    Disk.linkless_of_inventory (p := ⟨.root, []⟩) (by decide +kernel)
  have hstill : letterEdited.Linkless :=
    Disk.linkless_of_inventory (p := ⟨.root, []⟩) (by decide +kernel)
  have hbefore : (builtWorld Site.smallConfig letterDisk).disk.snapshot Site.smallConfig.source =
      .ok (letterSnapshot (.fresh 0)) := snapshot_eq_letterSnapshot (by decide +kernel)
  have hafter : letterEdited.snapshot Site.smallConfig.source =
      .ok (letterSnapshot (.given (.whole 1))) := snapshot_eq_letterSnapshot (by decide +kernel)
  have hfirst : (builtWorld Site.smallConfig letterDisk).disk.read Site.smallConfig.page =
      .ok [65] := by decide +kernel
  have huntouched := untouched_letterEdited
  have hedit : (builtWorld Site.smallConfig letterDisk).disk.edit editingPause.edits =
      letterEdited := rfl
  generalize letterEdited = edited at *
  generalize builtWorld Site.smallConfig letterDisk = started at *
  let site : Watched Site.plainSettings Site.smallConfig 1.0 :=
    { world := ⟨letterDisk, .silent, 0.0⟩
      linkless := hlinkless
      result
      started
      build := hbuild
      waiting := ⟨started.disk, .silent, 0.0⟩
      unchanged := rfl
      snapshot := letterSnapshot (.fresh 0)
      seen := hbefore
      pauses := [editingPause, quietPause]
      sleeps := [⟨started.disk, edited⟩, ⟨edited, edited⟩]
      last := ⟨world, ⟨letterSnapshot (.given (.whole 1)), [], 0.0 + 0.5⟩, true⟩
      run := by
        rw [Moment.run, next_editingPause hedit hafter]
        simp only [Moment.run, bind, Except.bind, next_quietPause hafter hrespond, pure,
          Except.pure, hedit]
        rfl
      apart := by
        intro slept hslept
        simp only [List.mem_cons, List.not_mem_nil, or_false] at hslept
        rcases hslept with rfl | rfl
        · exact ⟨hstill, huntouched⟩
        · exact ⟨hstill, rfl, fun _ _ _ _ => rfl⟩
      faithful := faithful_letter hbefore hafter }
  obtain ⟨content, hpage, hfresh, -⟩ := isFresh_of_watched site isApart_letterDisk rfl rfl
  obtain rfl : [66] = content := Except.ok.inj (hread.symm.trans hpage)
  exact ⟨site, rfl, isApart_letterDisk, rfl, rfl, hfirst, hread, hfresh⟩

/-! ### A path that leads through the output directory -/

/-- The same disk with one other asset. -/
def roundaboutDisk : Disk :=
  (letterDisk.putDirectory ["assets"]).putFile ["a.txt", "assets"] [97] (.fresh 1)

/-- A site whose sources are named through a directory that the build makes. -/
def roundaboutConfig : Config := .ofTexts "dist/assets/../../src" "dist" "assets" .reference

lemma next_roundabout {built : Disk}
    (hsnapshot : built.snapshot roundaboutConfig.source = .ok (letterSnapshot (.fresh 0))) :
    Moment.next Site.plainSettings roundaboutConfig 0.0
      ⟨⟨built, .silent, 0.0⟩, .start (letterSnapshot (.fresh 0)), true⟩ quietPause =
        .ok ⟨⟨built, .silent, 0.0 + 2.0⟩, .start (letterSnapshot (.fresh 0)), true⟩ := by
  have hsame : differences roundaboutConfig.source (letterSnapshot (.fresh 0))
      (letterSnapshot (.fresh 0)) = [] := by decide
  have hpassed : quietPause.passed ⟨built, .silent, 0.0⟩ = ⟨built, .silent, 0.0 + 2.0⟩ := rfl
  rw [Moment.next_of_held (m := ⟨⟨built, .silent, 0.0⟩, _, true⟩)
    (by rw [hpassed]; exact hsnapshot) (by simp [Watcher.look, Watcher.start, hsame]; rfl), hpassed]
  rfl

/-- **The way to the sources matters.**  The build does not find the sources, because the path to
them leads through a directory that it makes only later.  The page stays the default page. -/
theorem stale_roundabout :
    ∃ site : Watched Site.plainSettings roundaboutConfig 0.0,
      site.pauses = [quietPause] ∧
      (¬ nominal (site.world.disk.origin roundaboutConfig.output) roundaboutConfig.output.parts <:+
          nominal (site.world.disk.origin roundaboutConfig.source) roundaboutConfig.source.parts ∧
        ¬ nominal (site.world.disk.origin roundaboutConfig.source) roundaboutConfig.source.parts <:+
          nominal (site.world.disk.origin roundaboutConfig.output)
            roundaboutConfig.output.parts) ∧
      site.last.watcher.pending = [] ∧ site.last.built = true ∧
      ∃ content, Site.freshPage Site.plainSettings roundaboutConfig site.last.world.disk =
          .ok content ∧
        site.last.world.disk.read roundaboutConfig.page ≠ .ok content := by
  have hlinkless : roundaboutDisk.Linkless :=
    Disk.linkless_of_inventory (p := ⟨.root, []⟩) (by decide +kernel)
  have hplaces : nominal (roundaboutDisk.origin roundaboutConfig.source)
        roundaboutConfig.source.parts = [("src" : Text)] ∧
      nominal (roundaboutDisk.origin roundaboutConfig.output) roundaboutConfig.output.parts =
        [("dist" : Text)] := by decide
  have hbuilds : succeeds (Site.build Site.plainSettings roundaboutConfig
      ⟨roundaboutDisk, .silent, 0.0⟩) fun _ started =>
        decide (HoldsOneFile started.disk roundaboutConfig.source "templates" "page.html"
            (.fresh 0) ∧
          Site.freshPage Site.plainSettings roundaboutConfig started.disk = .ok [65] ∧
          started.disk.read roundaboutConfig.page ≠ .ok [65]) := by decide +kernel
  obtain ⟨result, started, hbuild, hfound⟩ := exists_of_succeeds hbuilds
  obtain ⟨hholds, hfresh, hread⟩ := of_decide_eq_true hfound
  have hsnapshot : started.disk.snapshot roundaboutConfig.source =
      .ok (letterSnapshot (.fresh 0)) := hholds.snapshot_eq
  obtain ⟨ready, hgrows, -, hconfined, -⟩ :=
    Site.freshPage_of_build (Path.isClean_parse "dist") hbuild hlinkless
  let site : Watched Site.plainSettings roundaboutConfig 0.0 :=
    { world := ⟨roundaboutDisk, .silent, 0.0⟩
      linkless := hlinkless
      result
      started
      build := hbuild
      waiting := ⟨started.disk, .silent, 0.0⟩
      unchanged := rfl
      snapshot := letterSnapshot (.fresh 0)
      seen := hsnapshot
      pauses := [quietPause]
      sleeps := [⟨started.disk, started.disk⟩]
      last := ⟨⟨started.disk, .silent, 0.0 + 2.0⟩, .start (letterSnapshot (.fresh 0)), true⟩
      run := by
        rw [Moment.run, next_roundabout hsnapshot]
        rfl
      apart := by
        intro slept hslept
        obtain rfl := List.mem_singleton.1 hslept
        exact ⟨(hlinkless.grows hgrows).grows hconfined.grows, rfl, fun _ _ _ _ => rfl⟩
      faithful := by
        intro first hfirst second hsecond _ _ _ _ _
        obtain rfl : first = started.disk := by simpa using hfirst
        obtain rfl : second = started.disk := by simpa using hsecond
        exact .refl _ _ }
  refine ⟨site, rfl, ?_, rfl, rfl, [65], hfresh, hread⟩
  change ¬ nominal (roundaboutDisk.origin _) _ <:+ nominal (roundaboutDisk.origin _) _ ∧
    ¬ nominal (roundaboutDisk.origin _) _ <:+ nominal (roundaboutDisk.origin _) _
  rw [hplaces.1, hplaces.2]
  decide

end Watch

end OnePage
