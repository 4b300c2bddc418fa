import SourceSweep.Proofs.Files.Visited
import SourceSweep.Proofs.Run.DryRun

/-! Where a run may write: to the files that its scans come to, and to the temporary files beside them. -/
namespace SourceSweep.Run
open Text Files Store

/-- A file that a run may edit: below the source directory, reached through directories that stand there
themselves and are not ignored, of a kind that one of the passes edits, and not one of the engine's. -/
structure Editable (host : Host) (store : Store) (choice : Choice) (source : Text) (dir : Location)
    (site : Site) : Prop where
  visits : Visits host store source dir site.folder site.dir
  file : ∃ mode bytes, store.get? site.place = some (.file mode bytes)
  kind : choice.stripCalls = true ∧ lower (extension site.name) ∈ scriptExtensions ∨
    choice.pruneRules = true ∧ lower (extension site.name) ∈ styleExtensions
  foreign : host.isEngineFile store site.path = .ok false

theorem lowerKinds : scriptExtensions.map lower = scriptExtensions ∧
    styleExtensions.map lower = styleExtensions := by
  decide +kernel

theorem scannedSite {host : Host} {store : Store} (tree : store.Tree) {kinds : List Text} {source : Text}
    {dir : Location} (folder : Folder store source dir) {scan : Scan}
    (scanned : host.scan store kinds source = .ok scan) {site : Site} (standing : Standing store site)
    (mem : site.path ∈ scan.files) : Visits host store source dir site.folder site.dir ∧
      lower (extension site.name) ∈ kinds.map lower ∧ host.isEngineFile store site.path = .ok false := by
  obtain ⟨start, inner, spot, name, visits, checked, same, foreign⟩ := (Host.memScan tree scanned).mp mem
  cases Host.listSame (folder.within _) (visits.listed checked.listed)
  obtain ⟨node, held⟩ := memNamesIn.mp checked.named
  have reached := visits.folder tree folder
  have apart := joinApart reached.given reached.closed (Host.legalOf tree held).toSolidName
  have apart' := joinApart standing.folder.given standing.folder.closed standing.legal.toSolidName
  rw [show join site.folder site.name = join inner name from same] at apart'
  obtain rfl : name = site.name := apart.1.symm.trans apart'.1
  obtain rfl : inner = site.folder := apart.2.symm.trans apart'.2
  cases reached.same standing.folder
  exact ⟨visits, checked.kind, foreign⟩

section
variable {host : Host} {edit : Edit} {store now : Store} {done : List Site}
  (swept : Host.Swept host edit store done now) (standing : ∀ site ∈ done, Standing store site)
include swept standing

theorem sweptTouches {location : Location} (changed : now.get? location ≠ store.get? location) :
    ∃ site ∈ done, accept site.path = .ok () ∧
      (location = site.place ∨ Host.Leftover host store site location) := by
  by_cases apart : ∀ site ∈ done, location ≠ site.place
  · obtain ⟨site, mem, left⟩ := swept.others location apart changed
    exact ⟨site, mem, left.taken, .inr left⟩
  · obtain ⟨site, mem, rfl⟩ : ∃ site ∈ done, location = site.place := by simpa using apart
    refine ⟨site, mem, ?_, .inl rfl⟩
    cases outcome : (host.rewrite edit store site.path).1 with
    | error failure =>
      have held := swept.held site mem
      rw [outcome] at held
      exact absurd held changed
    | ok texts => exact Host.readTaken (standing site mem) (rewriteOk outcome).1

end

section
variable {host : Host} {store : Store} {root : Datum} {choice : Choice} {place : Text}
  {scripts styles : Scan} {first second : List Site} (tree : store.Tree)
  (ready : Ready host store root choice place scripts styles)
  (found : Found store scripts styles first second) {dir : Location}
  (folder : Folder store (join place "src".toList) dir)
include tree ready found folder

theorem scriptEditable (strips : choice.stripCalls = true) {site : Site} (mem : site ∈ first)
    (taken : accept site.path = .ok ()) :
    Editable host store choice (join place "src".toList) dir site := by
  have listed : site.path ∈ scripts.files := found.scripts ▸ List.mem_map_of_mem mem
  obtain ⟨visits, kind, foreign⟩ := scannedSite tree folder ready.scripts (found.script mem) listed
  exact ⟨visits, (found.script mem).file taken, .inl ⟨strips, lowerKinds.1 ▸ kind⟩, foreign⟩

theorem styleEditable {site : Site} (mem : site ∈ second) (taken : accept site.path = .ok ()) :
    Editable host store choice (join place "src".toList) dir site := by
  have listed : site.path ∈ styles.files := found.styles ▸ List.mem_map_of_mem mem
  have scanned := ready.styles
  split at scanned
  · rename_i prunes
    obtain ⟨visits, kind, foreign⟩ := scannedSite tree folder scanned (found.style mem) listed
    exact ⟨visits, (found.style mem).file taken, .inr ⟨prunes, lowerKinds.2 ▸ kind⟩, foreign⟩
  · cases scanned
    cases listed

theorem passesConfined (plain : host.PlainTags) (real : choice.dryRun = false) {start middle sweep : Sweep}
    (same : start.store = store) (waits : start.pending = [])
    (strips : halfway host choice scripts.files start = middle)
    (prunes : styles.files.foldl (Sweep.pruneFile host choice scripts.files) middle = sweep)
    {location : Location} (changed : sweep.store.get? location ≠ store.get? location) :
    ∃ site, Editable host store choice (join place "src".toList) dir site ∧
      (location = site.place ∨ Host.Leftover host store site location) := by
  have stripped := scriptsPassed found plain real same
  rw [strips] at stripped
  have grown : store.Grown middle.store := same ▸ stripped.swept.grown
  have later := found.later grown
  have pruned := stylesPassed later plain real rfl (stripped.pending.trans waits)
  rw [prunes] at pruned
  subst same
  by_cases before : middle.store.get? location = start.store.get? location
  · obtain ⟨site, mem, taken, touched⟩ :=
      sweptTouches pruned.swept (fun site mem => later.style mem) (before ▸ changed)
    exact ⟨site, styleEditable tree ready found folder mem taken,
      touched.imp_right (Host.Leftover.earlier grown)⟩
  · obtain ⟨site, mem, taken, touched⟩ := sweptTouches stripped.swept (found.passing choice) before
    split at mem
    · rename_i strip
      exact ⟨site, scriptEditable tree ready found folder strip mem taken, touched⟩
    · cases mem

end

theorem dryUnchanged {host : Host} {store : Store} {root : Datum} {choice : Choice} {place : Text}
    {scripts styles : Scan} (ready : Ready host store root choice place scripts styles)
    (dry : choice.dryRun = true) {sweep : Sweep} (ran : run host store root choice = .ok sweep) :
    sweep.store = store := by
  obtain ⟨same, waits, _⟩ := begunKeeps store place scripts styles
  rw [readyPasses ready] at ran
  cases ran
  obtain ⟨stripped, _⟩ :=
    @dryHalfway host choice dry scripts.files (begun store place scripts styles) waits
  obtain ⟨pruned, _⟩ := @dryPrune host choice dry scripts.files styles.files
    (halfway host choice scripts.files (begun store place scripts styles))
  exact pruned.trans (stripped.trans same)

/-- Whatever stands in the tree and whatever calls fail, each entry that a run makes, changes or removes is
a file that it may edit, or a temporary file beside one that could not be removed. -/
theorem runConfined {host : Host} {store : Store} {root : Datum} {choice : Choice} {sweep : Sweep}
    (tree : store.Tree) (plain : host.PlainTags) (ran : run host store root choice = .ok sweep)
    {location : Location} (changed : sweep.store.get? location ≠ store.get? location) :
    choice.dryRun = false ∧ ∃ place dir site, validateRoot host store root = .ok place ∧
      Folder store (join place "src".toList) dir ∧
      Editable host store choice (join place "src".toList) dir site ∧
      (location = site.place ∨ Host.Leftover host store site location) := by
  by_cases comes : ∃ place scripts styles, Ready host store root choice place scripts styles
  · obtain ⟨place, scripts, styles, ready⟩ := comes
    cases real : choice.dryRun with
    | true => exact absurd (congrArg (·.get? location) (dryUnchanged ready real ran)) changed
    | false =>
      obtain ⟨dir, folder⟩ := ready.folder
      obtain ⟨first, second, found⟩ := ready.found tree
      obtain ⟨same, waits, _⟩ := begunKeeps store place scripts styles
      rw [readyPasses ready] at ran
      cases ran
      obtain ⟨site, editable, touched⟩ :=
        passesConfined tree ready found folder plain real same waits rfl rfl changed
      exact ⟨rfl, place, dir, site, ready.valid, folder, editable, touched⟩
  · have unready : ∀ place scripts styles, ¬ Ready host store root choice place scripts styles :=
      fun place scripts styles ready => comes ⟨place, scripts, styles, ready⟩
    exact absurd (congrArg (·.get? location) ((runUnready unready rfl).2 sweep ran)) changed

theorem strippedScriptConfined : scriptAndStyle.Tree ∧ refusingHost.PlainTags ∧
    ∃ sweep, run refusingHost scriptAndStyle (.text "/p".toList) ⟨false, true, true⟩ = .ok sweep ∧
      sweep.store.get? ["b.css".toList, "src".toList, "p".toList] ≠
        scriptAndStyle.get? ["b.css".toList, "src".toList, "p".toList] ∧
      ∃ dir site, Editable refusingHost scriptAndStyle ⟨false, true, true⟩ "/p/src".toList dir site ∧
        (["b.css".toList, "src".toList, "p".toList] = site.place ∨
          Host.Leftover refusingHost scriptAndStyle site ["b.css".toList, "src".toList, "p".toList]) := by
  have tree : scriptAndStyle.Tree := by decide +kernel
  have plain : refusingHost.PlainTags := by decide
  have ready : Ready refusingHost scriptAndStyle (.text "/p".toList) ⟨false, true, true⟩ "/p".toList
      ⟨["/p/src/a.js".toList], []⟩ ⟨["/p/src/b.css".toList], []⟩ := by
    constructor <;> rfl
  have ran := readyRun ready
  generalize ended : (Sweep.passes refusingHost ⟨false, true, true⟩ _ _ _).finish = sweep at ran
  have changed : sweep.store.get? ["b.css".toList, "src".toList, "p".toList] ≠
      scriptAndStyle.get? ["b.css".toList, "src".toList, "p".toList] := by
    rw [← ended]
    decide +kernel
  obtain ⟨_, place, dir, site, valid, _, editable, touched⟩ := runConfined tree plain ran changed
  cases ready.valid.symm.trans valid
  exact ⟨tree, plain, sweep, ran, changed, dir, site, editable, touched⟩

end SourceSweep.Run
