import SourceSweep.Proofs.Files.Scanned
import SourceSweep.Run.Sweep

/-! Runs that come to the sources: the root is a directory, a source directory stands in it, and the
scans end. Such a run makes its passes over files of the store, each at a place of its own. -/
namespace SourceSweep.Run
open Text Files Store

structure Ready (host : Host) (store : Store) (root : Datum) (choice : Choice) (place : Text)
    (scripts styles : Scan) : Prop where
  valid : validateRoot host store root = .ok place
  source : leadsToDirectory host store (join place "src".toList) = .ok true
  scripts : host.scan store scriptExtensions (join place "src".toList) = .ok scripts
  styles : (if choice.pruneRules then host.scan store styleExtensions (join place "src".toList)
    else .ok Scan.none) = .ok styles

def begun (store : Store) (place : Text) (scripts styles : Scan) : Sweep :=
  let sweep := Sweep.start store
  let rooted := { sweep with stats := { sweep.stats with root := some place } }
  (((rooted.noteScan scripts).noteScan styles).warnOf scripts).warnOf styles

theorem noteScanKeeps (sweep : Sweep) (scan : Scan) : (sweep.noteScan scan).store = sweep.store ∧
    (sweep.noteScan scan).pending = sweep.pending ∧ (sweep.noteScan scan).stats = sweep.stats := by
  unfold Sweep.noteScan
  induction scan.failures generalizing sweep with
  | nil => exact ⟨rfl, rfl, rfl⟩
  | cons failure rest ih =>
    obtain ⟨store, pending, stats⟩ := ih (sweep.note (.notListed failure))
    exact ⟨store, pending, stats⟩

theorem warnAll (problems : List Problem) (stats : Stats) : problems.foldl Stats.warn stats =
    { stats with warnings := stats.warnings ++ problems } := by
  induction problems generalizing stats with
  | nil => simp
  | cons problem rest ih =>
    rw [List.foldl_cons, ih]
    simp [Stats.warn]

theorem begunStats (store : Store) (place : Text) (scripts styles : Scan) :
    (begun store place scripts styles).stats = { Stats.start with
      root := some place, warnings := (scripts.failures ++ styles.failures).map Problem.notListed } := by
  unfold begun Sweep.warnOf
  simp [noteScanKeeps, warnAll, Sweep.start, Stats.start]

theorem begunKeeps (store : Store) (place : Text) (scripts styles : Scan) :
    (begun store place scripts styles).store = store ∧
      (begun store place scripts styles).pending = [] ∧
      (begun store place scripts styles).stats.errors = [] := by
  rw [begunStats]
  unfold begun Sweep.warnOf
  simp only [noteScanKeeps]
  exact ⟨rfl, rfl, rfl⟩

theorem statFound {host : Host} {store : Store} {path : Text} {node : Option Node}
    (stood : host.stat store path = .ok node) : hasNull path = false ∧
      ∃ spot, store.find host.workDir path = .ok spot ∧ store.get? spot = node := by
  unfold Host.stat Host.seek at stood
  split at stood
  · cases stood
  · split at stood
    · cases stood
    · rename_i clean
      split at stood
      · rename_i spot found
        cases stood
        exact ⟨by simpa using clean, spot, found, rfl⟩
      · cases stood

theorem resolvedNamed {host : Host} {store : Store} {path real : Text}
    (resolved : host.resolve store path = .ok real) :
    real = store.realPath host.workDir (tidy path) := by
  unfold Host.resolve at resolved
  split at resolved
  · cases resolved
  · dsimp only at resolved
    split at resolved
    · cases resolved
      rfl
    · split at resolved <;> cases resolved
      rfl
    · cases resolved

theorem resolvedTrunk {host : Host} {store : Store} {path real : Text}
    (resolved : host.resolve store path = .ok real) (clean : hasNull real = false) : Trunk real := by
  cases resolvedNamed resolved
  have rooted := joinRooted host.workDir
    (resolveFrom (store.linkTarget? host.workDir) resolveDepth [] [] (tidy path)).path
  refine ⟨(normalNames rooted).1, clean, fun name mem => ?_⟩
  have solid := normalSolid rooted mem
  exact ⟨solid.notSelf, solid.notUp⟩

theorem validIff {host : Host} {store : Store} {root : Datum} {place : Text} :
    validateRoot host store root = .ok place ↔ ∃ path mode, root = .text path ∧ path ≠ [] ∧
      host.resolve store path = .ok place ∧ host.stat store place = .ok (some (.dir mode)) := by
  constructor
  · intro valid
    unfold validateRoot at valid
    split at valid
    · cases valid
    · rename_i given
      split at valid
      · rename_i path
        unfold validatePath at valid
        split at valid
        · cases valid
        · rename_i real resolved
          split at valid
          · cases valid
          · rename_i mode stood
            cases valid
            exact ⟨path, mode, rfl, by simpa [Datum.isVoid] using given, resolved, stood⟩
          · cases valid
      · cases valid
  · rintro ⟨path, mode, rfl, given, resolved, stood⟩
    simp [validateRoot, Datum.isVoid, given, validatePath, resolved, stood]

theorem validTrunk {host : Host} {store : Store} {root : Datum} {place : Text}
    (valid : validateRoot host store root = .ok place) : Trunk place := by
  obtain ⟨path, mode, _, _, resolved, stood⟩ := validIff.mp valid
  exact resolvedTrunk resolved (statFound stood).1

theorem leadsToDirectoryIff {host : Host} {store : Store} {path : Text} :
    leadsToDirectory host store path = .ok true ↔
      ∃ mode, host.stat store path = .ok (some (.dir mode)) := by
  unfold leadsToDirectory
  constructor
  · intro source
    split at source
    · rename_i mode stood
      exact ⟨mode, stood⟩
    · cases source
    · split at source <;> cases source
    · cases source
    · cases source
  · rintro ⟨mode, stood⟩
    rw [stood]

theorem sourceFolder {host : Host} {store : Store} {root : Datum} {place : Text}
    (valid : validateRoot host store root = .ok place)
    (source : leadsToDirectory host store (join place "src".toList) = .ok true) :
    ∃ dir, Folder store (join place "src".toList) dir := by
  have legal : LegalName "src".toList := by decide
  have trunk := (validTrunk valid).join legal
  have closed := joinClosed legal.toSolidName place
  obtain ⟨mode, stood⟩ := leadsToDirectoryIff.mp source
  obtain ⟨_, dir, found, held⟩ := statFound stood
  obtain ⟨_, leads⟩ := findIff.mp found
  rw [pathNamesClosed closed, origin, if_pos trunk.rooted] at leads
  exact ⟨dir, trunk, closed, leads, isDirIff.mpr ⟨mode, held⟩⟩

section
variable {host : Host} {store : Store} {root : Datum} {choice : Choice} {place : Text}
  {scripts styles : Scan} (ready : Ready host store root choice place scripts styles)
include ready

theorem readyRun : run host store root choice =
    .ok ((begun store place scripts styles).passes host choice scripts.files styles.files).finish := by
  obtain ⟨valid, source, found, others⟩ := ready
  unfold Run.run
  simp only [valid, source, bind, Except.bind, if_true, Sweep.ofSource, Sweep.start, found]
  by_cases prunes : choice.pruneRules = true
  · rw [if_pos prunes] at others
    rw [if_pos prunes, others]
    rfl
  · rw [if_neg prunes] at others
    cases others
    rw [if_neg prunes]
    rfl

theorem Ready.folder : ∃ dir, Folder store (join place "src".toList) dir :=
  sourceFolder ready.valid ready.source

structure Found (store : Store) (scripts styles : Scan) (first second : List Site) : Prop where
  scripts : scripts.files = first.map Site.path
  styles : styles.files = second.map Site.path
  standing : ∀ site ∈ first ++ second, Standing store site
  apart : ((first ++ second).map Site.place).Nodup

theorem Ready.found (tree : store.Tree) : ∃ first second, Found store scripts styles first second := by
  obtain ⟨dir, folder⟩ := ready.folder
  obtain ⟨first, files, one⟩ := Host.scanBelowSites tree folder ready.scripts
  have others := ready.styles
  split at others
  · obtain ⟨second, files', two⟩ := Host.scanBelowSites tree folder others
    refine ⟨first, second, files, files', fun site mem => ?_, ?_⟩
    · exact (List.mem_append.mp mem).elim (one.standing site) (two.standing site)
    · rw [List.map_append, List.nodup_append]
      refine ⟨one.apart, two.apart, fun place mem place' mem' same => ?_⟩
      obtain ⟨site, listed, rfl⟩ := List.mem_map.mp mem
      obtain ⟨other, listed', rfl⟩ := List.mem_map.mp mem'
      have kind := one.kind site listed
      have kind' := two.kind other listed'
      rw [(List.cons.inj same).1] at kind
      have disjoint : ∀ kind ∈ scriptExtensions.map lower, kind ∉ styleExtensions.map lower := by
        decide +kernel
      exact disjoint _ kind kind'
  · cases others
    exact ⟨first, [], files, rfl, by simpa using one.standing, by simpa using one.apart⟩

end
end SourceSweep.Run
