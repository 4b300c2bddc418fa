import SourceSweep.Proofs.Files.Visited
import SourceSweep.Proofs.Run.Pointwise

/-! Runs that end in a report, and what keeps one from it: a path that cannot be resolved, or a source
directory that cannot be looked at. -/
namespace SourceSweep.Run
open Text Files Store

/-- Whether a path can be resolved: it holds no null, and nothing but the end of too many links is an
obstacle to looking at what it stands for. -/
def Resolvable (host : Host) (store : Store) (path : Text) : Prop :=
  hasNull path = false ∧ ∀ escape,
    host.stat store (store.realPath host.workDir (tidy path)) = .error escape →
      ∃ error, escape = .system error ∧ error.number? ≠ some Errno.linkLoop

theorem resolvableIff {host : Host} {store : Store} {path : Text} :
    Resolvable host store path ↔ ∃ real, host.resolve store path = .ok real := by
  unfold Resolvable Host.resolve
  dsimp only
  generalize store.realPath host.workDir (tidy path) = real
  cases hasNull path with
  | true => simp
  | false =>
    cases host.stat store real with
    | ok node => simp
    | error escape =>
      cases escape with
      | system error => by_cases loops : error.number? = some Errno.linkLoop <;> simp [loops]
      | _ => simp

theorem resolvedStat {host : Host} {store : Store} {path real : Text}
    (resolved : host.resolve store path = .ok real) {escape : Escape}
    (refused : host.stat store real = .error escape) : ∃ error, escape = .system error := by
  obtain ⟨_, told⟩ := resolvableIff.mpr ⟨real, resolved⟩
  rw [← resolvedNamed resolved] at told
  obtain ⟨error, named, _⟩ := told escape refused
  exact ⟨error, named⟩

theorem statFails {host : Host} (system : host.OnlySystem) {store : Store} {path : Text} {escape : Escape}
    (fails : host.stat store path = .error escape) :
    escape = .nullInPath ∨ ∃ error, escape = .system error := by
  unfold Host.stat at fails
  cases sought : host.seek store .stat path with
  | ok place => simp [sought, Except.map] at fails
  | error refused =>
    rw [sought] at fails
    cases fails
    exact (Host.seekFails system sought).imp_left And.left

section
variable {host : Host} {store : Store} {root : Datum}

theorem rootTold : (∃ escape, validateRoot host store root = .error (.escape escape)) ↔
    ∃ path, root = .text path ∧ path ≠ [] ∧ ¬ Resolvable host store path := by
  constructor
  · rintro ⟨escape, refused⟩
    unfold validateRoot at refused
    split at refused
    · cases refused
    · rename_i given
      split at refused
      · rename_i path
        refine ⟨path, rfl, by simpa [Datum.isVoid] using given, fun resolves => ?_⟩
        obtain ⟨real, resolved⟩ := resolvableIff.mp resolves
        simp only [validatePath, resolved] at refused
        split at refused
        · rename_i stood
          obtain ⟨error, rfl⟩ := resolvedStat resolved stood
          cases refused
        · cases refused
        · cases refused
      · cases refused
  · rintro ⟨path, rfl, given, unresolved⟩
    rw [resolvableIff] at unresolved
    cases resolved : host.resolve store path with
    | ok real => exact absurd ⟨real, resolved⟩ unresolved
    | error escape => exact ⟨escape, by simp [validateRoot, Datum.isVoid, given, validatePath, resolved]⟩

theorem sourceTold (system : host.OnlySystem) (path : Text) :
    (∃ leads, leadsToDirectory host store path = .ok leads) ↔
      ∀ error, host.stat store path = .error (.system error) → meansAbsent error = true := by
  unfold leadsToDirectory
  cases stood : host.stat store path with
  | ok node =>
    simp only [reduceCtorEq, false_implies, implies_true, iff_true]
    rcases node with _ | ⟨_ | _ | _⟩ <;> exact ⟨_, rfl⟩
  | error escape =>
    obtain rfl | ⟨error, rfl⟩ := statFails system stood
    · simp
    · cases absent : meansAbsent error <;> simp [absent]

end

/-- What a run needs of a host for a report: its root can be resolved, a source directory that cannot be
looked at counts as absent, and every file that its scans look at can be resolved. -/
structure Answered (host : Host) (store : Store) (root : Datum) (choice : Choice) : Prop where
  rootResolves : ∀ path, root = .text path → path ≠ [] → Resolvable host store path
  sourceSeen : ∀ place, validateRoot host store root = .ok place → ∀ error,
    host.stat store (join place "src".toList) = .error (.system error) → meansAbsent error = true
  filesResolve : ∀ place dir, validateRoot host store root = .ok place →
    leadsToDirectory host store (join place "src".toList) = .ok true →
    Folder store (join place "src".toList) dir →
    ∀ kinds, (kinds = scriptExtensions ∨ choice.pruneRules = true ∧ kinds = styleExtensions) →
    ∀ inner spot name, Visits host store (join place "src".toList) dir inner spot →
      Checked host store (kinds.map lower) inner spot name → Resolvable host store (join inner name)

section
variable {host : Host} {store : Store} {root : Datum} {choice : Choice}

theorem rootless (refused : ∀ place, validateRoot host store root ≠ .ok place) {sweep : Sweep}
    (ran : run host store root choice = .ok sweep) :
    sweep.store = store ∧ ∃ problem, sweep.stats = ⟨0, 0, 0, [problem], [], none⟩ := by
  unfold run at ran
  cases valid : validateRoot host store root with
  | ok place => exact absurd valid (refused place)
  | error failure =>
    cases failure with
    | escape escape => simp [valid] at ran
    | problem problem =>
      simp only [valid] at ran
      cases ran
      exact ⟨rfl, problem, rfl⟩

theorem sourceless {place : Text} (valid : validateRoot host store root = .ok place)
    (absent : leadsToDirectory host store (join place "src".toList) = .ok false) {sweep : Sweep}
    (ran : run host store root choice = .ok sweep) : sweep.store = store ∧
      sweep.stats = ⟨0, 0, 0, [], [.sourceDirAbsent (join place "src".toList)], some place⟩ := by
  unfold run at ran
  simp only [valid, absent, bind, Except.bind] at ran
  cases ran
  exact ⟨rfl, rfl⟩

theorem runFound {place : Text} (valid : validateRoot host store root = .ok place) {sweep : Sweep}
    (ran : run host store root choice = .ok sweep) :
    ∃ leads, leadsToDirectory host store (join place "src".toList) = .ok leads ∧
      (leads = true → ∃ scripts styles, Ready host store root choice place scripts styles) := by
  unfold run at ran
  simp only [valid] at ran
  obtain ⟨leads, source, ran⟩ := bindOkIff.mp ran
  refine ⟨leads, source, ?_⟩
  rintro rfl
  obtain ⟨scripts, one, ran⟩ := bindOkIff.mp ran
  dsimp only at ran
  split at ran
  · rename_i prunes
    obtain ⟨styles, two, _⟩ := bindOkIff.mp ran
    exact ⟨scripts, styles, valid, source, one, (if_pos prunes).trans two⟩
  · rename_i keeps
    exact ⟨scripts, Scan.none, valid, source, one, if_neg keeps⟩

variable (tree : store.Tree) (system : host.OnlySystem)
include tree system

theorem scanEnds (kinds : List Text) {path : Text} {dir : Location} (folder : Folder store path dir) :
    (∃ scan, host.scan store kinds path = .ok scan) ↔ ∀ inner spot name,
      Visits host store path dir inner spot → Checked host store (kinds.map lower) inner spot name →
      Resolvable host store (join inner name) := by
  simp only [resolvableIff]
  rw [Host.scanTold tree system folder.clean]
  refine ⟨fun told => told dir, fun told start inner spot name visits checked => ?_⟩
  cases Host.listSame (folder.within _) (visits.listed checked.listed)
  exact told inner spot name visits checked

theorem answeredOf {sweep : Sweep} (ran : run host store root choice = .ok sweep) :
    Answered host store root choice where
  rootResolves path same given := by
    by_contra unresolved
    obtain ⟨escape, refused⟩ := rootTold.mpr ⟨path, same, given, unresolved⟩
    simp [run, refused] at ran
  sourceSeen place valid := by
    obtain ⟨leads, source, _⟩ := runFound valid ran
    exact (sourceTold system _).mp ⟨leads, source⟩
  filesResolve place dir valid source folder kinds which := by
    obtain ⟨leads, source', ready⟩ := runFound valid ran
    cases source.symm.trans source'
    obtain ⟨scripts, styles, ready⟩ := ready rfl
    refine (scanEnds tree system kinds folder).mp ?_
    rcases which with rfl | ⟨prunes, rfl⟩
    · exact ⟨scripts, ready.scripts⟩
    · exact ⟨styles, by simpa [prunes] using ready.styles⟩

theorem answeredRuns (answered : Answered host store root choice) :
    ∃ sweep, run host store root choice = .ok sweep := by
  cases valid : validateRoot host store root with
  | error failure =>
    cases failure with
    | escape escape =>
      obtain ⟨path, same, given, unresolved⟩ := rootTold.mp ⟨escape, valid⟩
      exact absurd (answered.rootResolves path same given) unresolved
    | problem problem => exact ⟨_, by simp only [run, valid]; rfl⟩
  | ok place =>
    obtain ⟨leads, source⟩ := (sourceTold system _).mpr (answered.sourceSeen place valid)
    cases leads with
    | false => exact ⟨_, by simp only [run, valid, source, bind, Except.bind]; rfl⟩
    | true =>
      obtain ⟨dir, folder⟩ := sourceFolder valid source
      have ends := fun kinds which => (scanEnds tree system kinds folder).mpr
        (answered.filesResolve place dir valid source folder kinds which)
      obtain ⟨scripts, one⟩ := ends scriptExtensions (.inl rfl)
      have others : ∃ styles, (if choice.pruneRules then
          host.scan store styleExtensions (join place "src".toList) else .ok Scan.none) = .ok styles := by
        split
        · rename_i prunes
          exact ends styleExtensions (.inr ⟨prunes, rfl⟩)
        · exact ⟨_, rfl⟩
      obtain ⟨styles, two⟩ := others
      exact ⟨_, readyRun ⟨valid, source, one, two⟩⟩

end

/- A run ends in a report exactly if nothing that it looks at before its passes is in the way; a root or
a source directory that is refused is reported as the only problem, and nothing is changed. -/
theorem runAnswers {host : Host} {store : Store} {root : Datum} {choice : Choice} (tree : store.Tree)
    (system : host.OnlySystem) :
    ((∃ sweep, run host store root choice = .ok sweep) ↔ Answered host store root choice) ∧
    ∀ sweep, run host store root choice = .ok sweep →
      ((∀ place, validateRoot host store root ≠ .ok place) → sweep.store = store ∧
        ∃ problem, sweep.stats = ⟨0, 0, 0, [problem], [], none⟩) ∧
      ∀ place, validateRoot host store root = .ok place →
        leadsToDirectory host store (join place "src".toList) = .ok false → sweep.store = store ∧
          sweep.stats = ⟨0, 0, 0, [], [.sourceDirAbsent (join place "src".toList)], some place⟩ :=
  ⟨⟨fun ⟨_, ran⟩ => answeredOf tree system ran, answeredRuns tree system⟩, fun _ ran =>
    ⟨fun refused => rootless refused ran, fun _ valid absent => sourceless valid absent ran⟩⟩

theorem sourcelessAnswered : scriptAndStyle.Tree ∧ faultlessHost.OnlySystem ∧
    ∃ sweep, run faultlessHost scriptAndStyle (.text "/p/src".toList) ⟨false, true, true⟩ = .ok sweep ∧
      sweep.store = scriptAndStyle ∧ sweep.stats.errors = [] ∧
      sweep.stats.warnings = [.sourceDirAbsent "/p/src/src".toList] := by
  have tree : scriptAndStyle.Tree := by decide +kernel
  have system : faultlessHost.OnlySystem := fun fault mem => nomatch mem
  have valid : validateRoot faultlessHost scriptAndStyle (.text "/p/src".toList) = .ok "/p/src".toList := rfl
  have absent : leadsToDirectory faultlessHost scriptAndStyle "/p/src/src".toList = .ok false := rfl
  obtain ⟨answers, told⟩ :=
    @runAnswers faultlessHost scriptAndStyle (.text "/p/src".toList) ⟨false, true, true⟩ tree system
  have answered : Answered faultlessHost scriptAndStyle (.text "/p/src".toList) ⟨false, true, true⟩ := by
    refine ⟨fun path same _ => ?_, fun place other => ?_, fun place dir other source => ?_⟩
    · cases same
      exact resolvableIff.mpr ⟨_, rfl⟩
    · cases valid.symm.trans other
      exact (sourceTold system _).mp ⟨_, absent⟩
    · cases valid.symm.trans other
      cases absent.symm.trans source
  obtain ⟨sweep, ran⟩ := answers.mpr answered
  obtain ⟨same, stats⟩ := (told sweep ran).2 _ valid absent
  exact ⟨tree, system, sweep, ran, same, by rw [stats], by rw [stats]; rfl⟩

def loopStore : Store := (Store.empty.put [] (.dir dirMode)).put ["loop".toList] (.link "loop".toList)

def hidingHost : Host :=
  { faultlessHost with faults := [⟨.stat, "/p/src".toList, .errno Errno.accessDenied⟩] }

def loopingHost : Host :=
  { faultlessHost with faults := [⟨.stat, "/p/src/b.css".toList, .errno Errno.linkLoop⟩] }

theorem oneErrno (call : Call) (path : Text) (number : Errno) :
    ({ faultlessHost with faults := [⟨call, path, .errno number⟩] } : Host).OnlySystem := by
  intro fault mem text
  cases List.mem_singleton.mp mem
  exact Trouble.noConfusion

/- A root that links to itself, a source directory that may not be looked at, and a file whose path runs
into too many links each end a run without a report. -/
theorem runsEscape :
    (loopStore.Tree ∧ faultlessHost.OnlySystem ∧
      run faultlessHost loopStore (.text "/loop".toList) ⟨false, true, true⟩ =
        .error (.linkCycle "/loop".toList)) ∧
    (scriptAndStyle.Tree ∧ hidingHost.OnlySystem ∧
      run hidingHost scriptAndStyle (.text "/p".toList) ⟨false, true, true⟩ =
        .error (.system (.ofErrno Errno.accessDenied ["/p/src".toList]))) ∧
    loopingHost.OnlySystem ∧
      run loopingHost scriptAndStyle (.text "/p".toList) ⟨false, true, true⟩ =
        .error (.linkCycle "/p/src/b.css".toList) := by
  have tree : loopStore.Tree ∧ scriptAndStyle.Tree := by decide +kernel
  exact ⟨⟨tree.1, fun fault mem => (nomatch mem), rfl⟩, ⟨tree.2, oneErrno _ _ _, rfl⟩, oneErrno _ _ _, rfl⟩

end SourceSweep.Run
