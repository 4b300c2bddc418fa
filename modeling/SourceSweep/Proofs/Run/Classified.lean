import SourceSweep.Proofs.Files.FirstFailure
import SourceSweep.Proofs.Run.Answered
import SourceSweep.Proofs.Usage.History

/-! Failures of the system and the codes under which they are reported. A read or a write that fails is
reported by its first failure, and a run has a name for every file that failed, as long as temporary files
can be removed. -/
namespace SourceSweep.Run
open Text Files Store

theorem scannedNoNull {host : Host} {store : Store} {wanted : List Text} {depth : Nat} {path : Text}
    {scan : Scan} (scanned : host.scanBelow store wanted depth path = .ok scan) {file : Text}
    (mem : file ∈ scan.files) : hasNull file = false := by
  rw [Host.scanRoute scanned] at mem
  obtain ⟨_, _, among⟩ := List.mem_flatMap.mp mem
  obtain ⟨_, _, _, _, foreign⟩ := Host.memFilesAt.mp among
  exact (resolvableIff.mpr (Host.engineTold.mp ⟨false, foreign⟩)).1

/-- A problem with a name of its own, unless it is told of a file whose temporary file stays. -/
def Explained (host : Host) (problem : Problem) : Prop :=
  problem.code = .unknownError → ∃ path cause, problem = .unexpected path cause ∧
    (host.trouble? .removeTemp path).isSome

theorem namesExplained {host : Host} {failure : Failure} {error : OsError} {code : Code}
    (names : failure.Names error code) (known : code ≠ .unknownError) (path : Text) :
    Explained host (failure.toProblem path) := by
  obtain ⟨problem, rfl, coded⟩ := names
  intro unknown
  have same : Code.unknownError = if error.isDenied then .permissionDenied else code :=
    unknown.symm.trans coded
  split at same
  · cases same
  · exact absurd same.symm known

theorem rootExplained {host : Host} {store : Store} {root : Datum} {problem : Problem}
    (refused : validateRoot host store root = .error (.problem problem)) :
    problem.code ≠ .unknownError := by
  unfold validateRoot at refused
  split at refused
  · cases refused
    simp [Problem.code]
  · split at refused
    · unfold validatePath at refused
      split at refused
      · cases refused
      · split at refused
        · rename_i escape _
          cases escape with
          | system error =>
            simp only [rootFailure, Except.error.injEq, Failure.problem.injEq] at refused
            subst refused
            split_ifs <;> simp [Problem.code]
          | _ => cases refused
        · cases refused
        · cases refused
          simp [Problem.code]
    · cases refused
      simp [Problem.code]

section
variable {host : Host} (system : host.OnlySystem) {path : Text} (clean : hasNull path = false)
include system clean

theorem readExplained {store : Store} {failure : Failure}
    (fails : host.read store path = .error failure) : Explained host (failure.toProblem path) := by
  rcases Host.readFails system clean fails with ⟨_, defect, _, _, rfl⟩ | ⟨error, _, names⟩
  · exact fun unknown => by simp [Failure.toProblem, Problem.code] at unknown
  · exact namesExplained names (by decide) path

theorem readTold (store : Store) (cause : Escape) : host.read store path ≠ .error (.escape cause) := by
  intro fails
  rcases Host.readFails system clean fails with ⟨_, _, _, _, same⟩ | ⟨_, _, _, same, _⟩ <;> cases same

variable (free : host.NullFree)
include free

theorem writeExplained {store : Store} {content : Text} {failure : Failure}
    (fails : (host.write store path content).1 = .error failure) :
    Explained host (failure.toProblem path) := by
  rcases Host.writeFails system free clean fails with ⟨_, rfl⟩ | ⟨_, made, error, _, told⟩
  · exact fun unknown => by simp [Failure.toProblem, Problem.code] at unknown
  · split_ifs at told with removal
    · obtain ⟨error', rfl⟩ := told
      exact fun _ => ⟨path, .system error', rfl, removal.2⟩
    · exact namesExplained told (by decide) path

variable {choice : Choice} {sweep : Sweep} (before : ∀ problem ∈ sweep.stats.errors, Explained host problem)
include before

theorem saveExplained (content : Text) {count : Sweep → Sweep}
    (keeps : ∀ sweep, (count sweep).stats.errors = sweep.stats.errors) :
    ∀ problem ∈ (sweep.save host path content count).stats.errors, Explained host problem := by
  have told : ∀ failure, (host.write sweep.store path content).1 = .error failure →
      Explained host (failure.toProblem path) := fun _ => writeExplained system clean free
  unfold Sweep.save
  generalize host.write sweep.store path content = step at told ⊢
  obtain ⟨result, after⟩ := step
  cases result with
  | ok =>
    simp only [keeps]
    exact before
  | error failure => exact List.forall_mem_append.mpr ⟨before, by simpa using told failure rfl⟩

theorem stripFileExplained :
    ∀ problem ∈ (sweep.stripFile host choice path).stats.errors, Explained host problem := by
  unfold Sweep.stripFile
  cases found : host.read sweep.store path with
  | error failure =>
    exact List.forall_mem_append.mpr ⟨before, by simpa using readExplained system clean found⟩
  | ok script =>
    dsimp only
    split_ifs
    · exact before
    · exact before
    · exact saveExplained system clean free before _ fun _ => rfl

theorem pruneFileExplained {scripts : List Text} (solid : ∀ script ∈ scripts, hasNull script = false) :
    ∀ problem ∈ (sweep.pruneFile host choice scripts path).stats.errors, Explained host problem := by
  unfold Sweep.pruneFile
  cases found : host.read sweep.store path with
  | error failure =>
    exact List.forall_mem_append.mpr ⟨before, by simpa using readExplained system clean found⟩
  | ok css =>
    have told := fun script mem => readTold system (solid script mem) sweep.store
    have asked := (Usage.checkerPrunes scripts sweep.pending (host.read sweep.store) css).trans
      (Usage.pruneByTold (Usage.Checker.toldKnown told) css)
    dsimp only
    generalize (Usage.Checker.ofFiles scripts sweep.pending).prune (host.read sweep.store) css = step at asked
    obtain ⟨pruned, checker⟩ := step
    cases asked
    dsimp only
    split_ifs
    · exact before
    · exact before
    · exact saveExplained system clean free (show ∀ problem ∈ Stats.errors
        { sweep with journal := checker.journal ++ sweep.journal }.stats, _ from before) _ fun _ => rfl

end

theorem explainedAll {host : Host} {paths : List Text} {next : Sweep → Text → Sweep} {sweep : Sweep}
    (before : ∀ problem ∈ sweep.stats.errors, Explained host problem)
    (step : ∀ path ∈ paths, ∀ sweep : Sweep, (∀ problem ∈ sweep.stats.errors, Explained host problem) →
      ∀ problem ∈ (next sweep path).stats.errors, Explained host problem) :
    ∀ problem ∈ (paths.foldl next sweep).stats.errors, Explained host problem := by
  induction paths generalizing sweep with
  | nil => exact before
  | cons path rest ih =>
    obtain ⟨here, later⟩ := List.forall_mem_cons.mp step
    exact ih (here sweep before) later

theorem runExplained {host : Host} (system : host.OnlySystem) (free : host.NullFree) {store : Store}
    {root : Datum} {choice : Choice} {sweep : Sweep} (ran : run host store root choice = .ok sweep) :
    ∀ problem ∈ sweep.stats.errors, Explained host problem := by
  cases valid : validateRoot host store root with
  | error failure =>
    cases failure with
    | escape cause => simp [run, valid] at ran
    | problem problem =>
      simp only [run, valid, Except.ok.injEq] at ran
      subst ran
      exact List.forall_mem_singleton.mpr fun unknown => absurd unknown (rootExplained valid)
  | ok place =>
    obtain ⟨leads, source, comes⟩ := runFound valid ran
    cases leads with
    | false =>
      obtain ⟨_, stats⟩ := sourceless valid source ran
      simp [stats]
    | true =>
      obtain ⟨scripts, styles, ready⟩ := comes rfl
      obtain ⟨_, _, noErrors⟩ := begunKeeps store place scripts styles
      have first : ∀ path ∈ scripts.files, hasNull path = false := fun path =>
        scannedNoNull ready.scripts
      have second : ∀ path ∈ styles.files, hasNull path = false := by
        have scanned := ready.styles
        split at scanned
        · exact fun path => scannedNoNull scanned
        · cases scanned
          simp [Scan.none]
      cases (readyRun ready).symm.trans ran
      unfold Sweep.passes
      generalize begun store place scripts styles = start at noErrors
      have stripped : ∀ problem ∈ (if choice.stripCalls
          then scripts.files.foldl (Sweep.stripFile host choice) start else start).stats.errors,
          Explained host problem := by
        split_ifs
        · exact explainedAll (by simp [noErrors]) fun path mem sweep before =>
            stripFileExplained system (first path mem) free before
        · simp [noErrors]
      dsimp only [Sweep.finish, Sweep.note]
      generalize (if choice.stripCalls then scripts.files.foldl (Sweep.stripFile host choice) start
        else start) = middle at stripped
      split_ifs
      · exact explainedAll stripped fun path mem sweep before =>
          pruneFileExplained system (second path mem) free before first
      · exact stripped

/-- A read that fails, and a write that fails, is reported by the first call that failed, with the code
of a denied access if that is what it was; only where the temporary file cannot be removed either, the
error of the removal is told as it is. So a run leaves no file without a name for what went wrong, but
one whose temporary file could not be removed. -/
theorem failuresClassified {host : Host} (system : host.OnlySystem) (free : host.NullFree) :
    (∀ store path, hasNull path = false →
      (∀ failure, host.read store path = .error failure →
        (∃ bytes defect, host.open? store path = .ok bytes ∧ Utf8.decode bytes = .error defect ∧
          failure = .problem (.readUndecodable path defect)) ∨
        ∃ error, host.open? store path = .error (.system error) ∧ failure.Names error .fileReadError) ∧
      ∀ content,
        ((∃ after, host.write store path content = (.ok (), after)) ↔ ¬ host.Refuses store path ∧
          ∀ made cause, ¬ host.FirstFailure store path content made cause) ∧
        ∀ failure, (host.write store path content).1 = .error failure →
          host.Refuses store path ∧ failure = .problem (.writeDenied path) ∨
          ¬ host.Refuses store path ∧ ∃ made error,
            host.FirstFailure store path content made (.system error) ∧
            if made.isSome ∧ (host.trouble? .removeTemp path).isSome
            then ∃ removal, failure = .escape (.system removal)
            else failure.Names error .fileWriteError) ∧
    ∀ store root choice sweep, run host store root choice = .ok sweep →
      ∀ problem ∈ sweep.stats.errors, problem.code = .unknownError →
        ∃ path cause, problem = .unexpected path cause ∧ (host.trouble? .removeTemp path).isSome :=
  ⟨fun _ _ clean => ⟨fun _ => Host.readFails system clean, fun _ =>
      ⟨Host.writeOkIff, fun _ => Host.writeFails system free clean⟩⟩,
    fun _ _ _ _ ran => runExplained system free ran⟩

def brokenHost : Host :=
  { faultlessHost with faults := [⟨.replace, "/p/src/a.js".toList, .errno 5⟩] }

theorem brokenReplaceNamed : brokenHost.OnlySystem ∧ brokenHost.NullFree ∧ ∃ failure error,
    (brokenHost.write scriptAndStyle "/p/src/a.js".toList "x".toList).1 = .error failure ∧
      failure.Names error .fileWriteError := by
  have system : brokenHost.OnlySystem := by simp [Host.OnlySystem, brokenHost]
  have free : brokenHost.NullFree := by decide
  have first : ∃ made cause, brokenHost.FirstFailure scriptAndStyle "/p/src/a.js".toList "x".toList
      made cause := ⟨_, _, .replace rfl rfl rfl rfl rfl⟩
  obtain ⟨made, cause, first⟩ := first
  have told := ((failuresClassified system free).1 scriptAndStyle "/p/src/a.js".toList rfl).2 "x".toList
  refine ⟨system, free, ?_⟩
  generalize brokenHost.write scriptAndStyle "/p/src/a.js".toList "x".toList = step at told ⊢
  obtain ⟨result, after⟩ := step
  cases result with
  | ok => exact absurd first ((told.1.mp ⟨after, rfl⟩).2 made cause)
  | error failure =>
    rcases told.2 failure rfl with ⟨⟨_, denied⟩, _⟩ | ⟨_, made, error, _, names⟩
    · cases denied
    · exact ⟨failure, error, rfl, by rwa [if_neg (by rintro ⟨_, removal⟩; cases removal)] at names⟩

def strandedHost : Host := { faultlessHost with faults := [⟨.replace, "/p/src/a.js".toList, .errno 5⟩,
    ⟨.removeTemp, "/p/src/a.js".toList, .errno Errno.accessDenied⟩] }

def lockedHost : Host := { faultlessHost with faults := [⟨.replace, "/loop".toList, .errno Errno.accessDenied⟩] }

def loopTemp : Temp := ⟨"/.loop.x.tmp".toList, [".loop.x.tmp".toList]⟩

/- The error of the removal takes the place of the first failure, and a run has no name for it. A target
that cannot be looked at counts as absent: that failure, though the first, is not the one reported. -/
theorem firstFailuresLost :
    (strandedHost.OnlySystem ∧
      (∃ temp error, error.isDenied = false ∧ strandedHost.FirstFailure scriptAndStyle
        "/p/src/a.js".toList "x".toList (some temp) (.system error)) ∧
      (∃ removal, (strandedHost.write scriptAndStyle "/p/src/a.js".toList "x".toList).1 =
        .error (.escape (.system removal))) ∧
      ∃ sweep, run strandedHost scriptAndStyle (.text "/p".toList) ⟨false, true, true⟩ = .ok sweep ∧
        ∃ problem ∈ sweep.stats.errors, problem.code = .unknownError) ∧
    lockedHost.OnlySystem ∧ loopStore.find [] "/loop".toList = .error Errno.linkLoop ∧
      (lockedHost.write loopStore "/loop".toList "x".toList).1 =
        .error (.problem (.writeDenied "/loop".toList)) := by
  have system : strandedHost.OnlySystem := by simp [Host.OnlySystem, strandedHost]
  have first : ∃ temp error, error.isDenied = false ∧ strandedHost.FirstFailure scriptAndStyle
      "/p/src/a.js".toList "x".toList (some temp) (.system error) :=
    ⟨_, .ofErrno 5 _, rfl, .replace rfl rfl rfl rfl rfl⟩
  have removal : ∃ removal, (strandedHost.write scriptAndStyle "/p/src/a.js".toList "x".toList).1 =
      .error (.escape (.system removal)) := by
    obtain ⟨temp, error, _, first⟩ := first
    have stays : strandedHost.trouble? .removeTemp "/p/src/a.js".toList =
      some (.errno Errno.accessDenied) := by decide +kernel
    have told := Host.writeFailsIff.mpr (.inr ⟨fun refused => (by cases refused.2), _, _, first, rfl⟩)
    rw [Host.reportedStays stays] at told
    exact ⟨_, told⟩
  have ready : Ready strandedHost scriptAndStyle (.text "/p".toList) ⟨false, true, true⟩ "/p".toList
      ⟨["/p/src/a.js".toList], []⟩ ⟨["/p/src/b.css".toList], []⟩ := by
    constructor <;> rfl
  have unnamed : ((begun scriptAndStyle "/p".toList ⟨["/p/src/a.js".toList], []⟩
      ⟨["/p/src/b.css".toList], []⟩).passes strandedHost ⟨false, true, true⟩ ["/p/src/a.js".toList]
        ["/p/src/b.css".toList]).finish.stats.errors.any (·.code = .unknownError) = true := by
    decide +kernel
  have ran := readyRun ready
  dsimp only at ran
  obtain ⟨problem, mem, unknown⟩ := List.any_eq_true.mp unnamed
  have system' : lockedHost.OnlySystem := by simp [Host.OnlySystem, lockedHost]
  have loops : loopStore.find [] "/loop".toList = .error Errno.linkLoop := by decide +kernel
  have denied : (lockedHost.write loopStore "/loop".toList "x".toList).1 =
      .error (.problem (.writeDenied "/loop".toList)) := by
    have absent : (Host.filled loopStore loopTemp "x".toList).node? [] "/loop".toList = none := by
      decide +kernel
    have moded : lockedHost.copyMode (Host.filled loopStore loopTemp "x".toList) loopTemp "/loop".toList =
        .ok (Host.filled loopStore loopTemp "x".toList) := by
      simp only [Host.copyMode, lockedHost, faultlessHost, absent]
    have goes : lockedHost.trouble? .removeTemp "/loop".toList = none := by decide +kernel
    have told := Host.writeFailsIff.mpr
      (.inr ⟨fun refused => (by cases refused.2), _, _, .replace rfl rfl rfl moded rfl, rfl⟩)
    rw [Host.reportedGone goes] at told
    exact told
  exact ⟨⟨system, first, removal, _, ran, problem, mem, of_decide_eq_true unknown⟩, system',
    loops, denied⟩

end SourceSweep.Run
