import SourceSweep.Files.Content
import SourceSweep.Files.Scan
import SourceSweep.Files.RealPath
import SourceSweep.Passes

/-! A sweep of a project's sources: first every script is stripped, then every stylesheet pruned by
what the scripts now refer to. The failure of one file is recorded and the next file follows. -/
namespace SourceSweep.Run
open Text Files

structure Stats where
  callsRemoved : Int
  classesRemoved : Int
  filesProcessed : Nat
  errors : List Problem
  warnings : List Problem
  root : Option Text

namespace Stats

def start : Stats := ⟨0, 0, 0, [], [], none⟩

def warn (stats : Stats) (problem : Problem) : Stats :=
  { stats with warnings := stats.warnings ++ [problem] }

def fail (stats : Stats) (problem : Problem) : Stats :=
  { stats with errors := stats.errors ++ [problem] }

def count (stats : Stats) (calls classes : Int) : Stats :=
  { stats with
    callsRemoved := stats.callsRemoved + calls
    classesRemoved := stats.classesRemoved + classes
    filesProcessed := stats.filesProcessed + 1 }

end Stats

/-! The root of a project: a directory, given by any path to it. -/

def rootFailure (path : Text) : Escape → Failure
  | .system error =>
    .problem <|
      if error.isAbsent then .rootAbsent path
      else if error.isDenied then .rootDenied path
      else .rootUnreachable path error
  | escape => .escape escape

def validatePath (host : Host) (store : Store) (path : Text) : Except Failure Text :=
  match host.resolve store path with
  | .error escape => .error (.escape escape)
  | .ok root =>
    match host.stat store root with
    | .error escape => .error (rootFailure root escape)
    | .ok (some (.dir _)) => .ok root
    | .ok _ => .error (.problem (.rootNotDirectory root))

def validateRoot (host : Host) (store : Store) (root : Datum) : Except Failure Text :=
  if root.isVoid then .error (.problem (.rootMissing root))
  else match root with
    | .text path => validatePath host store path
    | value => .error (.problem (.rootNotPath value.kindName))

def meansAbsent (error : OsError) : Bool :=
  error.number?.any [Errno.noEntry, Errno.notDirectory, Errno.badDescriptor, Errno.linkLoop].contains

def leadsToDirectory (host : Host) (store : Store) (path : Text) : Except Escape Bool :=
  match host.stat store path with
  | .ok (some (.dir _)) => .ok true
  | .ok _ => .ok false
  | .error (.system error) => if meansAbsent error then .ok false else .error (.system error)
  | .error .nullInPath => .ok false
  | .error escape => .error escape

/-! The run. -/

structure Choice where
  dryRun : Bool
  stripCalls : Bool
  pruneRules : Bool
  deriving DecidableEq, Repr

structure Sweep where
  store : Store
  stats : Stats
  /-- Stripped scripts that a dry run did not write. -/
  pending : List (Text × Text)
  journal : List Event

namespace Sweep

def start (store : Store) : Sweep := ⟨store, .start, [], []⟩

def note (sweep : Sweep) (event : Event) : Sweep :=
  { sweep with journal := event :: sweep.journal }

def fail (sweep : Sweep) (path : Text) (failure : Failure) : Sweep :=
  { sweep with stats := sweep.stats.fail (failure.toProblem path) }.note (.fileFailed path failure)

def countCalls (sweep : Sweep) (path : Text) (calls : Int) : Sweep :=
  { sweep with stats := sweep.stats.count calls 0 }.note (.callsRemoved path calls)

def countClasses (sweep : Sweep) (path : Text) (classes : Int) : Sweep :=
  { sweep with stats := sweep.stats.count 0 classes }.note (.classesRemoved path classes)

def save (sweep : Sweep) (host : Host) (path content : Text) (count : Sweep → Sweep) : Sweep :=
  match host.write sweep.store path content with
  | (.ok (), store) => count { sweep with store }
  | (.error failure, store) => { sweep with store }.fail path failure

def stripFile (host : Host) (choice : Choice) (sweep : Sweep) (path : Text) : Sweep :=
  match host.read sweep.store path with
  | .error failure => sweep.fail path failure
  | .ok script =>
    let stripped := Script.strip script
    let calls := Script.strippedCount script
    if stripped = script then sweep
    else if choice.dryRun then
      { sweep with pending := sweep.pending ++ [(path, stripped)] }.countCalls path calls
    else sweep.save host path stripped (·.countCalls path calls)

def pruneFile (host : Host) (choice : Choice) (scripts : List Text) (sweep : Sweep) (path : Text) :
    Sweep :=
  match host.read sweep.store path with
  | .error failure => sweep.fail path failure
  | .ok css =>
    let (pruned, checker) :=
      (Usage.Checker.ofFiles scripts sweep.pending).prune (host.read sweep.store) css
    let sweep := { sweep with journal := checker.journal ++ sweep.journal }
    match pruned with
    | .error escape => sweep.fail path (.escape escape)
    | .ok pruned =>
      let classes : Int := Style.classCount css - Style.classCount pruned
      if pruned = css then sweep
      else if choice.dryRun then sweep.countClasses path classes
      else sweep.save host path pruned (·.countClasses path classes)

def warnOf (sweep : Sweep) (scan : Scan) : Sweep :=
  let warnings := scan.failures.map Problem.notListed
  { sweep with stats := warnings.foldl Stats.warn sweep.stats }

def noteScan (sweep : Sweep) (scan : Scan) : Sweep :=
  scan.failures.foldl (fun sweep failure => sweep.note (.notListed failure)) sweep

def finish (sweep : Sweep) : Sweep :=
  sweep.note (.finished sweep.stats.callsRemoved sweep.stats.classesRemoved
    sweep.stats.filesProcessed)

def passes (host : Host) (choice : Choice) (scripts styles : List Text) (sweep : Sweep) : Sweep :=
  let sweep := if choice.stripCalls then scripts.foldl (stripFile host choice) sweep else sweep
  if choice.pruneRules then styles.foldl (pruneFile host choice scripts) sweep else sweep

def ofSource (host : Host) (choice : Choice) (source : Text) (sweep : Sweep) :
    Except Escape Sweep := do
  let scripts ← host.scan sweep.store scriptExtensions source
  let styles ← if choice.pruneRules then host.scan sweep.store styleExtensions source
    else pure Scan.none
  let noted := (sweep.noteScan scripts).noteScan styles
  let warned := (noted.warnOf scripts).warnOf styles
  return (passes host choice scripts.files styles.files warned).finish

end Sweep

/-- A whole run on a project. It ends early, with nothing changed, when the root is refused, when
there is no source directory, or by a failure that it has no name for. -/
def run (host : Host) (store : Store) (root : Datum) (choice : Choice) : Except Escape Sweep :=
  let sweep := Sweep.start store
  match validateRoot host store root with
  | .error (.escape escape) => .error escape
  | .error (.problem problem) => .ok { sweep with stats := sweep.stats.fail problem }
  | .ok root => do
    let sweep := { sweep with stats := { sweep.stats with root := some root } }
    let source := join root "src".toList
    if ← leadsToDirectory host store source then sweep.ofSource host choice source
    else return { sweep with stats := sweep.stats.warn (.sourceDirAbsent source) }

end SourceSweep.Run
