import SourceSweep.Problem

/-! The log: one line for each event, with its level and the part of the engine it comes from. -/
namespace SourceSweep.Report
open Text

inductive Level where
  | debug
  | info
  | warning
  deriving DecidableEq, Repr

def Level.name : Level → Text
  | debug => "DEBUG".toList
  | info => "INFO".toList
  | warning => "WARNING".toList

def level : Event → Level
  | .fileFailed _ _ => .warning
  | .finished _ _ _ => .info
  | _ => .debug

def source : Event → Text
  | .notListed _ => "release_tools.file_scan".toList
  | .sourceSkipped _ _ | .ruleDropped _ => "release_tools.prune_unused_css".toList
  | _ => "release_tools.cleanup_run".toList

def describe : Event → Text
  | .notListed failure =>
    "scan failed for ".toList ++ failure.path ++ ": ".toList ++ failure.message
  | .sourceSkipped path cause =>
    "skipping unreadable source ".toList ++ path ++ ": ".toList ++ cause.message
  | .ruleDropped name => "dropping unused rule .".toList ++ name
  | .callsRemoved path count =>
    path ++ ": removed ".toList ++ ofInt count ++ " console.log".toList
  | .classesRemoved path count =>
    path ++ ": removed ".toList ++ ofInt count ++ " css classes".toList
  | .fileFailed path cause =>
    "cleanup failed for ".toList ++ path ++ ": ".toList ++ cause.message
  | .finished calls classes files =>
    "cleanup done: ".toList ++ ofInt calls ++ " console.log, ".toList ++ ofInt classes ++
      " css classes, ".toList ++ ofInt files ++ " files".toList

def logLine (event : Event) : Text :=
  (level event).name ++ ' ' :: source event ++ ": ".toList ++ describe event ++ ['\n']

def logText (everything : Bool) (journal : List Event) : Text :=
  (journal.reverse.filter fun event => everything || level event = .warning).flatMap logLine

end SourceSweep.Report
