import SourceSweep.Cli.Options
import SourceSweep.Report.Log
import SourceSweep.Report.Summary
import SourceSweep.Run.Sweep

/-! The tools: what each does with its arguments, prints, and leaves in the store. -/
namespace SourceSweep.Cli
open Text Files Run

inductive Tool where
  | cleanup
  | strip
  | prune
  deriving DecidableEq, Repr

namespace Tool

def tag : Tool → Text
  | cleanup => "CLEANUP".toList
  | strip => "STRIP-LOG".toList
  | prune => "PRUNE-CSS".toList

def choice (tool : Tool) (dryRun : Bool) : Choice := ⟨dryRun, tool ≠ .prune, tool ≠ .strip⟩

end Tool

structure Outcome where
  exitCode : Nat
  output : Text
  log : Text
  store : Store

def usage : Text :=
  "options: [-h] [--root ROOT] [--dry-run] [--json] [--verbose] [--fail-on-error]\n".toList

def exitCode (settings : Settings) (stats : Stats) : Nat :=
  if stats.root.isNone || (settings.has .failOnError && !stats.errors.isEmpty) then 1 else 0

def perform (tool : Tool) (settings : Settings) (host : Host) (store : Store) :
    Except Escape Outcome := do
  let dryRun := settings.has .dryRun
  let sweep ← run host store (.text settings.root) (tool.choice dryRun)
  let output := if settings.has .json then Report.statsJson sweep.stats
    else Report.summary tool.tag dryRun sweep.stats
  return ⟨exitCode settings sweep.stats, output,
    Report.logText (settings.has .verbose) sweep.journal, sweep.store⟩

/-- A tool's whole run. The preset root counts where no argument names one, and the working
directory where it is empty. -/
def main (tool : Tool) (arguments : List Text) (preset : Text) (host : Host) (store : Store) :
    Except Escape Outcome :=
  match read (if preset.isEmpty then selfName else preset) arguments with
  | .misuse => .ok ⟨2, [], usage, store⟩
  | .help => .ok ⟨0, usage, [], store⟩
  | .run settings => perform tool settings host store

end SourceSweep.Cli
