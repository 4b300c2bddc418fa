import SourceSweep.Text.Basic
import SourceSweep.Text.Word
import SourceSweep.Text.LowerCase
import SourceSweep.Text.Quoted
import SourceSweep.Text.Lines
import SourceSweep.Text.Utf8
import SourceSweep.Script.Strip
import SourceSweep.Text.Order
import SourceSweep.Style.Prune
import SourceSweep.Usage.Reference
import SourceSweep.Problem
import SourceSweep.Passes
import SourceSweep.Files.Store
import SourceSweep.Files.Content
import SourceSweep.Files.Scan
import SourceSweep.Run.Sweep
import SourceSweep.Cli.Program
import SourceSweep.Main
import SourceSweep.Proofs.Script.BlankRuns
import SourceSweep.Proofs.Script.Calls
import SourceSweep.Proofs.Script.Idempotence
import SourceSweep.Proofs.Files.Growth
import SourceSweep.Proofs.Files.PathNames
import SourceSweep.Proofs.Files.Replacement
import SourceSweep.Proofs.Text.Utf8
import SourceSweep.Proofs.Usage.Verdict
import SourceSweep.Proofs.Files.Atomicity
import SourceSweep.Proofs.Files.Folder
import SourceSweep.Proofs.Files.Standing
import SourceSweep.Proofs.Files.Scanned
import SourceSweep.Proofs.Files.Visited
import SourceSweep.Proofs.Files.Rewrite
import SourceSweep.Proofs.Run.Pass
import SourceSweep.Proofs.Run.Ready
import SourceSweep.Proofs.Run.Pointwise
import SourceSweep.Proofs.Run.Answered
import SourceSweep.Proofs.Run.DryRun
import SourceSweep.Proofs.Run.Confined
import SourceSweep.Proofs.Text.Order
import SourceSweep.Proofs.Files.Rescan
import SourceSweep.Proofs.Run.Composition
import SourceSweep.Proofs.Style.Chunks
import SourceSweep.Proofs.Style.KeptLines
import SourceSweep.Proofs.Usage.MoreScripts
import SourceSweep.Proofs.Text.Lines
import SourceSweep.Proofs.Text.Trim
import SourceSweep.Proofs.Style.Blocks
import SourceSweep.Proofs.Style.RulesStay
import SourceSweep.Proofs.Style.MaskedLines
import SourceSweep.Proofs.Script.WholeCalls
import SourceSweep.Proofs.Style.Masked
import SourceSweep.Proofs.Run.Clean
import SourceSweep.Proofs.Usage.PruneTwice
import SourceSweep.Proofs.Run.Rerun
import SourceSweep.Proofs.Run.Totals
import SourceSweep.Proofs.Cli.Arguments
import SourceSweep.Proofs.Cli.CleanExit
import SourceSweep.Proofs.Files.Traces
import SourceSweep.Proofs.Run.Order
import SourceSweep.Proofs.Script.Spans
import SourceSweep.Proofs.Script.LineBreaks
import SourceSweep.Proofs.Script.Groups
import SourceSweep.Proofs.Script.DeepCalls
import SourceSweep.Proofs.Style.Balance
import SourceSweep.Proofs.Text.Form
import SourceSweep.Proofs.Script.CallPattern
import SourceSweep.Proofs.Script.CallSpans
import SourceSweep.Proofs.Script.BlankPattern
import SourceSweep.Proofs.Script.BlankLines
import SourceSweep.Proofs.Script.Tokens
import SourceSweep.Proofs.Script.LineEnds
import SourceSweep.Proofs.Usage.Matched
import SourceSweep.Proofs.Usage.Meaning
import SourceSweep.Proofs.Usage.History
import SourceSweep.Proofs.Usage.Apart
import SourceSweep.Proofs.Usage.Listed
import SourceSweep.Proofs.Files.RoundTrip
import SourceSweep.Proofs.Files.Rewritable
import SourceSweep.Proofs.Files.Exact
import SourceSweep.Proofs.Run.Classified
import SourceSweep.Proofs.Text.Captured
import SourceSweep.Proofs.Style.ClassTokens
import SourceSweep.Proofs.Run.Course
import SourceSweep.Proofs.Style.SelectorPattern
