import SourceSweep.Script.Strip
import SourceSweep.Style.Prune
import SourceSweep.Usage.Checker

/-! The passes: pruning a stylesheet by what a checker finds in the scripts, and both passes on values
of any kind. What is no text is refused, and has no class names. -/
namespace SourceSweep
open Text Style Usage

namespace Usage.Checker

def judge (read : Reader) (checker : Checker) (name : Text) : Except Files.Escape Bool × Checker :=
  match checker.isUsed read name with
  | (.ok false, checker) => (.ok false, checker.note (.ruleDropped name))
  | (verdict, checker) => (verdict, checker)

def prune (read : Reader) (checker : Checker) (css : Text) : Except Files.Escape Text × Checker :=
  match pruneAsking (judge read) checker .start (lines css) with
  | (.ok state, checker) => (.ok state.text, checker)
  | (.error cause, checker) => (.error cause, checker)

end Usage.Checker

def stripValue : Datum → Except Problem Text
  | .text script => .ok (Script.strip script)
  | value => .error (.scriptNotText value.kindName)

def classNamesOfValue : Datum → List Text
  | .text css => Style.classNames css
  | _ => []

def pruneValue (read : Usage.Reader) (checker : Usage.Checker) :
    Datum → Except Failure Text × Usage.Checker
  | .text css =>
    match checker.prune read css with
    | (.ok pruned, checker) => (.ok pruned, checker)
    | (.error cause, checker) => (.error (.escape cause), checker)
  | value => (.error (.problem (.styleNotText value.kindName)), checker)

end SourceSweep
