import SourceSweep.Run.Sweep

/-! The statistics of a run, as a record in JSON and as lines to read. In JSON each member is on a line
of its own and two blanks further in than what holds it; characters beyond ASCII stand for themselves. -/
namespace SourceSweep.Report
open Text Run

def jsonChar (c : Char) : Text :=
  if c = quoteMark || c = backslash then [backslash, c]
  else if c = '\n' then [backslash, 'n']
  else if c = '\r' then [backslash, 'r']
  else if c = '\t' then [backslash, 't']
  else if c = '\x08' then [backslash, 'b']
  else if c = '\x0c' then [backslash, 'f']
  else if c.toNat < 0x20 then backslash :: 'u' :: hexDigits 4 c.toNat
  else [c]

def jsonText (text : Text) : Text := quoteMark :: text.flatMap jsonChar ++ [quoteMark]

def newLine (depth : Nat) : Text := '\n' :: List.replicate (2 * depth) ' '

def enclose (opening closing : Char) (depth : Nat) : List Text → Text
  | [] => [opening, closing]
  | first :: rest =>
    opening :: newLine (depth + 1) ++ first ++
      rest.flatMap (fun member => ',' :: newLine (depth + 1) ++ member) ++
      newLine depth ++ [closing]

mutual

def json (depth : Nat) : Datum → Text
  | .null => "null".toList
  | .bool value => if value then "true".toList else "false".toList
  | .int value => ofInt value
  | .decimal digits exponent => ofInt digits ++ 'e' :: ofInt exponent
  | .text value => jsonText value
  | .bytes value => enclose '[' ']' depth (value.map fun byte => Text.ofNat byte.toNat)
  | .list items => enclose '[' ']' depth (jsonItems (depth + 1) items)
  | .object fields => enclose '\x7b' '\x7d' depth (jsonFields (depth + 1) fields)

def jsonItems (depth : Nat) : List Datum → List Text
  | [] => []
  | item :: rest => json depth item :: jsonItems depth rest

def jsonFields (depth : Nat) : List (Text × Datum) → List Text
  | [] => []
  | (name, value) :: rest =>
    (jsonText name ++ ": ".toList ++ json depth value) :: jsonFields depth rest

end

def recordDatum (record : Record) : Datum :=
  .object [("code".toList, .text record.code), ("message".toList, .text record.message),
    ("details".toList, .object record.details)]

def statsDatum (stats : Stats) : Datum :=
  .object [("consoleLogsRemoved".toList, .int stats.callsRemoved),
    ("cssClassesRemoved".toList, .int stats.classesRemoved),
    ("filesProcessed".toList, .int stats.filesProcessed),
    ("errors".toList, .list (stats.errors.map fun problem => recordDatum problem.record)),
    ("warnings".toList, .list (stats.warnings.map fun problem => recordDatum problem.record))]

def statsJson (stats : Stats) : Text := json 0 (statsDatum stats) ++ ['\n']

def problemLine (mark : String) (problem : Problem) : Text :=
  '[' :: mark.toList ++ "] ".toList ++ problem.code.name ++ ": ".toList ++ problem.message ++ ['\n']

def summary (tag : Text) (dryRun : Bool) (stats : Stats) : Text :=
  stats.warnings.flatMap (problemLine "WARN") ++ stats.errors.flatMap (problemLine "ERROR") ++
    '[' :: tag ++ "] Cleanup complete: ".toList ++
    (if dryRun then "would remove" else "removed").toList ++ ' ' :: ofInt stats.callsRemoved ++
    " console.log, ".toList ++ ofInt stats.classesRemoved ++ " CSS classes; files changed: ".toList ++
    Text.ofNat stats.filesProcessed ++ ['\n']

end SourceSweep.Report
