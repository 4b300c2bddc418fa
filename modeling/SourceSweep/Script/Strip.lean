import SourceSweep.Text.Lines

/-! Stripping a script: its log calls go, and what they leave of blank lines is collapsed. A text
without the token stays as it is. A call is the token, blanks, and a parenthesised group that nests at
most two further levels; with it go the blanks that follow, one semicolon, and the blanks after that.
Parentheses are counted as they stand, in literals too. -/
namespace SourceSweep.Script
open Text

def logToken : Text := "console.log".toList

/-- How deep a group may nest, the argument list itself included. -/
def depthLimit : Nat := 3

/-- How far it is to the parenthesis that closes a group of which `depth` levels are open, itself
included; nothing when the text ends first or when the group nests too deep. -/
def groupLength? : (depth : Nat) → Text → Option Nat
  | _, [] => none
  | depth, c :: rest =>
    if c = '(' then
      if depth < depthLimit then (groupLength? (depth + 1) rest).map (· + 1) else none
    else if c = ')' then
      if depth ≤ 1 then some 1 else (groupLength? (depth - 1) rest).map (· + 1)
    else (groupLength? depth rest).map (· + 1)

def blankLength (text : Text) : Nat := (text.takeWhile isBlank).length

def terminatorLength (text : Text) : Nat :=
  blankLength text + match skipBlanks text with
    | ';' :: rest => 1 + blankLength rest
    | _ => 0

def callLength? (text : Text) : Option Nat := do
  let rest ← logToken.isPrefixOf? text
  match skipBlanks rest with
  | '(' :: group =>
    let inner ← groupLength? 1 group
    some (logToken.length + blankLength rest + 1 + inner + terminatorLength (group.drop inner))
  | _ => none

/-- The text without its calls, found from left to right, when `pending` characters of the call
found last are still to be passed over. -/
def dropCallsAfter : (pending : Nat) → Text → Text
  | _, [] => []
  | pending + 1, _ :: rest => dropCallsAfter pending rest
  | 0, c :: rest =>
    match callLength? (c :: rest) with
    | some length => dropCallsAfter (length - 1) rest
    | none => c :: dropCallsAfter 0 rest

def dropCalls (text : Text) : Text := dropCallsAfter 0 text

/-- How often the token occurs, in literals and comments too. Two occurrences never overlap. -/
def tokenCount : Text → Nat
  | [] => 0
  | c :: rest => (if logToken.isPrefixOf (c :: rest) then 1 else 0) + tokenCount rest

/-! Runs of blank lines become one. A line counts as blank only when a line feed ends it, so the
last piece of a text never does; the line that stays keeps the terminator of the last of its run. -/

/-- The line that stands for a run: empty, or a carriage return if the run ended in one. -/
def runLine (last : Text) : Text := if last.getLast? = some '\r' then ['\r'] else []

def collapseLines : List Text → List Text
  | [] => []
  | [last] => [last]
  | [line, last] => [if allBlank line then runLine line else line, last]
  | line :: next :: rest =>
    if allBlank line then
      if allBlank next then collapseLines (next :: rest)
      else runLine line :: collapseLines (next :: rest)
    else line :: collapseLines (next :: rest)

def collapseBlankRuns (text : Text) : Text := unlines (collapseLines (lines text))

/-- At most two line feeds in a row, when `before` of them stand directly before the text. -/
def capFeedsAfter : (before : Nat) → Text → Text
  | _, [] => []
  | before, c :: rest =>
    if c = '\n' then
      if 2 ≤ before then capFeedsAfter before rest else c :: capFeedsAfter (before + 1) rest
    else c :: capFeedsAfter 0 rest

def capFeeds (text : Text) : Text := capFeedsAfter 0 text

def strip (script : Text) : Text :=
  if 0 < tokenCount script then capFeeds (collapseBlankRuns (dropCalls script)) else script

def strippedCount (script : Text) : Int := tokenCount script - tokenCount (strip script)

theorem stripOfNoToken {script : Text} (none : tokenCount script = 0) : strip script = script := by
  simp [strip, none]

end SourceSweep.Script
