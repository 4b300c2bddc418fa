import Mathlib.Data.List.SplitBy
import SourceSweep.Proofs.Script.BlankPattern
import SourceSweep.Proofs.Script.CallSpans

/-! The lines of a stripped script. Stripping is three replacements, one after the other; of each run of blank
lines that a line feed ends the second leaves one, and then there is nothing that the third could find. -/
namespace SourceSweep.Script
open Text

def bothBlank (line next : Text) : Bool := allBlank line && allBlank next

/-- The lines in runs, as long as they can be, of blank ones; any other line is a run by itself. -/
def blankRuns (lines : List Text) : List (List Text) := lines.splitBy bothBlank

theorem blankRunsWhole (lines : List Text) : (blankRuns lines).flatten = lines := List.flatten_splitBy bothBlank lines

theorem blankRunsFilled (lines : List Text) : [] ∉ blankRuns lines := List.nil_notMem_splitBy bothBlank lines

def standing (run : List Text) : Text :=
  if allBlank (run.getLastD []) then runLine (run.getLastD []) else run.getLastD []

theorem blankRunsOn {line next : Text} (both : bothBlank line next = true) {rest run : List Text}
    {runs : List (List Text)} (cut : blankRuns (next :: rest) = run :: runs) :
    blankRuns (line :: next :: rest) = (line :: run) :: runs := by
  obtain ⟨whole, filled, chains, apart⟩ := List.splitBy_eq_iff.mp cut
  have some : run ≠ [] := fun none => filled (none ▸ List.mem_cons_self)
  obtain ⟨first, more, rfl⟩ := List.exists_cons_of_ne_nil some
  obtain rfl : next = first := (List.cons.inj whole).1
  refine List.splitBy_eq_iff.mpr ⟨congrArg (line :: ·) whole, ?_, ?_, ?_⟩
  · simpa using filled
  · intro other mem
    rcases List.mem_cons.mp mem with rfl | mem
    · exact .cons_cons both (chains _ List.mem_cons_self)
    · exact chains other (List.mem_cons_of_mem _ mem)
  · cases runs with
    | nil => exact .singleton _
    | cons second runs =>
      obtain ⟨⟨_, head, off⟩, later⟩ := List.isChain_cons_cons.mp apart
      refine List.isChain_cons_cons.mpr ⟨⟨List.cons_ne_nil _ _, head, ?_⟩, later⟩
      rwa [List.getLast_cons (List.cons_ne_nil next more)]

theorem blankRunsEnd {line next : Text} (ends : bothBlank line next = false) (rest : List Text) :
    blankRuns (line :: next :: rest) = [line] :: blankRuns (next :: rest) := by
  have last : ∀ other ∈ [line].getLast?, bothBlank other next = false := by
    rintro _ ⟨⟩
    exact ends
  exact List.splitBy_append_cons (l := [line]) rest last

theorem standingOn (line : Text) {run : List Text} (some : run ≠ []) : standing (line :: run) = standing run := by
  obtain ⟨first, more, rfl⟩ := List.exists_cons_of_ne_nil some
  rw [standing, standing, List.getLastD_cons, List.getLastD_cons, List.getLastD_cons]

theorem standingOnly (line : Text) : standing [line] = if allBlank line then runLine line else line := rfl

theorem collapseRuns (earlier : List Text) (last : Text) :
    collapseLines (earlier ++ [last]) = (blankRuns earlier).map standing ++ [last] := by
  induction earlier with
  | nil => rfl
  | cons line rest ih =>
    cases rest with
    | nil => rfl
    | cons next rest =>
      have more : rest ++ [last] ≠ [] := List.append_ne_nil_of_right_ne_nil rest (List.cons_ne_nil last [])
      cases both : bothBlank line next with
      | true =>
        obtain ⟨first, second⟩ := Bool.and_eq_true_iff.mp both
        have filled : blankRuns (next :: rest) ≠ [] := List.splitBy_ne_nil.mpr (List.cons_ne_nil next rest)
        obtain ⟨run, runs, cut⟩ := List.exists_cons_of_ne_nil filled
        have among : run ∈ blankRuns (next :: rest) := by simp [cut]
        have kept := collapseBlankPair more first second
        rw [blankRunsOn both cut, List.map_cons, standingOn line (List.ne_nil_of_mem_splitBy among),
          ← List.map_cons, ← cut, ← ih]
        exact kept
      | false =>
        rw [blankRunsEnd both, List.map_cons]
        refine Eq.trans ?_ (congrArg (standing [line] :: ·) ih)
        rw [standingOnly]
        cases first : allBlank line with
        | true =>
          have ends : rest ++ [last] ≠ [] → allBlank next = false := fun _ => by simpa [bothBlank, first] using both
          exact collapseBlankEnd first ends
        | false => exact collapseOther first

theorem collapsedApart {pieces : List Text} (collapsed : Collapsed pieces) :
    pieces.dropLast.IsChain fun line next => ¬ (allBlank line = true ∧ allBlank next = true) := by
  induction pieces with
  | nil => exact .nil
  | cons line rest ih =>
    match rest with
    | [] => exact .nil
    | [_] => exact .singleton _
    | next :: third :: rest =>
      refine .cons_cons (fun both => ?_) (ih collapsed.2)
      have solid := (collapsed.1 both.1).2 (List.cons_ne_nil third rest)
      rw [both.2] at solid
      cases solid

/-- What the first two of the three replacements make of a script. -/
def blanksReplaced (script : Text) : Text := blankPattern.replace bareFeed (callPattern.replace (fun _ => []) script)

theorem blanksReplacedEq (script : Text) : blanksReplaced script = collapseBlankRuns (dropCalls script) := by
  have calls : callPattern.replace (fun _ => []) script = dropCalls script := replaceCalls 0 none script
  rw [blanksReplaced, calls, replaceBlanks]

theorem blankRunsStripped {script : Text} (token : 0 < tokenCount script) :
    lines (strip script) =
      (blankRuns (earlierLines (dropCalls script))).map standing ++ [lastLine (dropCalls script)] ∧
    (earlierLines (strip script)).IsChain (fun line next => ¬ (allBlank line = true ∧ allBlank next = true)) ∧
    strip script = feedPattern.replace twoFeeds (blanksReplaced script) ∧
    feedPattern.replace twoFeeds (blanksReplaced script) = blanksReplaced script := by
  have stripped := stripOfToken token
  have cut : lines (strip script) = collapseLines (lines (dropCalls script)) := by
    rw [stripped]
    exact linesCollapsed (dropCalls script)
  refine ⟨?_, ?_, ?_, ?_⟩
  · rw [cut, linesLast, collapseRuns]
  · rw [earlierLines, cut]
    exact collapsedApart (collapseLinesCollapsed _)
  · rw [strip, if_pos token, blanksReplacedEq, Form.replace, replaceFeeds]
  · rw [blanksReplacedEq, Form.replace, replaceFeeds, capFeedsOfCollapse]

def gappedScript : Text := "a();\r\n\r\n  \r\nconsole.log(1);\r\n\n \nb();\n  ".toList

/- The call takes the blank lines behind it along; the last of those before it ends in a carriage return. -/
theorem gappedScriptStripped : 0 < tokenCount gappedScript ∧
    blankRuns (earlierLines (dropCalls gappedScript)) =
      [["a();\r".toList], ["\r".toList, "  \r".toList], ["b();".toList]] ∧
    lines (strip gappedScript) = ["a();\r".toList, "\r".toList, "b();".toList, "  ".toList] := by
  have token : 0 < tokenCount gappedScript := by decide
  have runs : blankRuns (earlierLines (dropCalls gappedScript)) =
      [["a();\r".toList], ["\r".toList, "  \r".toList], ["b();".toList]] := by decide +kernel
  have last : lastLine (dropCalls gappedScript) = "  ".toList := by decide +kernel
  have whole := (blankRunsStripped token).1
  rw [runs, last] at whole
  exact ⟨token, runs, whole⟩

end SourceSweep.Script
