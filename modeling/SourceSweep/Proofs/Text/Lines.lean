import Mathlib.Data.List.Basic
import SourceSweep.Text.Lines

/-! Texts cut at a line: what stands before and behind it keeps its own lines, and the line feeds
between are told with the lines that they end or begin. -/
namespace SourceSweep.Text

def ended (pieces : List Text) : Text := pieces.flatMap (· ++ ['\n'])

def begun (pieces : List Text) : Text := pieces.flatMap ('\n' :: ·)

def firstLine (text : Text) : Text := (lines text).headD []

def lastLine (text : Text) : Text := (lines text).getLastD []

def earlierLines (text : Text) : List Text := (lines text).dropLast

theorem endedAppend (front rest : List Text) : ended (front ++ rest) = ended front ++ ended rest :=
  List.flatMap_append

theorem endedCons (line : Text) (rest : List Text) :
    ended (line :: rest) = line ++ '\n' :: ended rest := by simp [ended]

theorem endedFeed {pieces : List Text} (some : pieces ≠ []) :
    (ended pieces).getLast? = Option.some '\n' := by
  obtain ⟨front, line, rfl⟩ := (List.eq_nil_or_concat pieces).resolve_left some
  simp [ended]

theorem cutBehindFeed {text tail front rest : Text} (cut : text ++ tail = front ++ rest)
    (feed : front.getLast? = some '\n') (solid : text.getLast? ≠ some '\n') (free : '\n' ∉ tail) :
    ∃ more, more ≠ [] ∧ text = front ++ more := by
  rcases List.append_eq_append_iff.mp cut with ⟨more, rfl, same⟩ | ⟨more, same, _⟩
  · rw [List.getLast?_append] at feed
    cases last : more.getLast? with
    | none => exact absurd (by simpa [last] using feed) solid
    | some c =>
      have isFeed : c = '\n' := by simpa [last] using feed
      exact absurd (same ▸ List.mem_append_left rest (isFeed ▸ List.mem_of_getLast? last)) free
  · refine ⟨more, fun none => solid ?_, same⟩
    rw [same, none, List.append_nil, feed]

theorem unlinesCons (line : Text) (rest : List Text) : unlines (line :: rest) = line ++ begun rest := by
  induction rest generalizing line with
  | nil => simp [unlines, joinWith, begun]
  | cons next rest ih => rw [unlines, joinWith, ← unlines, ih] <;> simp [begun]

theorem unlinesEnded (front : List Text) {rest : List Text} (some : rest ≠ []) :
    unlines (front ++ rest) = ended front ++ unlines rest := by
  induction front with
  | nil => rfl
  | cons line front ih =>
    have more : front ++ rest ≠ [] := List.append_ne_nil_of_right_ne_nil front some
    rw [List.cons_append, unlines, joinWithCons line more, ← unlines, ih, endedCons]
    simp

theorem unlinesBegun {front : List Text} (some : front ≠ []) (rest : List Text) :
    unlines (front ++ rest) = unlines front ++ begun rest := by
  obtain ⟨line, more, rfl⟩ := List.exists_cons_of_ne_nil some
  rw [List.cons_append, unlinesCons, unlinesCons]
  simp [begun]

theorem linesEnded {front : List Text} (free : ∀ line ∈ front, '\n' ∉ line) (rest : Text) :
    lines (ended front ++ rest) = front ++ lines rest := by
  induction front with
  | nil => rfl
  | cons line front ih =>
    have later := ih fun other mem => free other (List.mem_cons_of_mem line mem)
    rw [endedCons, List.append_assoc, List.cons_append, lines,
      cutAtAppend (free line List.mem_cons_self), ← lines, later, List.cons_append]

theorem linesBegun {rest : List Text} (free : ∀ line ∈ rest, '\n' ∉ line) (front : Text) :
    lines (front ++ begun rest) = lines front ++ rest := by
  induction rest generalizing front with
  | nil => simp [begun]
  | cons line rest ih =>
    have later := ih (fun other mem => free other (List.mem_cons_of_mem line mem)) line
    have alone : lines line = [line] := cutAtOfFree (free line List.mem_cons_self)
    rw [show begun (line :: rest) = '\n' :: (line ++ begun rest) from rfl, lines, cutAtBoth,
      ← lines, ← lines, later, alone, List.singleton_append]

theorem linesBehind {front : Text} (free : '\n' ∉ front) {later : List Text}
    (laterFree : ∀ line ∈ later, '\n' ∉ line) : lines (front ++ begun later) = front :: later := by
  rw [linesBegun laterFree, show lines front = [front] from cutAtOfFree free, List.singleton_append]

theorem linesLast (text : Text) : lines text = earlierLines text ++ [lastLine text] := by
  have some : lines text ≠ [] := cutAtNeNil '\n' text
  rw [earlierLines, lastLine, List.getLastD_eq_getLast?, List.getLast?_eq_some_getLast some]
  exact (List.dropLast_append_getLast some).symm

theorem endedLast (text : Text) : text = ended (earlierLines text) ++ lastLine text := by
  have whole : unlines (lines text) = text := joinWithCutAt '\n' text
  rw [linesLast, unlinesEnded _ (List.cons_ne_nil _ _)] at whole
  exact whole.symm

theorem lastLineFree (text : Text) : '\n' ∉ lastLine text :=
  cutAtFree '\n' text _ (by rw [← lines, linesLast]; simp)

theorem earlierLineFree {text line : Text} (mem : line ∈ earlierLines text) : '\n' ∉ line :=
  cutAtFree '\n' text _ (List.dropLast_subset _ mem)

theorem earlierLineChar {text line : Text} (mem : line ∈ earlierLines text) {c : Char}
    (within : c ∈ line) : c ∈ text := by
  rw [endedLast text]
  exact List.mem_append_left _ (List.mem_flatMap.mpr ⟨line, mem, List.mem_append_left _ within⟩)

theorem lastLineChar {text : Text} {c : Char} (within : c ∈ lastLine text) : c ∈ text := by
  rw [endedLast text]
  exact List.mem_append_right _ within

theorem firstLineSplit (text : Text) : ∃ first later, text = first ++ begun later ∧ '\n' ∉ first ∧
    ∀ line ∈ later, '\n' ∉ line := by
  obtain ⟨first, later, cut⟩ := List.exists_cons_of_ne_nil (cutAtNeNil '\n' text)
  have free := cutAtFree '\n' text
  have whole : unlines (cutAt '\n' text) = text := joinWithCutAt '\n' text
  rw [cut] at free whole
  exact ⟨first, later, by rw [← whole, unlinesCons], free first List.mem_cons_self,
    fun line mem => free line (List.mem_cons_of_mem first mem)⟩

end SourceSweep.Text
