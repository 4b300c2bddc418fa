import SourceSweep.Script.Strip

/-! Collapsed texts. No two blank lines stand one after the other in them, so that collapsing once
more finds nothing, and so does capping line feeds. Blanks only ever go before other blanks. -/
namespace SourceSweep.Script
open Text

/-- Lines of which no blank one is followed by another; a blank line is a bare terminator. The last
line, which no line feed ends, is not looked at. -/
def Collapsed : List Text → Prop
  | line :: next :: rest =>
    (allBlank line = true → runLine line = line ∧ (rest ≠ [] → allBlank next = false)) ∧
      Collapsed (next :: rest)
  | _ => True

def FeedFree (pieces : List Text) : Prop := ∀ piece ∈ pieces, '\n' ∉ piece

theorem runLineTwice (last : Text) : runLine (runLine last) = runLine last := by
  unfold runLine
  split <;> rfl

theorem runLineFeedFree (last : Text) : '\n' ∉ runLine last := by
  unfold runLine
  split <;> decide

theorem collapseBlankPair {line next : Text} {rest : List Text} (more : rest ≠ [])
    (first : allBlank line = true) (second : allBlank next = true) :
    collapseLines (line :: next :: rest) = collapseLines (next :: rest) := by
  cases rest with
  | nil => exact absurd rfl more
  | cons third rest => simp only [collapseLines, first, second, if_true]

theorem collapseBlankEnd {line next : Text} {rest : List Text} (first : allBlank line = true)
    (ends : rest ≠ [] → allBlank next = false) :
    collapseLines (line :: next :: rest) = runLine line :: collapseLines (next :: rest) := by
  cases rest with
  | nil => simp only [collapseLines, first, if_true]
  | cons third rest =>
    have second := ends (List.cons_ne_nil third rest)
    simp only [collapseLines, first, second, if_true, Bool.false_eq_true, if_false]

theorem collapseOther {line : Text} {rest : List Text} (other : allBlank line = false) :
    collapseLines (line :: rest) = line :: collapseLines rest := by
  match rest with
  | [] => rfl
  | [last] => simp only [collapseLines, other, Bool.false_eq_true, if_false]
  | next :: third :: rest => simp only [collapseLines, other, Bool.false_eq_true, if_false]

theorem collapseCases {motive : List Text → Prop} (nil : motive []) (single : ∀ last, motive [last])
    (pair : ∀ line next rest, rest ≠ [] → allBlank line = true → allBlank next = true →
      motive (next :: rest) → motive (line :: next :: rest))
    (runEnd : ∀ line next rest, allBlank line = true → (rest ≠ [] → allBlank next = false) →
      motive (next :: rest) → motive (line :: next :: rest))
    (other : ∀ line next rest, allBlank line = false → motive (next :: rest) →
      motive (line :: next :: rest)) (pieces : List Text) : motive pieces := by
  induction pieces with
  | nil => exact nil
  | cons line rest ih =>
    cases rest with
    | nil => exact single line
    | cons next rest =>
      cases first : allBlank line with
      | false => exact other line next rest first ih
      | true =>
        by_cases both : rest ≠ [] ∧ allBlank next = true
        · exact pair line next rest both.1 first both.2 ih
        · exact runEnd line next rest first (fun more => by simpa [more] using both) ih

theorem collapseLinesNeNil {pieces : List Text} (some : pieces ≠ []) : collapseLines pieces ≠ [] := by
  induction pieces using collapseCases with
  | nil => exact some
  | single last => exact some
  | pair line next rest more first second ih =>
    rw [collapseBlankPair more first second]
    exact ih (List.cons_ne_nil next rest)
  | runEnd line next rest first ends ih => simp [collapseBlankEnd first ends]
  | other line next rest first ih => simp [collapseOther first]

theorem collapseLinesCollapsed (pieces : List Text) : Collapsed (collapseLines pieces) := by
  induction pieces using collapseCases with
  | nil => trivial
  | single last => trivial
  | pair line next rest more first second ih => rwa [collapseBlankPair more first second]
  | runEnd line next rest first ends ih =>
    rw [collapseBlankEnd first ends]
    cases rest with
    | nil => exact ⟨fun _ => ⟨runLineTwice line, fun more => absurd rfl more⟩, trivial⟩
    | cons third rest =>
      have second := ends (List.cons_ne_nil third rest)
      rw [collapseOther second] at ih ⊢
      exact ⟨fun _ => ⟨runLineTwice line, fun _ => second⟩, ih⟩
  | other line next rest first ih =>
    rw [collapseOther first]
    obtain ⟨head, tail, cut⟩ := List.exists_cons_of_ne_nil (collapseLinesNeNil (List.cons_ne_nil next rest))
    rw [cut] at ih ⊢
    exact ⟨fun blank => absurd (first.symm.trans blank) Bool.false_ne_true, ih⟩

theorem collapseLinesOfCollapsed {pieces : List Text} (collapsed : Collapsed pieces) :
    collapseLines pieces = pieces := by
  induction pieces using collapseCases with
  | nil => rfl
  | single last => rfl
  | pair line next rest more first second ih =>
    exact absurd ((collapsed.1 first).2 more) (by simp [second])
  | runEnd line next rest first ends ih =>
    rw [collapseBlankEnd first ends, ih collapsed.2, (collapsed.1 first).1]
  | other line next rest first ih => rw [collapseOther first, ih collapsed.2]

theorem collapseLinesFeedFree {pieces : List Text} (free : FeedFree pieces) :
    FeedFree (collapseLines pieces) := by
  induction pieces using collapseCases with
  | nil => exact free
  | single last => exact free
  | pair line next rest more first second ih =>
    rw [collapseBlankPair more first second]
    exact ih fun piece mem => free piece (List.mem_cons_of_mem line mem)
  | runEnd line next rest first ends ih =>
    rw [collapseBlankEnd first ends]
    intro piece mem
    rcases List.mem_cons.mp mem with rfl | mem
    · exact runLineFeedFree line
    · exact ih (fun piece mem => free piece (List.mem_cons_of_mem line mem)) piece mem
  | other line next rest first ih =>
    rw [collapseOther first]
    intro piece mem
    rcases List.mem_cons.mp mem with rfl | mem
    · exact free piece List.mem_cons_self
    · exact ih (fun piece mem => free piece (List.mem_cons_of_mem line mem)) piece mem

theorem linesCollapsed (text : Text) : lines (collapseBlankRuns text) = collapseLines (lines text) :=
  cutAtJoinWith (collapseLinesNeNil (cutAtNeNil '\n' text))
    (collapseLinesFeedFree (cutAtFree '\n' text))

theorem collapseTwice (text : Text) :
    collapseBlankRuns (collapseBlankRuns text) = collapseBlankRuns text := by
  unfold collapseBlankRuns
  rw [show lines (unlines (collapseLines (lines text))) = _ from linesCollapsed text,
    collapseLinesOfCollapsed (collapseLinesCollapsed (lines text))]

/-! Capping works on characters: what it does to a line depends on the line feeds before it. -/

theorem capFeedsLine {line : Text} (free : '\n' ∉ line) (some : line ≠ []) (before : Nat)
    (rest : Text) : capFeedsAfter before (line ++ rest) = line ++ capFeedsAfter 0 rest := by
  induction line generalizing before with
  | nil => exact absurd rfl some
  | cons c line ih =>
    have other : c ≠ '\n' := (List.ne_of_not_mem_cons free).symm
    simp only [List.cons_append, capFeedsAfter, other, if_false, List.cons.injEq, true_and]
    cases line with
    | nil => rfl
    | cons d line => exact ih (List.not_mem_of_not_mem_cons free) (List.cons_ne_nil d line) 0

theorem capFeedsLast {line : Text} (free : '\n' ∉ line) (before : Nat) :
    capFeedsAfter before line = line := by
  cases line with
  | nil => rfl
  | cons c line => simpa [capFeedsAfter] using capFeedsLine free (List.cons_ne_nil c line) before []

/- Two line feeds may stand before a line unless it is a blank one that another feed ends. -/
theorem capFeedsCollapsed {pieces : List Text} (collapsed : Collapsed pieces)
    (free : FeedFree pieces) {before : Nat} (few : before ≤ 2)
    (full : ∀ line next rest, pieces = line :: next :: rest → before = 2 → allBlank line = false) :
    capFeedsAfter before (unlines pieces) = unlines pieces := by
  induction pieces generalizing before with
  | nil => rfl
  | cons line rest ih =>
    have lineFree := free line List.mem_cons_self
    cases rest with
    | nil => exact capFeedsLast lineFree before
    | cons next rest =>
      have restFree : FeedFree (next :: rest) := fun piece mem =>
        free piece (List.mem_cons_of_mem line mem)
      change capFeedsAfter before (line ++ '\n' :: unlines (next :: rest)) =
        line ++ '\n' :: unlines (next :: rest)
      by_cases empty : line = []
      · subst empty
        have below : before ≠ 2 := fun two => absurd (full [] next rest rfl two) (by decide)
        have blank := (collapsed.1 rfl).2
        simp only [List.nil_append, capFeedsAfter, if_true, if_neg (show ¬ 2 ≤ before by omega)]
        rw [ih collapsed.2 restFree (by omega)]
        intro line' next' rest' same two
        cases same
        exact blank (List.cons_ne_nil _ _)
      · rw [capFeedsLine lineFree empty]
        simp only [capFeedsAfter, if_true, if_neg (show ¬ 2 ≤ 0 by omega)]
        rw [ih collapsed.2 restFree (by omega)]
        intro line' next' rest' same one
        omega

theorem capFeedsOfCollapse (text : Text) :
    capFeeds (collapseBlankRuns text) = collapseBlankRuns text :=
  capFeedsCollapsed (collapseLinesCollapsed (lines text))
    (collapseLinesFeedFree (cutAtFree '\n' text)) (Nat.zero_le 2) (fun _ _ _ _ two => by omega)

/-- The second text is the first one without some blanks, each of which stood before another. -/
inductive Narrowed : Text → Text → Prop where
  | nil : Narrowed [] []
  | keep (c : Char) {text other : Text} (rest : Narrowed text other) : Narrowed (c :: text) (c :: other)
  | drop {c d : Char} {text other : Text} (gone : isBlank c = true) (stays : isBlank d = true)
      (rest : Narrowed text (d :: other)) : Narrowed (c :: text) (d :: other)

namespace Narrowed

theorem same (text : Text) : Narrowed text text := by
  induction text with
  | nil => exact .nil
  | cons c rest ih => exact .keep c ih

theorem keepAll (front : Text) {text other : Text} (rest : Narrowed text other) :
    Narrowed (front ++ text) (front ++ other) := by
  induction front with
  | nil => exact rest
  | cons c front ih => exact .keep c ih

theorem dropAll {gap : Text} (blank : allBlank gap = true) {d : Char} {text other : Text}
    (stays : isBlank d = true) (rest : Narrowed text (d :: other)) :
    Narrowed (gap ++ text) (d :: other) := by
  induction gap with
  | nil => exact rest
  | cons c gap ih =>
    obtain ⟨first, blank⟩ : isBlank c = true ∧ allBlank gap = true := by simpa [allBlank] using blank
    exact .drop first stays (ih blank)

theorem lengthLe {text other : Text} (narrowed : Narrowed text other) :
    other.length ≤ text.length := by
  induction narrowed with
  | nil => exact Nat.le_refl 0
  | keep c rest ih => simpa using ih
  | drop gone stays rest ih => exact Nat.le_succ_of_le ih

end Narrowed

theorem runLineNarrows {line text other : Text} (blank : allBlank line = true)
    (rest : Narrowed text other) :
    Narrowed (line ++ '\n' :: text) (runLine line ++ '\n' :: other) := by
  unfold runLine
  split
  · rename_i ends
    obtain ⟨front, rfl⟩ := List.getLast?_eq_some_iff.mp ends
    have frontBlank : allBlank front = true := by
      simp only [allBlank, List.all_append, Bool.and_eq_true] at blank
      exact blank.1
    rw [List.append_assoc]
    exact .dropAll frontBlank rfl (.keepAll ['\r', '\n'] rest)
  · exact .dropAll blank rfl (.keep '\n' rest)

theorem unlinesCollapsedRunEnd {line next : Text} {rest : List Text} (first : allBlank line = true)
    (ends : rest ≠ [] → allBlank next = false) : unlines (collapseLines (line :: next :: rest)) =
      runLine line ++ '\n' :: unlines (collapseLines (next :: rest)) := by
  rw [collapseBlankEnd first ends]
  exact joinWithCons (runLine line) (collapseLinesNeNil (List.cons_ne_nil next rest))

theorem collapseStartsBlank (pieces : List Text) (two : 2 ≤ pieces.length)
    (blank : pieces.head?.all allBlank = true) :
    ∃ d other, unlines (collapseLines pieces) = d :: other ∧ isBlank d = true := by
  induction pieces using collapseCases with
  | nil => simp at two
  | single last => simp at two
  | pair line next rest more first second ih =>
    rw [collapseBlankPair more first second]
    exact ih (Nat.succ_le_succ (List.length_pos_iff.mpr more)) second
  | runEnd line next rest first ends ih =>
    rw [unlinesCollapsedRunEnd first ends, runLine]
    split
    · exact ⟨'\r', _, rfl, rfl⟩
    · exact ⟨'\n', _, rfl, rfl⟩
  | other line next rest first ih => simp [first] at blank

theorem collapseLinesNarrows (pieces : List Text) :
    Narrowed (unlines pieces) (unlines (collapseLines pieces)) := by
  induction pieces using collapseCases with
  | nil => exact .same []
  | single last => exact .same last
  | pair line next rest more first second ih =>
    rw [collapseBlankPair more first second]
    obtain ⟨d, other, same, blank⟩ := collapseStartsBlank (next :: rest)
      (Nat.succ_le_succ (List.length_pos_iff.mpr more)) second
    rw [same] at ih ⊢
    exact .dropAll first blank (.drop rfl blank ih)
  | runEnd line next rest first ends ih =>
    rw [unlinesCollapsedRunEnd first ends]
    exact runLineNarrows first ih
  | other line next rest first ih =>
    rw [collapseOther first]
    unfold unlines
    rw [joinWithCons line (collapseLinesNeNil (List.cons_ne_nil next rest))]
    exact .keepAll line (.keep '\n' ih)

theorem collapseNarrows (text : Text) : Narrowed text (collapseBlankRuns text) := by
  have narrows := collapseLinesNarrows (lines text)
  rwa [show unlines (lines text) = text from joinWithCutAt '\n' text] at narrows

end SourceSweep.Script
