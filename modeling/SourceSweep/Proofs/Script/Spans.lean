import SourceSweep.Proofs.Script.Idempotence
import SourceSweep.Proofs.Script.WholeCalls
import SourceSweep.Proofs.Text.Lines

/-! Spans of a script that begin and end with characters that are not blank. Stripping treats such a
span by itself: what stands before it and behind it loses blanks alone. -/
namespace SourceSweep.Script
open Text

namespace Narrowed

theorem inked {text other : Text} (narrowed : Narrowed text other) : Text.inked other = Text.inked text := by
  induction narrowed with
  | nil => rfl
  | keep c rest ih => simp only [Text.inked, List.filter_cons] at ih ⊢; rw [ih]
  | drop gone stays rest ih => simpa [Text.inked, gone] using ih

theorem sublist {text other : Text} (narrowed : Narrowed text other) : other.Sublist text := by
  induction narrowed with
  | nil => exact .slnil
  | keep c rest ih => exact ih.cons_cons c
  | drop gone stays rest ih => exact ih.cons _

end Narrowed

/-! Of the lines before one that is not blank, or that no line feed ends, collapsing makes the same
whatever that line is and whatever follows. -/

theorem collapseEarlier (earlier : List Text) : ∃ collapsed, ∀ line later,
    (later ≠ [] → allBlank line = false) →
      collapseLines (earlier ++ line :: later) = collapsed ++ line :: collapseLines later := by
  induction earlier with
  | nil =>
    refine ⟨[], fun line later solid => ?_⟩
    cases later with
    | nil => rfl
    | cons next later => exact collapseOther (solid (List.cons_ne_nil next later))
  | cons first earlier ih =>
    obtain ⟨collapsed, rest⟩ := ih
    cases blank : allBlank first with
    | false =>
      exact ⟨first :: collapsed, fun line later solid =>
        (collapseOther blank).trans (congrArg (first :: ·) (rest line later solid))⟩
    | true =>
      cases earlier with
      | nil =>
        exact ⟨runLine first :: collapsed, fun line later solid =>
          (collapseBlankEnd blank solid).trans (congrArg (runLine first :: ·) (rest line later solid))⟩
      | cons second earlier =>
        cases both : allBlank second with
        | true =>
          exact ⟨collapsed, fun line later solid =>
            (collapseBlankPair (by simp) blank both).trans (rest line later solid)⟩
        | false =>
          exact ⟨runLine first :: collapsed, fun line later solid =>
            (collapseBlankEnd blank fun _ => both).trans
              (congrArg (runLine first :: ·) (rest line later solid))⟩

theorem linesFirst (text : Text) : lines text = firstLine text :: (lines text).tail := by
  obtain ⟨first, later, cut⟩ := List.exists_cons_of_ne_nil (cutAtNeNil '\n' text)
  rw [firstLine, lines, cut]
  rfl

theorem linesAcross (front rest : Text) : lines (front ++ rest) =
    earlierLines front ++ (lastLine front ++ firstLine rest) :: (lines rest).tail := by
  obtain ⟨first, later, rfl, free, laterFree⟩ := firstLineSplit rest
  have cut : lines (first ++ begun later) = first :: later := linesBehind free laterFree
  have across : '\n' ∉ lastLine front ++ first := by simp [lastLineFree front, free]
  rw [firstLine, cut, List.headD_cons, List.tail_cons]
  nth_rewrite 1 [endedLast front]
  rw [List.append_assoc, linesEnded (fun line => earlierLineFree), ← List.append_assoc,
    linesBehind across laterFree]

theorem inkNotFeed {c : Char} (ink : isBlank c = false) : c ≠ '\n' := by
  rintro rfl
  exact absurd ink (by decide)

theorem solidAcross {c : Char} (ink : isBlank c = false) (line rest : Text) :
    allBlank (line ++ firstLine (c :: rest)) = false := by
  obtain ⟨first, later, cut⟩ := List.exists_cons_of_ne_nil (cutAtNeNil '\n' rest)
  simp [firstLine, lines, cutAtOther (inkNotFeed ink) cut, allBlank, ink]

theorem collapseBehind {c : Char} (ink : isBlank c = false) (front rest : Text) :
    collapseBlankRuns (front ++ c :: rest) = collapseBlankRuns front ++ collapseBlankRuns (c :: rest) := by
  obtain ⟨collapsed, shape⟩ := collapseEarlier (earlierLines front)
  have alone := shape (lastLine front) [] (absurd rfl)
  have joined := shape (lastLine front ++ firstLine (c :: rest)) (lines (c :: rest)).tail
    fun _ => solidAcross ink (lastLine front) rest
  have behind : collapseBlankRuns (c :: rest) =
      firstLine (c :: rest) ++ begun (collapseLines (lines (c :: rest)).tail) := by
    have solid : allBlank (firstLine (c :: rest)) = false := solidAcross ink [] rest
    rw [collapseBlankRuns, linesFirst, collapseOther solid, unlinesCons]
    rfl
  have before : collapseBlankRuns front = ended collapsed ++ lastLine front := by
    rw [collapseBlankRuns, linesLast, alone, unlinesEnded _ (List.cons_ne_nil _ _)]
    rfl
  rw [behind, before, collapseBlankRuns, linesAcross, joined, unlinesEnded _ (List.cons_ne_nil _ _),
    unlinesCons, List.append_assoc, List.append_assoc]

theorem collapseInk {c : Char} (ink : isBlank c = false) (rest : Text) :
    ∃ rest', collapseBlankRuns (c :: rest) = c :: rest' ∧ Narrowed rest rest' :=
  (collapseNarrows (c :: rest)).afterFront [c] (by simpa using ink)

theorem collapseLast {c : Char} (ink : isBlank c = false) (front : Text) :
    collapseBlankRuns (front ++ [c]) = collapseBlankRuns front ++ [c] := by
  have other : '\n' ∉ [c] := fun mem => inkNotFeed ink (List.mem_singleton.mp mem).symm
  have alone : collapseBlankRuns [c] = [c] := by
    rw [collapseBlankRuns, show lines [c] = [[c]] from cutAtOfFree other]
    rfl
  rw [collapseBehind ink, alone]

theorem collapseBetween {c d : Char} {mid mid' : Text} (front back : Text) (starts : isBlank c = false)
    (ends : isBlank d = false) (same : c :: mid = mid' ++ [d]) : ∃ back', Narrowed back back' ∧
      collapseBlankRuns (front ++ (c :: mid ++ back)) =
        collapseBlankRuns front ++ (collapseBlankRuns (c :: mid) ++ back') := by
  obtain ⟨back', inner, narrowed⟩ := collapseInk ends back
  refine ⟨back', narrowed, ?_⟩
  rw [List.cons_append, collapseBehind starts, ← List.cons_append, same, collapseLast ends,
    List.append_assoc, List.singleton_append, collapseBehind ends, inner]
  simp

theorem collapsedSpan {c d : Char} {front mid mid' back : Text} (starts : isBlank c = false)
    (ends : isBlank d = false) (same : c :: mid = mid' ++ [d])
    (collapsed : collapseBlankRuns (front ++ (c :: mid ++ back)) = front ++ (c :: mid ++ back)) :
    collapseBlankRuns (c :: mid) = c :: mid := by
  obtain ⟨back', narrowed, whole⟩ := collapseBetween front back starts ends same
  have lengths := congrArg List.length (whole.symm.trans collapsed)
  have before := (collapseNarrows front).lengthLe
  have after := narrowed.lengthLe
  refine (collapseNarrows (c :: mid)).sublist.eq_of_length_le ?_
  simp only [List.length_append] at lengths
  omega

theorem piecesAfterDrop (pending : Nat) (script : Text) :
    piecesAfter pending script = pieces (script.drop pending) := by
  induction pending generalizing script with
  | zero => rfl
  | succ pending ih => cases script with
    | nil => rfl
    | cons c rest => exact ih rest

theorem piecesBehind {pending : Nat} {script : Text} {before rest : List Piece}
    (cut : piecesAfter pending script = before ++ rest) : rest = pieces (textOf rest) := by
  induction script generalizing pending before with
  | nil =>
    obtain ⟨_, rfl⟩ : before = [] ∧ rest = [] := by
      have none : piecesAfter pending [] = [] := by cases pending <;> rfl
      simpa [none] using cut.symm
    rfl
  | cons c script ih =>
    cases pending with
    | succ pending => exact ih cut
    | zero =>
      cases before with
      | nil => rw [show rest = piecesAfter 0 (c :: script) from cut.symm, piecesText, List.drop_zero, pieces]
      | cons first before =>
        rw [piecesAfter] at cut
        split at cut <;> exact ih (List.cons.inj cut).2

theorem piecesOfCall {text : Text} {length : Nat} (found : callLength? text = some length) :
    pieces text = .call (text.take length) :: pieces (text.drop length) := by
  obtain ⟨inner, rfl⟩ := Nat.exists_eq_add_of_lt (callLengthBounds found).1
  cases text with
  | nil => cases found
  | cons c rest =>
    rw [pieces, piecesAfter, found]
    simp [piecesAfterDrop]

theorem piecesOfKept {c : Char} {rest : Text} (missed : callLength? (c :: rest) = none) :
    pieces (c :: rest) = .kept c :: pieces rest := by
  rw [pieces, piecesAfter, missed]
  rfl

theorem textOfPieces (script : Text) : textOf (pieces script) = script := piecesText 0 script

theorem textOfAppend (front rest : List Piece) : textOf (front ++ rest) = textOf front ++ textOf rest :=
  List.flatMap_append

def leftOf (pieces : List Piece) : Text := pieces.flatMap Piece.left

theorem leftOfPieces (script : Text) : leftOf (pieces script) = dropCalls script := piecesLeft 0 script

theorem leftOfAppend (front rest : List Piece) : leftOf (front ++ rest) = leftOf front ++ leftOf rest :=
  List.flatMap_append

theorem leftOfKept (c : Char) (rest : List Piece) : leftOf (.kept c :: rest) = c :: leftOf rest := rfl

theorem leftOfCall (call : Text) (rest : List Piece) : leftOf (.call call :: rest) = leftOf rest := rfl

theorem stripSpan {script front back mid mid' : Text} {c d : Char}
    (left : dropCalls script = front ++ (c :: mid ++ back)) (starts : isBlank c = false)
    (ends : isBlank d = false) (same : c :: mid = mid' ++ [d]) :
    ∃ front' span back', strip script = front' ++ (span ++ back') ∧ Narrowed front front' ∧
      Narrowed back back' ∧ (span = c :: mid ∨ span = collapseBlankRuns (c :: mid)) := by
  by_cases token : 0 < tokenCount script
  · obtain ⟨back', narrowed, whole⟩ := collapseBetween front back starts ends same
    exact ⟨_, _, back', by rw [stripOfToken token, left, whole], collapseNarrows front, narrowed, .inr rfl⟩
  · have free : tokenCount script = 0 := Nat.eq_zero_of_not_pos token
    rw [dropCallsOfNoCall (noCallOfNoToken free)] at left
    exact ⟨front, _, back, by rw [stripOfNoToken free, left], .same front, .same back, .inl rfl⟩

end SourceSweep.Script
