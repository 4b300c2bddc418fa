import SourceSweep.Proofs.Style.Stays
import SourceSweep.Proofs.Usage.MoreScripts

/-! Pruning what was pruned before, by the same verdicts. Nothing more goes, and no class is asked about
that was not asked about the first time. -/
namespace SourceSweep.Usage
open Text Style

/-- A pruning of a stylesheet, and one of the lines that it keeps. While the first is in a block that it
drops, the second waits outside. -/
inductive Behind : Pruning → Pruning → Prop where
  | along (kept : List Text) (depth : Int) : Behind ⟨kept, .at depth false⟩ ⟨kept, .at depth false⟩
  | waiting (kept : List Text) (depth : Int) : Behind ⟨kept, .at depth true⟩ ⟨kept, .outside⟩

theorem behindStart : Behind .start .start := .along [] 0

section
variable {used : Text → Bool} {whole few : Pruning} (behind : Behind whole few) {line : Text}
include behind

theorem Behind.kept : few.kept = whole.kept := by
  cases behind <;> rfl

theorem Behind.same (keeps : whole.drops used line = false) : few = whole := by
  cases behind with
  | along => rfl
  | waiting kept depth =>
    rw [dropsAt rfl] at keeps
    split at keeps
    · rename_i closed
      subst closed
      rfl
    · cases keeps

theorem Behind.waits (drops : whole.drops used line = true) : Behind (whole.step used line) few := by
  rw [stepEq, if_pos drops, drops]
  cases behind with
  | along kept depth =>
    rw [dropsAt rfl] at drops
    split at drops
    · rename_i closed
      subst closed
      exact .waiting kept _
    · cases drops
  | waiting kept depth => exact .waiting kept _

theorem Behind.goesOn (keeps : whole.drops used line = false) :
    Behind (whole.step used line) (few.step used line) := by
  rw [behind.same keeps, stepEq, keeps]
  exact .along _ _

end

section
variable {ε : Type} {ask : Text → Except ε Bool} {used : Text → Bool}
  (agrees : ∀ name answer, ask name = .ok answer → used name = answer)
include agrees

theorem askingOn {state : Pruning} {line : Text}
    (answered : ∀ name, state.question? line = some name → ∃ answer, ask name = .ok answer)
    (rest : List Text) :
    pruneAsking (fun (_ : Unit) name => (ask name, ())) () state (line :: rest) =
      pruneAsking (fun (_ : Unit) name => (ask name, ())) () (state.step used line) rest := by
  rw [pruneAsking, Pruning.step]
  cases asked : state.question? line with
  | none => rfl
  | some name =>
    obtain ⟨answer, told⟩ := answered name asked
    simp only [told, agrees name answer told]

theorem askingKept {whole few result : Pruning} (behind : Behind whole few) {rest : List Text}
    (done : (pruneAsking (fun (_ : Unit) name => (ask name, ())) () whole rest).1 = .ok result) :
    ∃ last, (pruneAsking (fun (_ : Unit) name => (ask name, ())) () few
      (flagged (keptFlags used whole rest) rest)).1 = .ok last ∧ last.kept = result.kept := by
  induction rest generalizing whole few with
  | nil =>
    cases done
    exact ⟨few, rfl, behind.kept⟩
  | cons line rest ih =>
    obtain ⟨answered, done⟩ := askingStep agrees done
    rw [keptFlags, flagged, keepsEq]
    cases drops : whole.drops used line with
    | true => exact ih (behind.waits drops) done
    | false =>
      have same := behind.same drops
      subst same
      simp only [Bool.not_false, if_true, askingOn agrees answered]
      exact ih (behind.goesOn drops) done

end

theorem Behind.folds (used : Text → Bool) {whole few : Pruning} (behind : Behind whole few)
    (rest : List Text) :
    ((flagged (keptFlags used whole rest) rest).foldl (Pruning.step used) few).kept =
      (rest.foldl (Pruning.step used) whole).kept := by
  induction rest generalizing whole few with
  | nil => exact behind.kept
  | cons line rest ih =>
    rw [keptFlags, flagged, keepsEq, List.foldl_cons]
    cases drops : whole.drops used line with
    | true => exact ih (behind.waits drops)
    | false => exact ih (behind.goesOn drops)

theorem keptLinesFree (flags : List Bool) (css : Text) : ∀ line ∈ flagged flags (lines css), '\n' ∉ line :=
  fun line mem => cutAtFree '\n' css line ((flaggedSublist flags (lines css)).subset mem)

/- Where no line is kept the text is empty, which is one empty line again. -/
theorem prunedLines (used : Text → Bool) (css : Text) : prune used css = [] ∨
    lines (prune used css) = flagged (keptFlags used .start (lines css)) (lines css) := by
  rw [pruneFlagged]
  by_cases some : flagged (keptFlags used .start (lines css)) (lines css) = []
  · exact .inl (by rw [some]; rfl)
  · exact .inr (cutAtJoinWith some (keptLinesFree _ css))

theorem pruneTwice (used : Text → Bool) (css : Text) :
    prune used (prune used css) = prune used css := by
  rcases prunedLines used css with empty | again
  · rw [empty]
    rfl
  · have kept := behindStart.folds used (lines css)
    rw [prune, Pruning.text, again, kept]
    rfl

theorem pruneByTwice {read : Reader} {scripts : List Text} {css pruned : Text}
    (done : pruneBy read scripts css = .ok pruned) : pruneBy read scripts pruned = .ok pruned := by
  have agrees : ∀ name answer, verdict read name scripts = .ok answer →
      usedIn read scripts name = answer := fun _ _ => verdictUsed
  have text := (pruneByOk done).symm
  unfold pruneBy at done ⊢
  generalize asked : (pruneAsking _ () Pruning.start (lines css)).1 = outcome at done
  cases outcome with
  | error cause => cases done
  | ok result =>
    obtain ⟨last, again, same⟩ := askingKept agrees behindStart asked
    cases done
    rcases prunedLines (usedIn read scripts) css with empty | cut
    · rw [text, empty]
      rfl
    · rw [text, cut, again]
      simp only [Except.map, ← text, Pruning.text, same]

end SourceSweep.Usage
