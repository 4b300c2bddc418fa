import Mathlib.Data.List.Flatten
import Mathlib.Data.List.Perm.Subperm
import SourceSweep.Proofs.Style.Chunks
import SourceSweep.Proofs.Text.Captured
import SourceSweep.Proofs.Text.Lines

/-! The class names that a stylesheet tells, in the order in which it does. A line feed goes into no name and
ends the one before it, so that a text tells what its lines tell, and one that lost lines tells no other. -/
namespace SourceSweep.Style
open Text

def namePattern : Form := .both (.one beginsName) (.many (.one continuesName))

def classCaptures : Usage.Spot → List Capture := Form.captures (.text ['.']) namePattern (.text [])

theorem namePatternLength (before : Option Char) (text : Text) :
    namePattern.length? ⟨before, text⟩ = (readName? text).map fun read => read.1.length := by
  cases text with
  | nil => rfl
  | cons c rest =>
    cases begins : beginsName c with
    | false =>
      rw [namePattern, Form.lengthMissed (Form.oneMissed begins)]
      simp [readName?, begins]
    | true =>
      rw [namePattern, Form.lengthOnly (Form.oneFits begins), Form.onwardOne, Form.runLength]
      simp [readName?, begins, Nat.add_comm 1]

theorem classCapturesHead (before : Option Char) (c : Char) (rest : Text) :
    (classCaptures ⟨before, c :: rest⟩).head? =
      if c = '.' then (readName? rest).map fun read => ⟨read.1, read.1.length + 1⟩ else none := by
  by_cases dot : c = '.'
  · subst dot
    have lead : (Form.text ['.']).ways ⟨before, '.' :: rest⟩ = [1] := by rw [Form.textOne, if_pos rfl]
    have nothing : ∀ spot, (Form.text []).ways spot = [0] := fun spot => by simp [Form.waysText]
    have name := namePatternLength (some '.') rest
    simp only [classCaptures, Form.captures, lead, List.flatMap_singleton, Form.onwardOne, nothing, List.map_cons,
      List.map_nil, ← List.map_eq_flatMap, List.head?_map, if_pos]
    rw [← Form.length?, name, Option.map_map]
    cases read : readName? rest with
    | none => rfl
    | some parts =>
      obtain ⟨name, behind⟩ := parts
      obtain ⟨rfl, _⟩ := readNameSome read
      simp [Nat.add_comm 1]
  · have lead : (Form.text ['.']).ways ⟨before, c :: rest⟩ = [] := by rw [Form.textOne, if_neg dot]
    rw [if_neg dot, classCaptures, Form.captures, lead]
    rfl

theorem classTokensCons (c : Char) (rest : Text) : classTokens (c :: rest) =
    (if c = '.' then ((readName? rest).map Prod.fst).toList else []) ++ classTokens rest := by
  rw [classTokens]
  split
  · cases readName? rest <;> rfl
  · rfl

theorem classTokensBehind {front : Text} (free : '.' ∉ front) (rest : Text) :
    classTokens (front ++ rest) = classTokens rest := by
  induction front with
  | nil => rfl
  | cons c front ih =>
    have other : c ≠ '.' := (List.ne_of_not_mem_cons free).symm
    rw [List.cons_append, classTokensCons, if_neg other, List.nil_append, ih (List.not_mem_of_not_mem_cons free)]

/- No full stop stands in a name, so that going on within one or behind it comes to the same. -/
theorem nameLacksDot {name : Text} (named : isClassName name = true) : '.' ∉ name :=
  fun mem => absurd (nameChar named mem) (by decide)

theorem capturedTokens (pending : Nat) (before : Option Char) (text : Text) :
    Form.capturedAfter classCaptures pending before text = classTokens (text.drop pending) := by
  induction text generalizing pending before with
  | nil =>
    cases pending <;> rfl
  | cons c rest ih =>
    cases pending with
    | succ pending => exact ih pending (some c)
    | zero =>
      rw [Form.capturedAfter, classCapturesHead, List.drop_zero, classTokensCons]
      by_cases dot : c = '.'
      · rw [if_pos dot, if_pos dot]
        cases read : readName? rest with
        | none => exact ih 0 (some c)
        | some parts =>
          obtain ⟨name, behind⟩ := parts
          obtain ⟨rfl, named⟩ := readNameSome read
          have later := ih name.length (some c)
          rw [List.drop_left] at later
          simp [later, classTokensBehind (nameLacksDot named)]
      · rw [if_neg dot, if_neg dot]
        exact ih 0 (some c)

section
variable {stop : Char} (outside : continuesName stop = false)
include outside

theorem readNameBefore (front rest : Text) :
    (readName? (front ++ stop :: rest)).map Prod.fst = (readName? front).map Prod.fst := by
  cases front with
  | nil =>
    have begins : beginsName stop = false :=
      Bool.eq_false_iff.mpr fun begins => absurd (outside.symm.trans (continuesNameOfBegins begins)) (by decide)
    simp [readName?, begins]
  | cons c front =>
    have ends : (front ++ stop :: rest).takeWhile continuesName = front.takeWhile continuesName := by
      rw [List.takeWhile_append, List.takeWhile_cons_of_neg (by simp [outside]), List.append_nil]
      split
      · rename_i whole
        exact ((List.takeWhile_prefix continuesName).eq_of_length whole).symm
      · rfl
    simp only [readName?, List.cons_append, ends]
    split <;> rfl

theorem classTokensApart (apart : stop ≠ '.') (front rest : Text) :
    classTokens (front ++ stop :: rest) = classTokens front ++ classTokens rest := by
  induction front with
  | nil => rw [List.nil_append, classTokensCons, if_neg apart]; rfl
  | cons c front ih =>
    rw [List.cons_append, classTokensCons, classTokensCons, readNameBefore outside, ih, List.append_assoc]

end

theorem classTokensUnlines (pieces : List Text) : classTokens (unlines pieces) = pieces.flatMap classTokens := by
  induction pieces with
  | nil => rfl
  | cons line rest ih =>
    cases rest with
    | nil => simp [unlines, joinWith]
    | cons next rest =>
      rw [unlines, joinWithCons line (List.cons_ne_nil next rest), ← unlines,
        classTokensApart (by decide) (by decide), ih, ← List.flatMap_cons]

theorem classTokensLines (css : Text) : classTokens css = (lines css).flatMap classTokens := by
  have whole : unlines (lines css) = css := joinWithCutAt '\n' css
  rw [← classTokensUnlines, whole]

theorem memClassNames {css name : Text} : name ∈ classNames css ↔ name ∈ classTokens css := List.mem_eraseDups

theorem classNamesLines (css name : Text) :
    name ∈ classNames css ↔ ∃ line ∈ lines css, name ∈ classNames line := by
  simp only [memClassNames]
  rw [classTokensLines, List.mem_flatMap]

theorem prunedLines (used : Text → Bool) (css : Text) :
    ∃ kept, kept.Sublist (lines css) ∧ prune used css = unlines kept := by
  refine ⟨_, ?_, (pruneFiltersChunks used css).2⟩
  have whole : (chunks css).flatten = lines css := chunksFlatten 0 (lines css)
  rw [← whole]
  exact (keptChunksSublist used [] (chunks css)).flatten

theorem prunedTokens (used : Text → Bool) (css : Text) :
    (classTokens (prune used css)).Sublist (classTokens css) := by
  obtain ⟨kept, among, pruned⟩ := prunedLines used css
  rw [pruned, classTokensUnlines, classTokensLines css]
  exact among.flatMap classTokens

theorem prunedNames (used : Text → Bool) (css : Text) : classNames (prune used css) ⊆ classNames css :=
  fun _ mem => memClassNames.mpr ((prunedTokens used css).subset (memClassNames.mp mem))

theorem eraseDupsOnce {α : Type} [BEq α] [LawfulBEq α] (items : List α) : items.eraseDups.Nodup := by
  induction size : items.length using Nat.strong_induction_on generalizing items with
  | _ size ih =>
    subst size
    cases items with
    | nil => exact .nil
    | cons item rest =>
      rw [List.eraseDups_cons, List.nodup_cons]
      refine ⟨by simp, ih _ ?_ _ rfl⟩
      exact Nat.lt_succ_of_le (List.length_filter_le _ _)

theorem prunedCount (used : Text → Bool) (css : Text) : classCount (prune used css) ≤ classCount css :=
  (List.subperm_of_subset (eraseDupsOnce _) (prunedNames used css)).length_le

end SourceSweep.Style
