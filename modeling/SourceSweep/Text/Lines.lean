import SourceSweep.Text.Basic

/-! A text cut at its line feeds, and put together again. The last line is the one that no line
feed ends; a text without any is one line. -/
namespace SourceSweep.Text

def cutAt (separator : Char) : Text → List Text
  | [] => [[]]
  | c :: rest =>
    if c = separator then [] :: cutAt separator rest
    else match cutAt separator rest with
      | [] => [[c]]
      | piece :: pieces => (c :: piece) :: pieces

def joinWith (separator : Char) : List Text → Text
  | [] => []
  | [piece] => piece
  | piece :: pieces => piece ++ separator :: joinWith separator pieces

def lines (text : Text) : List Text := cutAt '\n' text

def unlines (pieces : List Text) : Text := joinWith '\n' pieces

theorem joinWithCons {separator : Char} (piece : Text) {rest : List Text} (more : rest ≠ []) :
    joinWith separator (piece :: rest) = piece ++ separator :: joinWith separator rest := by
  cases rest with
  | nil => exact absurd rfl more
  | cons next rest => rfl

theorem cutAtNeNil (separator : Char) (text : Text) : cutAt separator text ≠ [] := by
  cases text with
  | nil => simp [cutAt]
  | cons c rest =>
    simp only [cutAt]
    split
    · simp
    · split <;> simp

theorem cutAtSeparator (separator : Char) (rest : Text) :
    cutAt separator (separator :: rest) = [] :: cutAt separator rest := if_pos rfl

theorem cutAtOther {separator c : Char} {rest piece : Text} {pieces : List Text} (other : c ≠ separator)
    (cut : cutAt separator rest = piece :: pieces) : cutAt separator (c :: rest) = (c :: piece) :: pieces := by
  rw [cutAt, if_neg other, cut]

theorem joinWithCutAt (separator : Char) (text : Text) :
    joinWith separator (cutAt separator text) = text := by
  induction text with
  | nil => rfl
  | cons c rest ih =>
    obtain ⟨piece, pieces, cut⟩ := List.exists_cons_of_ne_nil (cutAtNeNil separator rest)
    rw [cut] at ih
    by_cases same : c = separator
    · rw [same, cutAtSeparator, cut, joinWithCons [] (List.cons_ne_nil piece pieces), ih, List.nil_append]
    · rw [cutAtOther same cut]
      cases pieces <;> exact congrArg (c :: ·) ih

theorem cutAtFree (separator : Char) (text : Text) : ∀ piece ∈ cutAt separator text,
    separator ∉ piece := by
  induction text with
  | nil => exact List.forall_mem_singleton.mpr List.not_mem_nil
  | cons c rest ih =>
    obtain ⟨piece, pieces, cut⟩ := List.exists_cons_of_ne_nil (cutAtNeNil separator rest)
    rw [cut] at ih
    by_cases same : c = separator
    · rw [same, cutAtSeparator, cut]
      intro other mem
      rcases List.mem_cons.mp mem with rfl | mem
      · exact List.not_mem_nil
      · exact ih other mem
    · rw [cutAtOther same cut]
      intro other mem
      rcases List.mem_cons.mp mem with rfl | mem
      · have free := ih piece List.mem_cons_self
        exact fun mem => (List.mem_cons.mp mem).elim (fun eq => same eq.symm) free
      · exact ih other (List.mem_cons_of_mem piece mem)

theorem cutAtOfFree {separator : Char} {piece : Text} (free : separator ∉ piece) :
    cutAt separator piece = [piece] := by
  induction piece with
  | nil => rfl
  | cons c rest ih =>
    have differ : c ≠ separator := (List.ne_of_not_mem_cons free).symm
    exact cutAtOther differ (ih (List.not_mem_of_not_mem_cons free))

theorem cutAtAppend {separator : Char} {piece : Text} (free : separator ∉ piece) (rest : Text) :
    cutAt separator (piece ++ separator :: rest) = piece :: cutAt separator rest := by
  induction piece with
  | nil => exact cutAtSeparator separator rest
  | cons c piece ih =>
    have differ : c ≠ separator := (List.ne_of_not_mem_cons free).symm
    exact cutAtOther differ (ih (List.not_mem_of_not_mem_cons free))

theorem cutAtBoth (separator : Char) (front rest : Text) :
    cutAt separator (front ++ separator :: rest) = cutAt separator front ++ cutAt separator rest := by
  induction front with
  | nil => exact cutAtSeparator separator rest
  | cons c front ih =>
    by_cases same : c = separator
    · rw [same, List.cons_append, cutAtSeparator, cutAtSeparator, ih, List.cons_append]
    · obtain ⟨piece, pieces, cut⟩ := List.exists_cons_of_ne_nil (cutAtNeNil separator front)
      rw [cut, List.cons_append] at ih
      rw [List.cons_append, cutAtOther same ih, cutAtOther same cut, List.cons_append]

theorem cutAtJoinWith {separator : Char} {pieces : List Text} (some : pieces ≠ [])
    (free : ∀ piece ∈ pieces, separator ∉ piece) :
    cutAt separator (joinWith separator pieces) = pieces := by
  induction pieces with
  | nil => exact absurd rfl some
  | cons piece rest ih =>
    have first := free piece List.mem_cons_self
    cases rest with
    | nil => exact cutAtOfFree first
    | cons next rest =>
      rw [joinWithCons piece (List.cons_ne_nil next rest), cutAtAppend first, ih (List.cons_ne_nil next rest)]
      exact fun piece mem => free piece (List.mem_cons_of_mem _ mem)

end SourceSweep.Text
