import SourceSweep.Proofs.Script.WholeCalls

/-! Groups told by their parentheses, as they stand in the text. A group is closed where the count of its
open levels comes to nothing; a call that is to be dropped keeps the count within a limit, and leaves the
count of any group that it stands in as it was. -/
namespace SourceSweep.Script
open Text

/-- How far it is to the parenthesis that closes a group of which `depth` levels are open, itself
included, however deep the group nests. -/
def closingLength? : (depth : Nat) → Text → Option Nat
  | _, [] => none
  | depth, c :: rest =>
    if c = ')' && depth ≤ 1 then some 1 else (closingLength? (levelAfter depth c) rest).map (· + 1)

def deepest : (depth : Nat) → Text → Nat
  | depth, [] => depth
  | depth, c :: rest => max depth (deepest (levelAfter depth c) rest)

theorem closingCons {depth length : Nat} {c : Char} {rest : Text}
    (ends : closingLength? depth (c :: rest) = some length) :
    (c = ')' ∧ depth ≤ 1 ∧ length = 1) ∨ ∃ inner, length = inner + 1 ∧ ¬ (c = ')' ∧ depth ≤ 1) ∧
      closingLength? (levelAfter depth c) rest = some inner := by
  rw [closingLength?] at ends
  split at ends
  · rename_i last
    obtain ⟨closes, low⟩ : c = ')' ∧ depth ≤ 1 := by simpa using last
    exact .inl ⟨closes, low, (Option.some.inj ends).symm⟩
  · rename_i more
    obtain ⟨inner, found, rfl⟩ := Option.map_eq_some_iff.mp ends
    exact .inr ⟨inner, rfl, by simpa using more, found⟩

theorem closingFront {depth length : Nat} {front : Text} (ends : closingLength? depth front = some length)
    (rest : Text) : closingLength? depth (front ++ rest) = some length := by
  induction front generalizing depth length with
  | nil => cases ends
  | cons c front ih =>
    rw [List.cons_append, closingLength?]
    rcases closingCons ends with ⟨rfl, low, rfl⟩ | ⟨inner, rfl, more, found⟩
    · simp [low]
    · rw [if_neg (by simpa using more), ih found]
      rfl

theorem closingPos {depth length : Nat} {text : Text} (ends : closingLength? depth text = some length) :
    0 < length := by
  cases text with
  | nil => cases ends
  | cons c rest =>
    rcases closingCons ends with ⟨_, _, rfl⟩ | ⟨inner, rfl, _, _⟩
    · exact Nat.one_pos
    · exact Nat.succ_pos inner

theorem deepestLe (depth : Nat) (text : Text) : depth ≤ deepest depth text := by
  cases text with
  | nil => exact Nat.le_refl depth
  | cons c rest => exact Nat.le_max_left depth _

theorem deepestFront (depth : Nat) (front rest : Text) : deepest depth front ≤ deepest depth (front ++ rest) := by
  induction front generalizing depth with
  | nil => exact deepestLe depth rest
  | cons c front ih =>
    have later := ih (levelAfter depth c)
    rw [List.cons_append, deepest, deepest]
    omega

theorem groupStep {depth : Nat} (low : depth ≤ depthLimit) (c : Char) (rest : Text) :
    groupLength? depth (c :: rest) =
      if c = ')' && depth ≤ 1 then some 1
      else if depthLimit < levelAfter depth c then none
      else (groupLength? (levelAfter depth c) rest).map (· + 1) := by
  rw [groupLength?, levelAfter]
  by_cases opens : c = '('
  · have other : c ≠ ')' := by rw [opens]; decide
    by_cases more : depth < depthLimit
    · simp [opens, more, Nat.not_lt.mpr (Nat.succ_le_of_lt more)]
    · simp [opens, more, Nat.lt_succ_of_le (Nat.not_lt.mp more)]
  · by_cases closes : c = ')'
    · by_cases last : depth ≤ 1
      · simp [closes, last]
      · have less : ¬ depthLimit < depth - 1 := by omega
        simp [closes, last, less]
    · simp [opens, closes, Nat.not_lt.mpr low]

theorem groupLengthIff {depth length : Nat} {text : Text} (low : depth ≤ depthLimit) :
    groupLength? depth text = some length ↔
      closingLength? depth text = some length ∧ deepest depth (text.take length) ≤ depthLimit := by
  induction text generalizing depth length with
  | nil => simp [groupLength?, closingLength?]
  | cons c rest ih =>
    rw [groupStep low, closingLength?]
    by_cases last : (c = ')' && depth ≤ 1) = true
    · rw [if_pos last, if_pos last]
      obtain ⟨closes, _⟩ : c = ')' ∧ depth ≤ 1 := by simpa using last
      refine ⟨fun ends => ⟨ends, ?_⟩, And.left⟩
      cases ends
      have below : levelAfter depth ')' = depth - 1 := rfl
      simp only [closes, List.take_succ_cons, List.take_zero, deepest, below]
      omega
    · rw [if_neg last, if_neg last]
      by_cases tooDeep : depthLimit < levelAfter depth c
      · rw [if_pos tooDeep]
        constructor
        · intro none
          cases none
        · rintro ⟨ends, within⟩
          obtain ⟨inner, _, rfl⟩ := Option.map_eq_some_iff.mp ends
          have reached := deepestLe (levelAfter depth c) (rest.take inner)
          rw [List.take_succ_cons, deepest] at within
          omega
      · have within := Nat.not_lt.mp tooDeep
        rw [if_neg tooDeep]
        cases length with
        | zero => simp
        | succ inner =>
          have bound : ∀ further, max depth further ≤ depthLimit ↔ further ≤ depthLimit := by omega
          rw [List.take_succ_cons, deepest, bound, Option.map_eq_some_iff, Option.map_eq_some_iff]
          simp only [Nat.add_right_cancel_iff, exists_eq_right, ih within]

/-! Dropped calls within a group: they open and close levels of their own, and leave it at the level that
it had. -/

theorem closingPlain {front : Text} (noOpen : '(' ∉ front) (noClose : ')' ∉ front) (depth : Nat) (rest : Text) :
    closingLength? depth (front ++ rest) = (closingLength? depth rest).map (· + front.length) := by
  induction front with
  | nil => simp
  | cons c front ih =>
    have notOpen : c ≠ '(' := (List.ne_of_not_mem_cons noOpen).symm
    have notClose : c ≠ ')' := (List.ne_of_not_mem_cons noClose).symm
    have same : levelAfter depth c = depth := by simp [levelAfter, notOpen, notClose]
    rw [List.cons_append, closingLength?, same, ih (List.not_mem_of_not_mem_cons noOpen)
      (List.not_mem_of_not_mem_cons noClose)]
    simp [notClose, Function.comp_def, Nat.add_assoc]

theorem levelAfterMore {levels : Nat} {c : Char} (some : 1 ≤ levels) (more : ¬ (c = ')' ∧ levels ≤ 1))
    (depth : Nat) : levelAfter (depth + levels) c = depth + levelAfter levels c ∧ 1 ≤ levelAfter levels c := by
  unfold levelAfter
  split
  · omega
  · split
    · rename_i closes
      have : ¬ levels ≤ 1 := fun few => more ⟨closes, few⟩
      omega
    · omega

theorem closingWithin {depth levels length : Nat} {text : Text} (inside : 1 ≤ depth) (some : 1 ≤ levels)
    (ends : closingLength? levels text = Option.some length) :
    closingLength? (depth + levels) text = (closingLength? depth (text.drop length)).map (· + length) := by
  induction text generalizing levels length with
  | nil => cases ends
  | cons c rest ih =>
    have notLast : ¬ (decide (c = ')') && decide (depth + levels ≤ 1)) = true := by
      simp only [Bool.and_eq_true, decide_eq_true_eq]
      omega
    rw [closingLength?, if_neg notLast]
    rcases closingCons ends with ⟨rfl, low, rfl⟩ | ⟨inner, rfl, more, found⟩
    · have level : levelAfter (depth + levels) ')' = depth := by
        have : levels = 1 := by omega
        simp [levelAfter, this]
      rw [level, List.drop_succ_cons, List.drop_zero]
    · obtain ⟨level, still⟩ := levelAfterMore some more depth
      rw [level, ih still found, List.drop_succ_cons]
      simp [Function.comp_def, Nat.add_assoc]

theorem terminatorPlain {tail : Text} (ends : isTerminator tail = true) : '(' ∉ tail ∧ ')' ∉ tail := by
  have char : ∀ c ∈ tail, isBlank c = true ∨ c = ';' := by
    intro c mem
    rw [← List.takeWhile_append_dropWhile (p := isBlank) (l := tail)] at mem
    rcases List.mem_append.mp mem with gap | behind
    · exact .inl (List.all_eq_true.mp List.all_takeWhile c gap)
    · unfold isTerminator skipBlanks at ends
      split at ends
      · rename_i none
        rw [none] at behind
        cases behind
      · rename_i d rest mark
        rw [mark] at behind
        obtain ⟨semicolon, blank⟩ : d = ';' ∧ allBlank rest = true := by simpa using ends
        rcases List.mem_cons.mp behind with rfl | mem
        · exact .inr semicolon
        · exact .inl (List.all_eq_true.mp blank c mem)
  exact ⟨fun mem => absurd (char _ mem) (by decide), fun mem => absurd (char _ mem) (by decide)⟩

theorem blankPlain {gap : Text} (blank : allBlank gap = true) : '(' ∉ gap ∧ ')' ∉ gap :=
  ⟨fun mem => absurd (List.all_eq_true.mp blank _ mem) (by decide),
    fun mem => absurd (List.all_eq_true.mp blank _ mem) (by decide)⟩

theorem closingPastCall {depth length : Nat} {text : Text} (inside : 1 ≤ depth)
    (found : callLength? text = some length) :
    closingLength? depth text = (closingLength? depth (text.drop length)).map (· + length) := by
  obtain ⟨gap, args, tail, rest, rfl, rfl, blank, terminator, group⟩ := callParts found
  have closes := ((groupLengthIff (by decide)).mp group).1
  have front : '(' ∉ logToken ++ gap ∧ ')' ∉ logToken ++ gap := by
    have token : '(' ∉ logToken ∧ ')' ∉ logToken := by decide
    simp [token, blankPlain blank]
  have opening : closingLength? depth ('(' :: (args ++ (tail ++ rest))) =
      (closingLength? (depth + 1) (args ++ (tail ++ rest))).map (· + 1) := by
    rw [closingLength?]
    rfl
  have plain := terminatorPlain terminator
  rw [List.drop_left]
  rw [show (logToken ++ gap ++ ['(']) ++ args ++ tail ++ rest =
    (logToken ++ gap) ++ '(' :: (args ++ (tail ++ rest)) by simp, closingPlain front.1 front.2, opening,
    closingWithin inside (Nat.le_refl 1) closes, List.drop_left, closingPlain plain.1 plain.2]
  cases closingLength? depth rest with
  | none => rfl
  | some far =>
    simp
    omega

end SourceSweep.Script
