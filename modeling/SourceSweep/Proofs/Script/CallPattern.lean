import SourceSweep.Proofs.Script.Groups
import SourceSweep.Proofs.Script.LineBreaks
import SourceSweep.Proofs.Text.Form

/-! The form of a call, matched with backtracking, and the count of its parentheses. The groups that the
form nests leave a match no choice, so that it ends where the count says; of what follows the group the
longest part is tried first. -/
namespace SourceSweep.Script
open Text

def isPlain (c : Char) : Bool := c ≠ '(' && c ≠ ')'

def blanks : Form := .many (.one isBlank)

def enclosed (inner : Form) : Form := .both (.text ['(']) (.both (.many inner) (.text [')']))

/-- What stands in the parentheses of a group: characters, and groups of fewer levels. -/
def argument : (levels : Nat) → Form
  | 0 => .one isPlain
  | levels + 1 => .either (.one isPlain) (enclosed (argument levels))

def ending : Form := .both blanks (.both (.maybe (.text [';'])) (.both blanks (.maybe (.text ['\n']))))

def callPattern : Form := .both (.text logToken) (.both blanks (.both (enclosed (argument 2)) ending))

/-- How far it is to the parenthesis that closes a group, if no more levels than `levels` are open at
once before it. -/
def shallowLength? (levels : Nat) (text : Text) : Option Nat :=
  (closingLength? 1 text).filter fun length => deepest 1 (text.take length) ≤ levels

theorem closingOuter {levels : Nat} (inside : 1 ≤ levels) {text : Text} (unclosed : closingLength? levels text = none)
    (depth : Nat) : closingLength? (depth + levels) text = none := by
  induction text generalizing levels with
  | nil => rfl
  | cons c rest ih =>
    rw [closingLength?] at unclosed ⊢
    split at unclosed
    · cases unclosed
    · rename_i more
      have notLast : ¬ (c = ')' ∧ levels ≤ 1) := by simpa using more
      have notOuter : ¬ (c = ')' ∧ depth + levels ≤ 1) := fun last => notLast ⟨last.1, by omega⟩
      obtain ⟨level, still⟩ := levelAfterMore inside notLast depth
      rw [if_neg (by simpa using notOuter), level, ih still (Option.map_eq_none_iff.mp unclosed)]
      rfl

theorem deepestWithin {levels length : Nat} (inside : 1 ≤ levels) {text : Text}
    (ends : closingLength? levels text = some length) (depth : Nat) (behind : Text) :
    deepest (depth + levels) (text.take length ++ behind) =
      max (depth + deepest levels (text.take length)) (deepest depth behind) := by
  induction text generalizing levels length with
  | nil => cases ends
  | cons c rest ih =>
    rcases closingCons ends with ⟨rfl, low, rfl⟩ | ⟨inner, rfl, more, found⟩
    · obtain rfl : levels = 1 := by omega
      simp [deepest, levelAfter]
    · obtain ⟨level, still⟩ := levelAfterMore inside more depth
      rw [List.take_succ_cons, List.cons_append, deepest, level, ih still found, deepest]
      omega

theorem shallowNone {text : Text} (unclosed : closingLength? 1 text = none) (levels : Nat) :
    shallowLength? levels text = none := by rw [shallowLength?, unclosed, Option.filter_none]

theorem shallowOf {text : Text} {length : Nat} (ends : closingLength? 1 text = some length) (levels : Nat) :
    shallowLength? levels text = if deepest 1 (text.take length) ≤ levels then some length else none := by
  rw [shallowLength?, ends, Option.filter_some]
  simp only [decide_eq_true_eq]

section
variable (levels : Nat)

theorem shallowClose (rest : Text) : shallowLength? (levels + 1) (')' :: rest) = some 1 := by
  have closes : closingLength? 1 (')' :: rest) = some 1 := rfl
  rw [shallowOf closes]
  simp [deepest, levelAfter]

theorem shallowPlain {c : Char} (plain : isPlain c = true) (rest : Text) :
    shallowLength? (levels + 1) (c :: rest) = (shallowLength? (levels + 1) rest).map (1 + ·) := by
  obtain ⟨notOpen, notClose⟩ : c ≠ '(' ∧ c ≠ ')' := by simpa [isPlain] using plain
  have same : levelAfter 1 c = 1 := by simp [levelAfter, notOpen, notClose]
  have past : closingLength? 1 (c :: rest) = (closingLength? 1 rest).map (· + 1) := by
    simp [closingLength?, notClose, same]
  cases ends : closingLength? 1 rest with
  | none =>
    rw [ends] at past
    rw [shallowNone past, shallowNone ends, Option.map_none]
  | some length =>
    rw [ends] at past
    have reached := deepestLe 1 (rest.take length)
    rw [shallowOf past, shallowOf ends, List.take_succ_cons, deepest, same, Nat.max_eq_right reached]
    split
    · rw [Option.map_some, Nat.add_comm 1]
    · rfl

theorem shallowOpen (rest : Text) : shallowLength? (levels + 1) ('(' :: rest) =
    (shallowLength? levels rest).bind fun inner =>
      (shallowLength? (levels + 1) (rest.drop inner)).map (1 + inner + ·) := by
  have opened : closingLength? 1 ('(' :: rest) = (closingLength? 2 rest).map (· + 1) := rfl
  cases inner : closingLength? 1 rest with
  | none =>
    have unclosed : closingLength? 1 ('(' :: rest) = none := by
      rw [opened, closingOuter (Nat.le_refl 1) inner 1, Option.map_none]
    rw [shallowNone unclosed, shallowNone inner, Option.bind_none]
  | some length =>
    rw [closingWithin (Nat.le_refl 1) (Nat.le_refl 1) inner] at opened
    cases outer : closingLength? 1 (rest.drop length) with
    | none =>
      rw [outer] at opened
      rw [shallowNone opened, shallowOf inner]
      split
      · rw [Option.bind_some, shallowNone outer, Option.map_none]
      · rfl
    | some far =>
      rw [outer] at opened
      have whole : rest.take (far + length) = rest.take length ++ (rest.drop length).take far := by
        rw [Nat.add_comm, List.take_add]
      have reached : deepest 1 ('(' :: rest.take (far + length)) =
          max (1 + deepest 1 (rest.take length)) (deepest 1 ((rest.drop length).take far)) := by
        have within := deepestWithin (Nat.le_refl 1) inner 1 ((rest.drop length).take far)
        rw [← whole] at within
        rw [deepest, show levelAfter 1 '(' = 1 + 1 from rfl, within]
        omega
      rw [shallowOf opened, shallowOf inner, List.take_succ_cons, reached]
      by_cases low : deepest 1 (rest.take length) ≤ levels
      · rw [if_pos low, Option.bind_some, shallowOf outer]
        by_cases low' : deepest 1 ((rest.drop length).take far) ≤ levels + 1
        · rw [if_pos low', if_pos (by omega), Option.map_some]
          exact congrArg some (show far + length + 1 = 1 + length + far by omega)
        · rw [if_neg low', if_neg (by omega), Option.map_none]
      · rw [if_neg low, if_neg (by omega), Option.bind_none]

end

theorem shallowNever (text : Text) : shallowLength? 0 text = none := by
  refine Option.filter_eq_none_iff.mpr fun length _ => ?_
  have inside := deepestLe 1 (text.take length)
  simp only [decide_eq_true_eq]
  omega

theorem enclosedMissed (inner : Form) {c : Char} (other : c ≠ '(') (before : Option Char) (rest : Text) :
    (enclosed inner).ways ⟨before, c :: rest⟩ = [] :=
  Form.bothMissed (by simp [Form.waysText, other.symm])

theorem enclosedOpen (inner : Form) (before : Option Char) (rest : Text) :
    (enclosed inner).ways ⟨before, '(' :: rest⟩ =
      ((Form.both (.many inner) (.text [')'])).ways ⟨some '(', rest⟩).map (1 + ·) :=
  Form.bothOnly (by simp [Form.waysText])

theorem argumentPlain (levels : Nat) {c : Char} (plain : isPlain c = true) (before : Option Char) (rest : Text) :
    (argument levels).ways ⟨before, c :: rest⟩ = [1] := by
  cases levels with
  | zero => exact Form.oneFits plain
  | succ levels =>
    have other : c ≠ '(' := fun same => absurd (same ▸ plain) (by decide)
    rw [argument, Form.waysEither, Form.oneFits plain, enclosedMissed _ other, List.append_nil]

theorem argumentClose (levels : Nat) (before : Option Char) (rest : Text) :
    (argument levels).ways ⟨before, ')' :: rest⟩ = [] := by
  cases levels with
  | zero => rfl
  | succ levels => rw [argument, Form.waysEither, Form.oneMissed rfl, enclosedMissed _ (by decide), List.append_nil]

theorem argumentAtEnd (levels : Nat) (before : Option Char) : (argument levels).ways ⟨before, []⟩ = [] := by
  cases levels <;> rfl

section
variable {levels : Nat} (opens : ∀ before rest,
  (argument levels).ways ⟨before, '(' :: rest⟩ = ((shallowLength? levels rest).map (1 + ·)).toList)
include opens

/- A repetition of what may stand in a group ends in one way, at the parenthesis that closes the group. -/
theorem groupWays (spot : Usage.Spot) : (Form.both (.many (argument levels)) (.text [')'])).ways spot =
    (shallowLength? (levels + 1) spot.rest).toList := by
  induction size : spot.rest.length using Nat.strong_induction_on generalizing spot with
  | _ size ih =>
    subst size
    obtain ⟨before, text⟩ := spot
    cases text with
    | nil =>
      rw [Form.manyEnds (argumentAtEnd levels before)]
      rfl
    | cons c rest =>
      by_cases closes : c = ')'
      · rw [closes, Form.manyEnds (argumentClose levels before rest), Form.textOne, if_pos rfl, shallowClose]
        rfl
      · have blocked : (Form.text [')']).ways ⟨before, c :: rest⟩ = [] := by rw [Form.textOne, if_neg closes]
        by_cases isOpen : c = '('
        · subst isOpen
          rw [shallowOpen]
          cases inner : shallowLength? levels rest with
          | none =>
            have stop : (argument levels).ways ⟨before, '(' :: rest⟩ = [] := by rw [opens, inner]; rfl
            rw [Form.manyEnds stop, blocked]
            rfl
          | some length =>
            have step : (argument levels).ways ⟨before, '(' :: rest⟩ = [1 + length] := by rw [opens, inner]; rfl
            have shorter : (rest.drop length).length < ('(' :: rest).length := by
              rw [List.length_drop, List.length_cons]
              omega
            have past : onward ⟨before, '(' :: rest⟩ (1 + length) = onward ⟨some '(', rest⟩ length :=
              (onwardTwice _ 1 length).symm
            rw [Form.manyOn step (by omega) blocked, past, ih _ shorter (onward ⟨some '(', rest⟩ length) rfl,
              onwardRest, Option.bind_some]
            cases shallowLength? (levels + 1) (rest.drop length) <;> rfl
        · have plain : isPlain c = true := by simp [isPlain, isOpen, closes]
          rw [Form.manyOn (argumentPlain levels plain before rest) Nat.one_pos blocked, Form.onwardOne,
            ih _ (Nat.lt_succ_self _) ⟨some c, rest⟩ rfl, shallowPlain levels plain]
          cases shallowLength? (levels + 1) rest <;> rfl

end

theorem argumentOpen (levels : Nat) (before : Option Char) (rest : Text) :
    (argument levels).ways ⟨before, '(' :: rest⟩ = ((shallowLength? levels rest).map (1 + ·)).toList := by
  induction levels generalizing before rest with
  | zero =>
    rw [shallowNever]
    rfl
  | succ levels ih =>
    rw [argument, Form.waysEither, Form.oneMissed rfl, List.nil_append, enclosedOpen, groupWays ih]
    cases shallowLength? (levels + 1) rest <;> rfl

theorem argumentsWays (levels : Nat) (spot : Usage.Spot) :
    (Form.both (.many (argument levels)) (.text [')'])).ways spot = (shallowLength? (levels + 1) spot.rest).toList :=
  groupWays (argumentOpen levels) spot

theorem shallowGroup (text : Text) : shallowLength? depthLimit text = groupLength? 1 text := by
  refine Option.ext fun length => ?_
  rw [groupLengthIff (by decide), shallowLength?, Option.filter_eq_some_iff, decide_eq_true_eq]

theorem feedBehindBlanks {spot : Usage.Spot} {text : Text} (skipped : spot.rest = skipBlanks text) :
    (Form.maybe (.text ['\n'])).length? spot = some 0 := by
  cases ahead : skipBlanks text with
  | nil => simp [Form.length?, Form.waysMaybe, Form.waysText, skipped, ahead]
  | cons c rest =>
    have other : c ≠ '\n' := inkNotFeed (skipBlanksHead ahead)
    simp [Form.length?, Form.waysMaybe, Form.waysText, skipped, ahead, other.symm]

theorem feedAfterBlanks {spot : Usage.Spot} {text : Text} (ahead : spot.rest = text) :
    (Form.both blanks (.maybe (.text ['\n']))).length? spot = some (blankLength text) := by
  have gap : blanks.length? spot = some (blankLength text) := by
    rw [← ahead]
    exact Form.runLength spot
  have behind : (onward spot (blankLength text)).rest = skipBlanks text := by
    rw [onwardRest, ahead, dropBlanks]
  exact Form.bothFirst gap (feedBehindBlanks behind)

theorem endingLength (spot : Usage.Spot) : ending.length? spot = some (terminatorLength spot.rest) := by
  have gap : blanks.length? spot = some (blankLength spot.rest) := Form.runLength spot
  have behind : (onward spot (blankLength spot.rest)).rest = skipBlanks spot.rest := dropBlanks spot.rest
  rw [terminatorLength]
  refine Form.bothFirst gap ?_
  split
  · rename_i rest mark
    have semicolon : (Form.maybe (.text [';'])).length? (onward spot (blankLength spot.rest)) = some 1 := by
      simp [Form.length?, Form.waysMaybe, Form.waysText, behind, mark]
    refine Form.bothFirst semicolon (feedAfterBlanks ?_)
    rw [onwardRest, behind, mark, List.drop_one, List.tail_cons]
  · rename_i other
    have none : (Form.maybe (.text [';'])).length? (onward spot (blankLength spot.rest)) = some 0 := by
      cases ahead : skipBlanks spot.rest with
      | nil => simp [Form.length?, Form.waysMaybe, Form.waysText, behind, ahead]
      | cons c rest =>
        have notMark : c ≠ ';' := fun same => other rest (same ▸ ahead)
        simp [Form.length?, Form.waysMaybe, Form.waysText, behind, ahead, notMark.symm]
    have still : blankLength (skipBlanks spot.rest) = 0 := by
      cases ahead : skipBlanks spot.rest with
      | nil => rfl
      | cons c rest => simp [blankLength, skipBlanksHead ahead]
    have last := feedAfterBlanks behind
    rw [still] at last
    exact Form.bothFirst none last

theorem enclosedWays (levels : Nat) {spot : Usage.Spot} {group : Text} (opens : spot.rest = '(' :: group) :
    (enclosed (argument levels)).ways spot = ((shallowLength? (levels + 1) group).map (1 + ·)).toList := by
  obtain ⟨before, text⟩ := spot
  obtain rfl : text = '(' :: group := opens
  rw [enclosedOpen, argumentsWays]
  cases shallowLength? (levels + 1) group <;> rfl

theorem groupAndEnding (spot : Usage.Spot) : (Form.both (enclosed (argument 2)) ending).length? spot =
    match spot.rest with
    | '(' :: group => (groupLength? 1 group).map fun inner => 1 + inner + terminatorLength (group.drop inner)
    | _ => none := by
  split
  · rename_i group opens
    have ways := enclosedWays 2 opens
    rw [show 2 + 1 = depthLimit from rfl, shallowGroup] at ways
    cases inner : groupLength? 1 group with
    | none =>
      rw [inner] at ways
      exact Form.lengthMissed ways
    | some length =>
      rw [inner] at ways
      have behind : (onward spot (1 + length)).rest = group.drop length := by
        rw [onwardRest, opens, Nat.add_comm, List.drop_succ_cons]
      rw [Form.lengthOnly ways, endingLength, behind]
      rfl
  · rename_i other
    refine Form.lengthMissed ?_
    obtain ⟨before, text⟩ := spot
    cases text with
    | nil => rfl
    | cons c rest => exact enclosedMissed _ (fun same => other rest (congrArg (· :: rest) same)) before rest

theorem callPatternLength (spot : Usage.Spot) : callPattern.length? spot = callLength? spot.rest := by
  rw [callLength?]
  cases token : logToken.isPrefixOf? spot.rest with
  | none =>
    have missed : logToken.isPrefixOf spot.rest = false := by
      rw [← List.isSome_isPrefixOf?_eq_isPrefixOf, token]
      rfl
    exact Form.lengthMissed (by simp [Form.waysText, missed])
  | some behind =>
    have whole := List.isPrefixOf?_eq_some_iff_append_eq.mp token
    have here : (Form.text logToken).ways spot = [logToken.length] := by simp [Form.waysText, ← whole]
    have rest : (onward spot logToken.length).rest = behind := by rw [onwardRest, ← whole, List.drop_left]
    have blocked : ∀ before c rest, isBlank c = true →
        (Form.both (enclosed (argument 2)) ending).ways ⟨before, c :: rest⟩ = [] := by
      intro before c rest blank
      have other : c ≠ '(' := fun same => absurd (same ▸ blank) (by decide)
      exact Form.bothMissed (enclosedMissed _ other before rest)
    have behindGap : (onward (onward spot logToken.length) (behind.takeWhile isBlank).length).rest =
        skipBlanks behind := by
      rw [onwardRest, rest]
      exact dropBlanks behind
    rw [callPattern, Form.lengthOnly here, blanks, Form.lengthRun blocked, rest, groupAndEnding, behindGap]
    cases opens : skipBlanks behind with
    | nil => simp [opens]
    | cons c group =>
      by_cases isOpen : c = '('
      · subst isOpen
        cases inner : groupLength? 1 group with
        | none => simp [opens, inner]
        | some length =>
          simp [opens, inner, blankLength]
          omega
      · simp [opens, isOpen]

end SourceSweep.Script
