import Mathlib.Data.List.Basic
import SourceSweep.Text.Basic
import SourceSweep.Usage.Reference

/-! Forms of text that are matched with backtracking. A form can match in several ways; they are tried in
order, of a repetition the longer ones first, and the first way counts. -/
namespace SourceSweep.Text
open Usage (Spot)

inductive Form where
  | text (literal : Text)
  | one (fits : Char → Bool)
  | lineStart
  | both (first second : Form)
  | either (first second : Form)
  | maybe (form : Form)
  | many (form : Form)

def onward (spot : Spot) (length : Nat) : Spot :=
  spot.past (spot.rest.take length) (spot.rest.drop length)

namespace Form

/-- The lengths of up to so many rounds in a row. A round that takes nothing is the last one. -/
def repeats (ways : Spot → List Nat) : (rounds : Nat) → Spot → List Nat
  | 0, _ => [0]
  | rounds + 1, spot =>
    ((ways spot).flatMap fun length =>
      if length = 0 then [0] else (repeats ways rounds (onward spot length)).map (length + ·)) ++ [0]

def ways : Form → Spot → List Nat
  | text literal, spot => if literal.isPrefixOf spot.rest then [literal.length] else []
  | one fits, spot => if spot.rest.head?.any fits then [1] else []
  | lineStart, spot => if spot.before.all (· = '\n') then [0] else []
  | both first second, spot =>
    (first.ways spot).flatMap fun length => (second.ways (onward spot length)).map (length + ·)
  | either first second, spot => first.ways spot ++ second.ways spot
  | maybe form, spot => form.ways spot ++ [0]
  | many form, spot => repeats form.ways (spot.rest.length + 1) spot

def length? (form : Form) (spot : Spot) : Option Nat := (form.ways spot).head?

/-- The text with every match replaced, found from left to right, when `pending` characters of the match
found last are still to be passed over. Matches of nothing are left alone. -/
def replaceAfter (form : Form) (standIn : Text → Text) : (pending : Nat) → (before : Option Char) → Text → Text
  | _, _, [] => []
  | pending + 1, _, c :: rest => replaceAfter form standIn pending (some c) rest
  | 0, before, c :: rest =>
    match form.length? ⟨before, c :: rest⟩ with
    | some (length + 1) =>
      standIn ((c :: rest).take (length + 1)) ++ replaceAfter form standIn length (some c) rest
    | _ => c :: replaceAfter form standIn 0 (some c) rest

def replaceFrom (form : Form) (standIn : Text → Text) (spot : Spot) : Text :=
  replaceAfter form standIn 0 spot.before spot.rest

def replace (form : Form) (standIn : Text → Text) (text : Text) : Text :=
  form.replaceFrom standIn ⟨none, text⟩

end Form

theorem onwardNone (spot : Spot) : onward spot 0 = spot := rfl

theorem onwardRest (spot : Spot) (length : Nat) : (onward spot length).rest = spot.rest.drop length := rfl

theorem onwardTwice (spot : Spot) (length more : Nat) :
    onward (onward spot length) more = onward spot (length + more) := by
  simp only [onward, Spot.past, List.take_add, List.getLast?_append, Option.or_assoc, List.drop_drop]

theorem onwardLine (before : Option Char) (line : Text) (c : Char) (rest : Text) :
    onward ⟨before, line ++ c :: rest⟩ (line.length + 1) = ⟨some c, rest⟩ := by
  have whole : line ++ c :: rest = (line ++ [c]) ++ rest := by simp
  have size : line.length + 1 = (line ++ [c]).length := by simp
  simp only [onward, Spot.past, whole, size, List.take_left, List.drop_left, List.getLast?_concat, Option.some_or]

namespace Form
variable {form body after first second : Form} {spot : Spot} {length : Nat}

theorem waysText (literal : Text) (spot : Spot) :
    (text literal).ways spot = if literal.isPrefixOf spot.rest then [literal.length] else [] := rfl

theorem waysOne (fits : Char → Bool) (spot : Spot) :
    (one fits).ways spot = if spot.rest.head?.any fits then [1] else [] := rfl

theorem waysLineStart (spot : Spot) :
    lineStart.ways spot = if spot.before.all (· = '\n') then [0] else [] := rfl

theorem waysBoth (first second : Form) (spot : Spot) : (both first second).ways spot =
    (first.ways spot).flatMap fun length => (second.ways (onward spot length)).map (length + ·) := rfl

theorem waysEither (first second : Form) (spot : Spot) :
    (either first second).ways spot = first.ways spot ++ second.ways spot := rfl

theorem waysMaybe (form : Form) (spot : Spot) : (maybe form).ways spot = form.ways spot ++ [0] := rfl

theorem waysMany (form : Form) (spot : Spot) :
    (many form).ways spot = repeats form.ways (spot.rest.length + 1) spot := rfl

theorem repeatsMore (ways : Spot → List Nat) (rounds : Nat) (spot : Spot) : repeats ways (rounds + 1) spot =
    ((ways spot).flatMap fun length =>
      if length = 0 then [0] else (repeats ways rounds (onward spot length)).map (length + ·)) ++ [0] := rfl

def Within (ways : Spot → List Nat) : Prop := ∀ spot, ∀ length ∈ ways spot, length ≤ spot.rest.length

theorem withinBoth {taken further : Nat} (ahead : taken ≤ spot.rest.length)
    (behind : further ≤ (onward spot taken).rest.length) : taken + further ≤ spot.rest.length := by
  rw [onwardRest, List.length_drop] at behind
  omega

theorem noneWithin (mem : length ∈ [0]) : length ≤ spot.rest.length :=
  List.mem_singleton.mp mem ▸ Nat.zero_le _

theorem repeatsWithin {ways : Spot → List Nat} (within : Within ways) (rounds : Nat) :
    Within (repeats ways rounds) := by
  induction rounds with
  | zero => exact fun _ _ => noneWithin
  | succ rounds ih =>
    intro spot length mem
    rcases List.mem_append.mp mem with more | none
    · obtain ⟨taken, here, later⟩ := List.mem_flatMap.mp more
      split at later
      · exact noneWithin later
      · obtain ⟨further, among, rfl⟩ := List.mem_map.mp later
        exact withinBoth (within spot taken here) (ih _ further among)
    · exact noneWithin none

theorem waysWithin (form : Form) : Within form.ways := by
  induction form with
  | text literal =>
    intro spot length mem
    rw [waysText] at mem
    split at mem
    · rename_i begins
      rw [List.mem_singleton.mp mem]
      exact (List.isPrefixOf_iff_prefix.mp begins).length_le
    · cases mem
  | one fits =>
    intro spot length mem
    rw [waysOne] at mem
    cases ahead : spot.rest with
    | nil => simp [ahead] at mem
    | cons c rest =>
      split at mem
      · rw [List.mem_singleton.mp mem]
        exact Nat.succ_le_succ (Nat.zero_le _)
      · cases mem
  | lineStart =>
    intro spot length mem
    rw [waysLineStart] at mem
    split at mem
    · exact noneWithin mem
    · cases mem
  | both first second ahead behind =>
    intro spot length mem
    obtain ⟨taken, here, later⟩ := List.mem_flatMap.mp mem
    obtain ⟨further, among, rfl⟩ := List.mem_map.mp later
    exact withinBoth (ahead spot taken here) (behind _ further among)
  | either first second ahead behind =>
    intro spot length mem
    exact (List.mem_append.mp mem).elim (ahead spot length) (behind spot length)
  | maybe form ih =>
    intro spot length mem
    rcases List.mem_append.mp mem with some | none
    · exact ih spot length some
    · exact noneWithin none
  | many form ih => exact fun spot => repeatsWithin ih (spot.rest.length + 1) spot

/- As every round but the last takes something, there are at most as many more as there are characters. -/
theorem repeatsOneMore {ways : Spot → List Nat} (within : Within ways) {rounds : Nat}
    (enough : spot.rest.length < rounds) : repeats ways (rounds + 1) spot = repeats ways rounds spot := by
  induction rounds generalizing spot with
  | zero => cases enough
  | succ rounds ih =>
    rw [repeatsMore, repeatsMore]
    refine congrArg (· ++ [0]) (List.flatMap_congr fun length mem => ?_)
    by_cases none : length = 0
    · rw [if_pos none, if_pos none]
    · have bound := within spot length mem
      have fewer : (onward spot length).rest.length < rounds := by
        rw [onwardRest, List.length_drop]
        omega
      rw [if_neg none, if_neg none, ih fewer]

theorem repeatsEnough {ways : Spot → List Nat} (within : Within ways) {rounds : Nat}
    (enough : spot.rest.length < rounds) :
    repeats ways rounds spot = repeats ways (spot.rest.length + 1) spot := by
  obtain ⟨extra, rfl⟩ := Nat.exists_eq_add_of_lt enough
  clear enough
  induction extra with
  | zero => rfl
  | succ extra ih =>
    have more : spot.rest.length < spot.rest.length + extra + 1 := by omega
    rw [show spot.rest.length + (extra + 1) + 1 = spot.rest.length + extra + 1 + 1 from rfl,
      repeatsOneMore within more, ih]

theorem manyWays (form : Form) (spot : Spot) : (many form).ways spot =
    ((form.ways spot).flatMap fun length =>
      if length = 0 then [0] else ((many form).ways (onward spot length)).map (length + ·)) ++ [0] := by
  rw [waysMany, repeatsMore]
  refine congrArg (· ++ [0]) (List.flatMap_congr fun length mem => ?_)
  by_cases none : length = 0
  · rw [if_pos none, if_pos none]
  · have bound := waysWithin form spot length mem
    have enough : (onward spot length).rest.length < spot.rest.length := by
      rw [onwardRest, List.length_drop]
      omega
    rw [if_neg none, if_neg none, repeatsEnough (waysWithin form) enough, waysMany]

theorem bothOnly (here : first.ways spot = [length]) :
    (both first second).ways spot = (second.ways (onward spot length)).map (length + ·) := by
  rw [waysBoth, here, List.flatMap_singleton]

theorem bothMissed (here : first.ways spot = []) : (both first second).ways spot = [] := by
  rw [waysBoth, here, List.flatMap_nil]

theorem bothFirst {more : Nat} (here : first.length? spot = some length)
    (next : second.length? (onward spot length) = some more) :
    (both first second).length? spot = some (length + more) := by
  obtain ⟨others, here⟩ := List.head?_eq_some_iff.mp here
  obtain ⟨others', next⟩ := List.head?_eq_some_iff.mp next
  rw [length?, waysBoth, here, List.flatMap_cons, next]
  rfl

theorem lengthOnly (here : first.ways spot = [length]) :
    (both first second).length? spot = (second.length? (onward spot length)).map (length + ·) := by
  rw [length?, bothOnly here, List.head?_map, length?]

theorem lengthMissed (here : first.ways spot = []) : (both first second).length? spot = none := by
  rw [length?, bothMissed here, List.head?_nil]

theorem manyOnOr (step : body.ways spot = [length]) (some : 0 < length) :
    (both (many body) after).ways spot =
      ((both (many body) after).ways (onward spot length)).map (length + ·) ++ after.ways spot := by
  have unfolded : (many body).ways spot = ((many body).ways (onward spot length)).map (length + ·) ++ [0] := by
    rw [manyWays, step, List.flatMap_singleton, if_neg (Nat.ne_of_gt some)]
  have stays : (after.ways spot).map (0 + ·) = after.ways spot := by simp
  rw [waysBoth, unfolded, List.flatMap_append, List.flatMap_singleton, onwardNone, stays, List.flatMap_map, waysBoth,
    List.map_flatMap]
  refine congrArg (· ++ after.ways spot) (List.flatMap_congr fun further _ => ?_)
  rw [← onwardTwice, List.map_map]
  refine List.map_congr_left fun more _ => ?_
  simp only [Function.comp_apply, Nat.add_assoc]

theorem manyOn (step : body.ways spot = [length]) (some : 0 < length) (blocked : after.ways spot = []) :
    (both (many body) after).ways spot =
      ((both (many body) after).ways (onward spot length)).map (length + ·) := by
  rw [manyOnOr step some, blocked, List.append_nil]

theorem manyEnds (stop : body.ways spot = []) :
    (both (many body) after).ways spot = after.ways spot := by
  rw [waysBoth, manyWays, stop, List.flatMap_nil, List.nil_append, List.flatMap_singleton, onwardNone]
  simp

section
variable {fits : Char → Bool} {before : Option Char} {c : Char} {rest : Text}

theorem oneFits (fit : fits c = true) : (one fits).ways ⟨before, c :: rest⟩ = [1] := by simp [waysOne, fit]

theorem oneMissed (other : fits c = false) : (one fits).ways ⟨before, c :: rest⟩ = [] := by simp [waysOne, other]

theorem textOne {d : Char} : (text [d]).ways ⟨before, c :: rest⟩ = if c = d then [1] else [] := by
  by_cases same : c = d
  · simp [waysText, same]
  · simp [waysText, same, Ne.symm same]

theorem oneAtEnd : (one fits).ways ⟨before, []⟩ = [] := rfl

theorem onwardOne : onward ⟨before, c :: rest⟩ 1 = ⟨some c, rest⟩ := rfl

theorem onwardPast (before : Option Char) (length : Nat) :
    onward ⟨some c, rest⟩ length = onward ⟨before, c :: rest⟩ (length + 1) := by
  rw [Nat.add_comm, ← onwardTwice, onwardOne]

theorem runThen (blocked : ∀ before c rest, fits c = true → after.ways ⟨before, c :: rest⟩ = []) (spot : Spot) :
    (both (many (one fits)) after).ways spot = (after.ways (onward spot (spot.rest.takeWhile fits).length)).map
      ((spot.rest.takeWhile fits).length + ·) := by
  obtain ⟨before, text⟩ := spot
  induction text generalizing before with
  | nil =>
    rw [manyEnds oneAtEnd]
    simp [onwardNone]
  | cons c rest ih =>
    cases fit : fits c with
    | false =>
      rw [manyEnds (oneMissed fit)]
      simp [fit, onwardNone]
    | true =>
      rw [manyOn (oneFits fit) Nat.one_pos (blocked _ _ _ fit), onwardOne, ih, onwardPast before]
      simp [fit, Function.comp_def, Nat.add_assoc, Nat.add_comm 1]

theorem lengthRun (blocked : ∀ before c rest, fits c = true → after.ways ⟨before, c :: rest⟩ = []) (spot : Spot) :
    (both (many (one fits)) after).length? spot =
      (after.length? (onward spot (spot.rest.takeWhile fits).length)).map
        ((spot.rest.takeWhile fits).length + ·) := by
  rw [length?, runThen blocked, List.head?_map, length?]

theorem runLength (spot : Spot) : (many (one fits)).length? spot = some (spot.rest.takeWhile fits).length := by
  obtain ⟨before, text⟩ := spot
  induction text generalizing before with
  | nil => rfl
  | cons c rest ih =>
    rw [length?, manyWays]
    cases fit : fits c with
    | false =>
      rw [oneMissed fit]
      simp [fit]
    | true =>
      obtain ⟨others, longest⟩ := List.head?_eq_some_iff.mp (ih (some c))
      rw [oneFits fit, List.flatMap_singleton, onwardOne, longest]
      simp [fit, Nat.add_comm 1]

end

section
variable {standIn : Text → Text}

theorem replaceAfterDrop (pending : Nat) (spot : Spot) : form.replaceAfter standIn pending spot.before spot.rest =
    form.replaceFrom standIn (onward spot pending) := by
  obtain ⟨before, text⟩ := spot
  induction pending generalizing before text with
  | zero => rfl
  | succ pending ih =>
    cases text with
    | nil => rfl
    | cons c rest =>
      rw [← onwardPast, ← ih]
      rfl

theorem replaceMatch (found : form.length? spot = some length) (some : 0 < length) :
    form.replaceFrom standIn spot =
      standIn (spot.rest.take length) ++ form.replaceFrom standIn (onward spot length) := by
  obtain ⟨before, text⟩ := spot
  obtain ⟨length, rfl⟩ := Nat.exists_eq_succ_of_ne_zero (Nat.ne_of_gt some)
  have bound := waysWithin form _ _ (List.mem_of_mem_head? found)
  cases text with
  | nil => simp at bound
  | cons c rest =>
    rw [← onwardPast, ← replaceAfterDrop, replaceFrom, replaceAfter, found]

theorem replaceMissed {before : Option Char} {c : Char} {rest : Text}
    (missed : form.length? ⟨before, c :: rest⟩ = none) :
    form.replaceFrom standIn ⟨before, c :: rest⟩ = c :: form.replaceFrom standIn ⟨some c, rest⟩ := by
  rw [replaceFrom, replaceAfter, missed]
  rfl

theorem replaceNothing (before : Option Char) : form.replaceFrom standIn ⟨before, []⟩ = [] := rfl

end

end Form
end SourceSweep.Text
