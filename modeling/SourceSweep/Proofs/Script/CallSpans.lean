import SourceSweep.Proofs.Script.CallPattern
import SourceSweep.Proofs.Script.DeepCalls

/-! Calls told by counting. A text begins with a call exactly when it begins with the token, blanks, and a
group whose count comes to nothing without having passed the limit; the match is then that span, and
replacing takes away the leftmost such spans that do not overlap. -/
namespace SourceSweep.Script
open Text

/-- All the blanks that follow, and behind a semicolon all those that follow it. -/
inductive Ending : (tail behind : Text) → Prop where
  | plain {gap behind : Text} (blank : allBlank gap = true)
      (stops : behind.head?.all (fun c => !isBlank c && c ≠ ';') = true) : Ending gap behind
  | semicolon {gap more behind : Text} (blank : allBlank gap = true) (blankToo : allBlank more = true)
      (stops : behind.head?.all (!isBlank ·) = true) : Ending (gap ++ ';' :: more) behind

structure CallSpan (text : Text) where
  gap : Text
  args : Text
  tail : Text
  behind : Text
  whole : text = logToken ++ gap ++ '(' :: (args ++ ')' :: tail) ++ behind
  gapBlank : allBlank gap = true
  closes : closingLength? 1 (args ++ [')']) = some (args.length + 1)
  shallow : deepest 1 args ≤ depthLimit
  ends : Ending tail behind

def CallSpan.span {text : Text} (call : CallSpan text) : Text :=
  logToken ++ call.gap ++ '(' :: (call.args ++ ')' :: call.tail)

inductive LeftmostCalls : Text → List Piece → Prop where
  | nil : LeftmostCalls [] []
  | kept {c : Char} {rest : Text} {cut : List Piece} (none : IsEmpty (CallSpan (c :: rest)))
      (later : LeftmostCalls rest cut) : LeftmostCalls (c :: rest) (.kept c :: cut)
  | call {text : Text} {cut : List Piece} (call : CallSpan text) (later : LeftmostCalls call.behind cut) :
      LeftmostCalls text (.call call.span :: cut)

theorem skipBlanksStops {gap behind : Text} (blank : allBlank gap = true)
    (stops : behind.head?.all (!isBlank ·) = true) :
    blankLength (gap ++ behind) = gap.length ∧ skipBlanks (gap ++ behind) = behind := by
  have all : ∀ c ∈ gap, isBlank c = true := List.all_eq_true.mp blank
  have none : behind.takeWhile isBlank = [] ∧ behind.dropWhile isBlank = behind := by
    cases behind with
    | nil => exact ⟨rfl, rfl⟩
    | cons c rest =>
      have ink : isBlank c = false := by simpa using stops
      simp [ink]
  rw [blankLength, skipBlanks, List.takeWhile_append_of_pos all, List.dropWhile_append_of_pos all, none.1,
    none.2, List.append_nil]
  exact ⟨rfl, rfl⟩

theorem Ending.length {tail behind : Text} (ending : Ending tail behind) :
    terminatorLength (tail ++ behind) = tail.length := by
  cases ending with
  | plain blank stops =>
    have ink : behind.head?.all (!isBlank ·) = true := by
      cases behind with
      | nil => rfl
      | cons c rest =>
        simp only [List.head?_cons, Option.all_some, Bool.and_eq_true] at stops ⊢
        exact stops.1
    obtain ⟨length, rest⟩ := skipBlanksStops blank ink
    rw [terminatorLength, length, rest]
    split
    · simp at stops
    · rfl
  | @semicolon gap more _ blank blankToo stops =>
    have mark : (';' :: (more ++ behind)).head?.all (!isBlank ·) = true := rfl
    obtain ⟨length, rest⟩ := skipBlanksStops blank mark
    have further := (skipBlanksStops blankToo stops).1
    rw [List.append_assoc, List.cons_append, terminatorLength, length, rest, List.length_append, List.length_cons]
    simp only [further, Nat.add_comm 1]

theorem endingSplit (text : Text) : ∃ tail behind, text = tail ++ behind ∧ Ending tail behind := by
  have whole : ∀ text : Text, text = text.takeWhile isBlank ++ skipBlanks text :=
    fun _ => List.takeWhile_append_dropWhile.symm
  have stops : ∀ text : Text, (skipBlanks text).head?.all (!isBlank ·) = true := by
    intro text
    cases ahead : skipBlanks text with
    | nil => rfl
    | cons c rest => simp [skipBlanksHead ahead]
  by_cases mark : (skipBlanks text).head? = some ';'
  · obtain ⟨rest, ahead⟩ := List.head?_eq_some_iff.mp mark
    refine ⟨text.takeWhile isBlank ++ ';' :: rest.takeWhile isBlank, skipBlanks rest, ?_,
      .semicolon List.all_takeWhile List.all_takeWhile (stops rest)⟩
    rw [List.append_assoc, List.cons_append, ← whole rest, ← ahead, ← whole]
  · refine ⟨text.takeWhile isBlank, skipBlanks text, whole text, .plain List.all_takeWhile ?_⟩
    have ink := stops text
    cases ahead : skipBlanks text with
    | nil => rfl
    | cons c rest =>
      rw [ahead] at mark ink
      have other : c ≠ ';' := fun same => mark (congrArg some same)
      simpa [other] using ink

theorem deepestClose (depth : Nat) (front : Text) : deepest depth (front ++ [')']) = deepest depth front := by
  induction front generalizing depth with
  | nil =>
    have lower : levelAfter depth ')' = depth - 1 := rfl
    simp only [List.nil_append, deepest, lower]
    omega
  | cons c front ih => rw [List.cons_append, deepest, deepest, ih]

theorem closeWithin {args : Text} (closes : closingLength? 1 (args ++ [')']) = some (args.length + 1))
    (behind : Text) : closingLength? 1 (args ++ ')' :: behind) = some (args.length + 1) ∧
      (args ++ ')' :: behind).take (args.length + 1) = args ++ [')'] ∧
      (args ++ ')' :: behind).drop (args.length + 1) = behind := by
  have front := closingFront closes behind
  have whole : args ++ ')' :: behind = (args ++ [')']) ++ behind := by simp
  have size : args.length + 1 = (args ++ [')']).length := by simp
  rw [whole]
  refine ⟨front, ?_, ?_⟩
  · rw [size, List.take_left]
  · rw [size, List.drop_left]

namespace CallSpan
variable {text : Text}

theorem parted (call : CallSpan text) : text = call.span ++ call.behind := call.whole

theorem group (call : CallSpan text) : groupLength? 1 (call.args ++ ')' :: (call.tail ++ call.behind)) =
    some (call.args.length + 1) := by
  obtain ⟨closes, front, _⟩ := closeWithin call.closes (call.tail ++ call.behind)
  refine (groupLengthIff (by decide)).mpr ⟨closes, ?_⟩
  rw [front, deepestClose]
  exact call.shallow

theorem found (call : CallSpan text) : callLength? text = some call.span.length := by
  have whole : text = logToken ++ (call.gap ++ '(' :: (call.args ++ ')' :: (call.tail ++ call.behind))) :=
    call.whole.trans (by simp)
  have opens : skipBlanks (call.gap ++ '(' :: (call.args ++ ')' :: (call.tail ++ call.behind))) =
      '(' :: (call.args ++ ')' :: (call.tail ++ call.behind)) := (skipBlanksStops call.gapBlank rfl).2
  have gap : blankLength (call.gap ++ '(' :: (call.args ++ ')' :: (call.tail ++ call.behind))) =
      call.gap.length := (skipBlanksStops call.gapBlank rfl).1
  obtain ⟨_, _, behind⟩ := closeWithin call.closes (call.tail ++ call.behind)
  rw [callLength?, List.isPrefixOf?_eq_some_iff_append_eq.mpr whole.symm]
  simp only [bind, Option.bind_some, opens, call.group, gap, behind, call.ends.length]
  simp only [span, List.length_append, List.length_cons]
  exact congrArg some (by omega)

theorem unique (call other : CallSpan text) : call = other := by
  obtain ⟨gap, args, tail, behind, whole, gapBlank, closes, shallow, ends⟩ := call
  obtain ⟨gap', args', tail', behind', whole', gapBlank', closes', shallow', ends'⟩ := other
  have same : gap ++ '(' :: (args ++ ')' :: (tail ++ behind)) =
      gap' ++ '(' :: (args' ++ ')' :: (tail' ++ behind')) := by
    simpa using whole.symm.trans whole'
  obtain ⟨rfl, group⟩ := cutUnique (by decide) (by decide)
    ((inkedBlank gapBlank).trans (inkedBlank gapBlank').symm) same
  obtain ⟨here, front, after⟩ := closeWithin closes (tail ++ behind)
  obtain ⟨there, front', after'⟩ := closeWithin closes' (tail' ++ behind')
  rw [group] at here front after
  have lengths : args.length + 1 = args'.length + 1 := Option.some.inj (here.symm.trans there)
  obtain rfl : args = args' := by
    rw [lengths] at front
    exact List.append_cancel_right (front.symm.trans front')
  have rest : tail ++ behind = tail' ++ behind' := after.symm.trans after'
  obtain ⟨rfl, rfl⟩ := List.append_inj rest (by rw [← ends.length, rest, ends'.length])
  rfl

end CallSpan

theorem closingSplit {depth length : Nat} {text : Text} (ends : closingLength? depth text = some length) :
    ∃ args, text.take length = args ++ [')'] ∧ length = args.length + 1 ∧
      closingLength? depth (args ++ [')']) = some length := by
  induction text generalizing depth length with
  | nil => cases ends
  | cons c rest ih =>
    rcases closingCons ends with ⟨rfl, low, rfl⟩ | ⟨inner, rfl, more, found⟩
    · exact ⟨[], rfl, rfl, by simp [closingLength?, low]⟩
    · obtain ⟨args, front, size, closes⟩ := ih found
      refine ⟨c :: args, by rw [List.take_succ_cons, front, List.cons_append], by rw [size, List.length_cons], ?_⟩
      rw [List.cons_append, closingLength?, if_neg (by simpa using more), closes, Option.map_some]

theorem spanOf {text : Text} {length : Nat} (found : callLength? text = some length) :
    Nonempty (CallSpan text) := by
  unfold callLength? at found
  simp only [bind, Option.bind_eq_some_iff] at found
  obtain ⟨behindToken, token, found⟩ := found
  split at found
  · rename_i group opens
    obtain ⟨inner, closes, _⟩ := Option.bind_eq_some_iff.mp found
    obtain ⟨ends, shallow⟩ := (groupLengthIff (by decide)).mp closes
    obtain ⟨args, front, size, closes⟩ := closingSplit ends
    obtain ⟨tail, behind, rest, ending⟩ := endingSplit (group.drop inner)
    rw [front, deepestClose] at shallow
    have whole : group = args ++ ')' :: (tail ++ behind) := by
      rw [← List.take_append_drop inner group, front, rest]
      simp
    have gap : behindToken = behindToken.takeWhile isBlank ++ '(' :: group := by
      rw [← opens]
      exact List.takeWhile_append_dropWhile.symm
    refine ⟨{ gap := behindToken.takeWhile isBlank, args, tail, behind, gapBlank := List.all_takeWhile,
              closes := by rw [closes, size], shallow, ends := ending, whole := ?_ }⟩
    rw [← List.isPrefixOf?_eq_some_iff_append_eq.mp token]
    nth_rewrite 1 [gap, whole]
    simp
  · cases found

theorem spanIff (text : Text) : callLength? text = none ↔ IsEmpty (CallSpan text) := by
  constructor
  · intro missed
    refine ⟨fun call => ?_⟩
    rw [call.found] at missed
    cases missed
  · intro none
    refine Option.eq_none_iff_forall_ne_some.mpr fun length found => ?_
    obtain ⟨call⟩ := spanOf found
    exact none.false call

theorem CallSpan.cut {text : Text} (call : CallSpan text) :
    pieces text = .call call.span :: pieces call.behind := by
  have taken : text.take call.span.length = call.span :=
    (congrArg (List.take call.span.length) call.parted).trans List.take_left
  have left : text.drop call.span.length = call.behind :=
    (congrArg (List.drop call.span.length) call.parted).trans List.drop_left
  rw [piecesOfCall call.found, taken, left]

theorem CallSpan.shorter {text : Text} (call : CallSpan text) : call.behind.length < text.length := by
  have lengths := congrArg List.length call.whole
  simp only [List.length_append, List.length_cons] at lengths
  omega

theorem leftmostPieces (text : Text) : LeftmostCalls text (pieces text) := by
  induction size : text.length using Nat.strong_induction_on generalizing text with
  | _ size ih =>
    subst size
    cases text with
    | nil => exact .nil
    | cons c rest =>
      cases found : callLength? (c :: rest) with
      | none =>
        rw [piecesOfKept found]
        exact .kept ((spanIff _).mp found) (ih _ (Nat.lt_succ_self _) rest rfl)
      | some length =>
        obtain ⟨call⟩ := spanOf found
        rw [call.cut]
        exact .call call (ih _ call.shorter call.behind rfl)

theorem leftmostIff (text : Text) (cut : List Piece) : LeftmostCalls text cut ↔ cut = pieces text := by
  constructor
  · intro leftmost
    induction leftmost with
    | nil => rfl
    | kept none later ih => rw [piecesOfKept ((spanIff _).mpr none), ih]
    | call call later ih => rw [call.cut, ih]
  · rintro rfl
    exact leftmostPieces text

theorem replaceCalls (pending : Nat) (before : Option Char) (text : Text) :
    callPattern.replaceAfter (fun _ => []) pending before text = dropCallsAfter pending text := by
  induction text generalizing pending before with
  | nil => cases pending <;> rfl
  | cons c rest ih =>
    cases pending with
    | succ pending => exact ih pending (some c)
    | zero =>
      rw [Form.replaceAfter, dropCallsAfter, callPatternLength]
      cases found : callLength? (c :: rest) with
      | none => exact congrArg (c :: ·) (ih 0 (some c))
      | some length =>
        obtain ⟨length, rfl⟩ := Nat.exists_eq_succ_of_ne_zero (Nat.ne_of_gt (callLengthBounds found).1)
        exact ih length (some c)

theorem callPatternScans (before : Option Char) (text : Text) :
    (callPattern.ways ⟨before, text⟩ ≠ [] ↔ Nonempty (CallSpan text)) ∧
    (∀ call other : CallSpan text, call = other) ∧
    (∀ call : CallSpan text, callPattern.length? ⟨before, text⟩ = some call.span.length) ∧
    (∀ cut, LeftmostCalls text cut ↔ cut = pieces text) ∧
    callPattern.replace (fun _ => []) text = leftOf (pieces text) ∧ leftOf (pieces text) = dropCalls text := by
  have first := callPatternLength ⟨before, text⟩
  refine ⟨⟨fun some => ?_, fun ⟨call⟩ none => ?_⟩, CallSpan.unique, fun call => first.trans call.found,
    leftmostIff text, ?_, leftOfPieces text⟩
  · obtain ⟨length, others, ways⟩ := List.exists_cons_of_ne_nil some
    rw [Form.length?, ways] at first
    exact spanOf first.symm
  · rw [Form.length?, none, call.found] at first
    cases first
  · rw [leftOfPieces]
    exact replaceCalls 0 none text

end SourceSweep.Script
