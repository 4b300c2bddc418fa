import SourceSweep.Proofs.Script.Zones
import SourceSweep.Proofs.Text.Trim

/-! Calls that are dropped whole. A script in the pieces that stay and those that go: one that goes
is a whole call expression, if no name goes on where it starts and the literals and comments in it
close the parentheses that they open. -/
namespace SourceSweep.Script
open Text

inductive Piece where
  | kept (c : Char)
  | call (text : Text)
  deriving DecidableEq, Repr

def Piece.text : Piece → Text
  | .kept c => [c]
  | .call text => text

def Piece.left : Piece → Text
  | .kept c => [c]
  | .call _ => []

def piecesAfter : (pending : Nat) → Text → List Piece
  | _, [] => []
  | pending + 1, _ :: rest => piecesAfter pending rest
  | 0, c :: rest =>
    match callLength? (c :: rest) with
    | some length => .call ((c :: rest).take length) :: piecesAfter (length - 1) rest
    | none => .kept c :: piecesAfter 0 rest

def pieces (script : Text) : List Piece := piecesAfter 0 script

def textOf (pieces : List Piece) : Text := pieces.flatMap Piece.text

def isTerminator (text : Text) : Bool :=
  match skipBlanks text with
  | [] => true
  | c :: rest => c = ';' && allBlank rest

/-- Whether a name that stood at the end would be one of its own, and not a part or a property of
another. -/
def standsApart (joinsName : Char → Bool) (front : Text) : Bool :=
  front.getLast?.all fun c => !joinsName c && c ≠ '.'

/-- A call expression from its first character to the parenthesis that closes it, with the
terminator that follows. -/
def IsWholeCall (joinsName : Char → Bool) (front call behind : Text) : Prop :=
  standsApart joinsName front = true ∧ ∃ gap args tail, call = (logToken ++ gap ++ ['(']) ++ args ++ tail ∧
    allBlank gap = true ∧ isTerminator tail = true ∧
    closeLength? (zoneBehind (front ++ (logToken ++ gap ++ ['(']))) 1 (args ++ (tail ++ behind)) =
      some args.length

theorem terminatorSplit (text : Text) : ∃ tail rest, text = tail ++ rest ∧
    tail.length = terminatorLength text ∧ isTerminator tail = true := by
  have whole : text = text.takeWhile isBlank ++ skipBlanks text := List.takeWhile_append_dropWhile.symm
  have blank : allBlank (text.takeWhile isBlank) = true := List.all_takeWhile
  have alone : skipBlanks (text.takeWhile isBlank) = [] :=
    List.dropWhile_eq_nil_iff.mpr (List.all_eq_true.mp blank)
  unfold terminatorLength blankLength
  split
  · rename_i rest ends
    have cut : rest = rest.takeWhile isBlank ++ rest.dropWhile isBlank :=
      List.takeWhile_append_dropWhile.symm
    refine ⟨text.takeWhile isBlank ++ ';' :: rest.takeWhile isBlank, rest.dropWhile isBlank, ?_, ?_, ?_⟩
    · rw [List.append_assoc, List.cons_append, ← cut, ← ends, ← whole]
    · rw [List.length_append, List.length_cons, Nat.add_comm 1]
    · have mark : skipBlanks (';' :: rest.takeWhile isBlank) = ';' :: rest.takeWhile isBlank := rfl
      rw [isTerminator, skipBlanksBehind blank, mark]
      simp [allBlank, List.all_takeWhile]
  · exact ⟨text.takeWhile isBlank, skipBlanks text, whole, rfl, by simp [isTerminator, alone]⟩

theorem callParts {text : Text} {length : Nat} (found : callLength? text = some length) :
    ∃ gap args tail rest, text = (logToken ++ gap ++ ['(']) ++ args ++ tail ++ rest ∧
      length = ((logToken ++ gap ++ ['(']) ++ args ++ tail).length ∧ allBlank gap = true ∧
      isTerminator tail = true ∧ groupLength? 1 (args ++ (tail ++ rest)) = some args.length := by
  unfold callLength? at found
  simp only [bind, Option.bind_eq_some_iff] at found
  obtain ⟨behind, token, found⟩ := found
  split at found
  · rename_i group opens
    obtain ⟨inner, closes, found⟩ := Option.bind_eq_some_iff.mp found
    obtain ⟨tail, rest, cut, tailLength, terminator⟩ := terminatorSplit (group.drop inner)
    have args : (group.take inner).length = inner := List.length_take_of_le (groupLengthLe closes)
    have split : group = group.take inner ++ (tail ++ rest) := by rw [← cut, List.take_append_drop]
    have gap : behind = behind.takeWhile isBlank ++ '(' :: group := by
      rw [← opens]
      exact List.takeWhile_append_dropWhile.symm
    refine ⟨behind.takeWhile isBlank, group.take inner, tail, rest, ?_, ?_, List.all_takeWhile,
      terminator, ?_⟩
    · rw [← List.isPrefixOf?_eq_some_iff_append_eq.mp token]
      nth_rewrite 1 [gap, split]
      simp
    · simp [← Option.some.inj found, tailLength, args, blankLength]
      omega
    · rw [← split, args, closes]
  · cases found

theorem callLengthBounds {text : Text} {length : Nat} (found : callLength? text = some length) :
    0 < length ∧ length ≤ text.length := by
  obtain ⟨gap, args, tail, rest, rfl, rfl, _⟩ := callParts found
  exact ⟨List.length_pos_of_ne_nil (by simp), by simp⟩

theorem piecesText (pending : Nat) (script : Text) :
    textOf (piecesAfter pending script) = script.drop pending := by
  induction script generalizing pending with
  | nil => cases pending <;> rfl
  | cons c rest ih =>
    cases pending with
    | succ pending => exact ih pending
    | zero =>
      rw [piecesAfter]
      split
      · rename_i length found
        obtain ⟨inner, rfl⟩ := Nat.exists_eq_add_of_lt (callLengthBounds found).1
        rw [textOf, List.flatMap_cons, ← textOf, ih]
        simp [Piece.text]
      · rw [textOf, List.flatMap_cons, ← textOf, ih]
        rfl

theorem piecesLeft (pending : Nat) (script : Text) :
    (piecesAfter pending script).flatMap Piece.left = dropCallsAfter pending script := by
  induction script generalizing pending with
  | nil => cases pending <;> rfl
  | cons c rest ih =>
    cases pending with
    | succ pending => exact ih pending
    | zero =>
      rw [piecesAfter, dropCallsAfter]
      cases callLength? (c :: rest) with
      | some length => exact ih (length - 1)
      | none => exact congrArg (c :: ·) (ih 0)

theorem pieceCall {pending : Nat} {script : Text} {before after : List Piece} {call : Text}
    (cut : piecesAfter pending script = before ++ .call call :: after) :
    callLength? (call ++ textOf after) = some call.length := by
  induction script generalizing pending before with
  | nil => cases pending <;> simp [piecesAfter] at cut
  | cons c rest ih =>
    cases pending with
    | succ pending => exact ih cut
    | zero =>
      have whole : textOf (piecesAfter 0 (c :: rest)) = c :: rest := piecesText 0 (c :: rest)
      cases before with
      | nil =>
        rw [cut] at whole
        rw [piecesAfter] at cut
        split at cut
        · rename_i length found
          have taken : (c :: rest).take length = call := Piece.call.inj (List.cons.inj cut).1
          have same : call.length = length := by
            rw [← taken, List.length_take_of_le (callLengthBounds found).2]
          rw [same, ← found, ← whole]
          rfl
        · cases (List.cons.inj cut).1
      | cons first before =>
        rw [piecesAfter] at cut
        split at cut <;> exact ih (List.cons.inj cut).2

theorem droppedCalls (joinsName : Char → Bool) (script : Text) :
    textOf (pieces script) = script ∧ (pieces script).flatMap Piece.left = dropCalls script ∧
    ∀ before call after, pieces script = before ++ .call call :: after →
      (zoneBehind (textOf before)).isCode = true → isEven (zoneBehind (textOf before)) 0 call = true →
      (IsWholeCall joinsName (textOf before) call (textOf after) ↔
        standsApart joinsName (textOf before) = true) := by
  refine ⟨piecesText 0 script, piecesLeft 0 script, fun before call after cut inCode even => ?_⟩
  obtain ⟨gap, args, tail, rest, whole, length, blank, terminator, closes⟩ := callParts (pieceCall cut)
  obtain ⟨rfl, behind⟩ := List.append_inj whole length
  have solid : (logToken ++ gap ++ ['(']).all staysCode = true := by
    have token : logToken.all staysCode = true := by decide
    have gapStays : gap.all staysCode = true :=
      List.all_eq_true.mpr fun c mem => blankStaysCode (List.all_eq_true.mp blank c mem)
    have opening : staysCode '(' = true := by decide
    simp [token, gapStays, opening]
  have argsEven := isEvenBehindCode inCode (isEvenFront even) solid
  have sameEnd : closeLength? (zoneBehind (textOf before ++ (logToken ++ gap ++ ['(']))) 1
      (args ++ (tail ++ textOf after)) = some args.length := by
    rw [zoneBehind, List.foldl_append, behind]
    exact groupCloses (Nat.le_refl 1) closes (by rw [List.take_left]; exact argsEven)
  exact ⟨fun whole => whole.1, fun apart => ⟨apart, gap, args, tail, rfl, blank, terminator, sameEnd⟩⟩

def keptText (text : Text) : List Piece := text.map Piece.kept

theorem pairInLiteralGoes :
    pieces "a();\nconsole.log(\"(x)\", f(1)); b();".toList =
      keptText "a();\n".toList ++ .call "console.log(\"(x)\", f(1)); ".toList :: keptText "b();".toList ∧
    (zoneBehind (textOf (keptText "a();\n".toList))).isCode = true ∧
    isEven (zoneBehind (textOf (keptText "a();\n".toList))) 0
      "console.log(\"(x)\", f(1)); ".toList = true ∧
    IsWholeCall isWordChar (textOf (keptText "a();\n".toList)) "console.log(\"(x)\", f(1)); ".toList
      (textOf (keptText "b();".toList)) := by
  have cut : pieces "a();\nconsole.log(\"(x)\", f(1)); b();".toList =
      keptText "a();\n".toList ++ .call "console.log(\"(x)\", f(1)); ".toList ::
        keptText "b();".toList := by decide +kernel
  have inCode : (zoneBehind (textOf (keptText "a();\n".toList))).isCode = true := by decide +kernel
  have even : isEven (zoneBehind (textOf (keptText "a();\n".toList))) 0
      "console.log(\"(x)\", f(1)); ".toList = true := by decide +kernel
  have whole := ((droppedCalls isWordChar _).2.2 _ _ _ cut inCode even).mpr (by decide +kernel)
  exact ⟨cut, inCode, even, whole⟩

/- The end of another name is taken for a call's, and a parenthesis in a literal for the one that
closes it. -/
theorem brokenCallsGo :
    (pieces "myconsole.log(1);".toList = keptText "my".toList ++ [.call "console.log(1);".toList] ∧
      (zoneBehind "my".toList).isCode = true ∧
      ¬ IsWholeCall isWordChar "my".toList "console.log(1);".toList []) ∧
    (pieces "console.log(\":)\");".toList = .call "console.log(\":)".toList :: keptText "\");".toList ∧
      (zoneBehind []).isCode = true ∧
      ¬ IsWholeCall isWordChar [] "console.log(\":)".toList "\");".toList) := by
  refine ⟨⟨by decide +kernel, by decide +kernel, fun whole => ?_⟩, by decide +kernel, rfl, fun whole => ?_⟩
  · exact absurd whole.1 (by decide +kernel)
  · obtain ⟨_, gap, args, tail, same, blank, _, closes⟩ := whole
    have token : "console.log(\":)".toList = logToken ++ '(' :: "\":)".toList := by decide +kernel
    have group : '(' :: "\":)".toList = gap ++ '(' :: (args ++ tail) := by
      rw [token] at same
      simpa using same
    cases gap with
    | cons c gap =>
      have first : '(' = c := (List.cons.inj group).1
      have opening : isBlank '(' = true := by
        rw [first]
        exact (Bool.and_eq_true_iff.mp blank).1
      exact absurd opening (by decide)
    | nil =>
      have inner : "\":)".toList = args ++ tail := (List.cons.inj group).2
      have short : args.length + tail.length = 3 := by simpa using (congrArg List.length inner).symm
      have text : args ++ (tail ++ "\");".toList) = "\":)".toList ++ "\");".toList := by
        rw [inner, List.append_assoc]
      have ends : closeLength? .code 1 ("\":)".toList ++ "\");".toList) = some 5 := by decide +kernel
      rw [text] at closes
      have far : 5 = args.length := Option.some.inj (ends.symm.trans closes)
      omega

end SourceSweep.Script
