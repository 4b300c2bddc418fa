import SourceSweep.Proofs.Script.Groups
import SourceSweep.Proofs.Script.Spans

/-! Calls that nest too deep. Such a call is no call to be dropped, but those among its arguments are; it
stays as it is exactly when there are none. -/
namespace SourceSweep.Script
open Text

/-- A call whose arguments nest more levels than a call may that is to be dropped. -/
structure DeepCall where
  gap : Text
  args : Text
  gapBlank : allBlank gap = true
  closes : closingLength? 1 (args ++ [')']) = some (args.length + 1)
  deep : depthLimit < deepest 1 args

def DeepCall.text (call : DeepCall) : Text := logToken ++ call.gap ++ '(' :: call.args ++ [')']

def DeepCall.opening (call : DeepCall) : Text := logToken.tail ++ call.gap ++ ['(']

theorem DeepCall.textEq (call : DeepCall) : call.text = 'c' :: (call.opening ++ (call.args ++ [')'])) := by
  have token : logToken = 'c' :: logToken.tail := by decide
  rw [text, opening, token]
  simp

theorem DeepCall.openingFree (call : DeepCall) : 'c' ∉ call.opening := by
  have token : 'c' ∉ logToken.tail := by decide
  have gap : 'c' ∉ call.gap := fun mem => absurd (List.all_eq_true.mp call.gapBlank _ mem) (by decide)
  simp [opening, token, gap]

theorem DeepCall.closesBefore (call : DeepCall) (behind : Text) :
    closingLength? 1 (call.args ++ ')' :: behind) = some (call.args.length + 1) := by
  have far := closingFront call.closes behind
  rwa [List.append_assoc, List.singleton_append] at far

theorem DeepCall.notCall (call : DeepCall) (behind : Text) : callLength? (call.text ++ behind) = none := by
  have tooDeep : groupLength? 1 (call.args ++ ')' :: behind) = none := by
    refine Option.eq_none_iff_forall_ne_some.mpr fun length ends => ?_
    obtain ⟨closes, within⟩ := (groupLengthIff (by decide)).mp ends
    have far := call.closesBefore behind
    rw [closes] at far
    have reached := deepestFront 1 call.args [')']
    rw [Option.some.inj far, List.take_length_add_append] at within
    have deep := call.deep
    simp only [List.take_succ_cons, List.take_zero] at within
    omega
  have notCall : isCall (call.text ++ behind) = false := by
    refine Bool.eq_false_iff.mpr fun found => ?_
    obtain ⟨rest, group, same, opens, closes⟩ := (isCallIff _).mp found
    have behindToken : rest = call.gap ++ '(' :: (call.args ++ ')' :: behind) := by
      rw [DeepCall.text] at same
      simpa using same.symm
    rw [behindToken, skipBlanksBehind call.gapBlank] at opens
    rw [← (List.cons.inj opens).2, tooDeep] at closes
    cases closes
  simpa [isCall] using notCall

theorem argumentPieces {args : Text} (behind : Text) {depth : Nat} (inside : 1 ≤ depth)
    (closes : closingLength? depth (args ++ ')' :: behind) = some (args.length + 1)) :
    ∃ inner, pieces (args ++ ')' :: behind) = inner ++ pieces (')' :: behind) ∧ textOf inner = args := by
  induction size : args.length using Nat.strong_induction_on generalizing args depth with
  | _ size ih =>
    subst size
    cases args with
    | nil => exact ⟨[], rfl, rfl⟩
    | cons c args =>
      cases found : callLength? (c :: args ++ ')' :: behind) with
      | none =>
        rcases closingCons closes with ⟨_, _, short⟩ | ⟨inner, long, more, later⟩
        · cases short
        · have still : 1 ≤ levelAfter depth c := (levelAfterMore inside more 0).2
          obtain rfl : args.length + 1 = inner := by simpa using long
          obtain ⟨inner, cut, text⟩ := ih args.length (Nat.lt_succ_self _) still later rfl
          exact ⟨.kept c :: inner, (piecesOfKept found).trans (congrArg (Piece.kept c :: ·) cut),
            congrArg (c :: ·) text⟩
      | some length =>
        have past := closingPastCall inside found
        rw [closes] at past
        obtain ⟨far, ends, total⟩ := Option.map_eq_some_iff.mp past.symm
        have some := (callLengthBounds found).1
        have within : length ≤ (c :: args).length := by
          have := closingPos ends
          omega
        have rest : far = ((c :: args).drop length).length + 1 := by
          rw [List.length_drop]
          omega
        rw [List.drop_append_of_le_length within, rest] at ends
        have shorter : ((c :: args).drop length).length < (c :: args).length := by
          rw [List.length_drop]
          omega
        obtain ⟨inner, cut, text⟩ := ih _ shorter inside ends rfl
        refine ⟨.call ((c :: args).take length) :: inner, ?_, ?_⟩
        · rw [piecesOfCall found, List.take_append_of_le_length within, List.drop_append_of_le_length within, cut]
          rfl
        · rw [textOf, List.flatMap_cons, ← textOf, text]
          exact List.take_append_drop length (c :: args)

theorem missedAt {c : Char} (other : c ≠ 'c') (rest : Text) : callLength? (c :: rest) = none := by
  have notCall : isCall (c :: rest) = false := by
    refine Bool.eq_false_iff.mpr fun found => ?_
    obtain ⟨behind, group, same, _⟩ := (isCallIff _).mp found
    exact other (List.cons.inj same).1
  simpa [isCall] using notCall

theorem keptFront {front : Text} (free : 'c' ∉ front) (rest : Text) :
    pieces (front ++ rest) = keptText front ++ pieces rest := by
  induction front with
  | nil => rfl
  | cons d front ih =>
    have missed := missedAt (List.ne_of_not_mem_cons free).symm (front ++ rest)
    rw [List.cons_append, piecesOfKept missed, ih (List.not_mem_of_not_mem_cons free)]
    rfl

theorem textOfKept (text : Text) : textOf (keptText text) = text := by
  induction text with
  | nil => rfl
  | cons c rest ih => exact congrArg (c :: ·) ih

theorem DeepCall.cut (call : DeepCall) (behind : Text) : ∃ inside mid,
    pieces (call.text ++ behind) = inside ++ pieces behind ∧ textOf inside = call.text ∧
      leftOf inside = 'c' :: (mid ++ [')']) := by
  obtain ⟨inner, args, same⟩ := argumentPieces behind (Nat.le_refl 1) (call.closesBefore behind)
  have whole : call.text ++ behind = 'c' :: (call.opening ++ (call.args ++ ')' :: behind)) := by
    simp [call.textEq]
  have missed := call.notCall behind
  have last : pieces (')' :: behind) = .kept ')' :: pieces behind :=
    piecesOfKept (missedAt (by decide) behind)
  rw [whole] at missed ⊢
  rw [piecesOfKept missed, keptFront call.openingFree, args, last]
  refine ⟨.kept 'c' :: (keptText call.opening ++ (inner ++ [.kept ')'])),
    leftOf (keptText call.opening ++ inner), by simp, ?_, ?_⟩
  · have parts : textOf (.kept 'c' :: (keptText call.opening ++ (inner ++ [.kept ')']))) =
        'c' :: (textOf (keptText call.opening) ++ (textOf inner ++ [')'])) := by simp [textOf, Piece.text]
    rw [parts, textOfKept, same, call.textEq]
  · simp [leftOf, Piece.left]

def Piece.isKept : Piece → Bool
  | .kept _ => true
  | .call _ => false

theorem leftOfSublist (pieces : List Piece) : (leftOf pieces).Sublist (textOf pieces) := by
  induction pieces with
  | nil => exact .slnil
  | cons piece pieces ih =>
    cases piece with
    | kept c => exact ih.cons_cons c
    | call call => exact ih.trans (List.sublist_append_right call (textOf pieces))

theorem leftOfAll {pieces : List Piece} (all : pieces.all Piece.isKept = true) : leftOf pieces = textOf pieces := by
  induction pieces with
  | nil => rfl
  | cons piece pieces ih =>
    obtain ⟨here, later⟩ := Bool.and_eq_true_iff.mp all
    cases piece with
    | kept c => exact congrArg (c :: ·) (ih later)
    | call call => cases here

theorem callFilled {script call : Text} (mem : .call call ∈ pieces script) : call ≠ [] := by
  obtain ⟨before, after, cut⟩ := List.append_of_mem mem
  exact List.ne_nil_of_length_pos (callLengthBounds (pieceCall cut)).1

theorem allOfLength {pieces : List Piece} (filled : ∀ call, .call call ∈ pieces → call ≠ [])
    (long : (textOf pieces).length ≤ (leftOf pieces).length) : pieces.all Piece.isKept = true := by
  induction pieces with
  | nil => rfl
  | cons piece pieces ih =>
    have later := fun call mem => filled call (List.mem_cons_of_mem piece mem)
    cases piece with
    | kept c => exact ih later (Nat.le_of_succ_le_succ long)
    | call call =>
      have some := List.length_pos_iff.mpr (filled call List.mem_cons_self)
      have less := (leftOfSublist pieces).length_le
      rw [leftOfCall, textOf, List.flatMap_cons, ← textOf, Piece.text, List.length_append] at long
      omega

theorem DeepCall.collapsed (call : DeepCall) {front behind : Text}
    (quiet : collapseBlankRuns (front ++ (call.text ++ behind)) = front ++ (call.text ++ behind)) :
    collapseBlankRuns call.text = call.text := by
  have same : 'c' :: (call.opening ++ (call.args ++ [')'])) = ('c' :: (call.opening ++ call.args)) ++ [')'] := by
    simp
  rw [call.textEq] at quiet ⊢
  exact collapsedSpan (by decide) (by decide) same quiet

theorem deepCallStays {script behind : Text} {before rest : List Piece} (call : DeepCall)
    (quiet : collapseBlankRuns script = script) (cut : pieces script = before ++ rest)
    (whole : textOf rest = call.text ++ behind) :
    ∃ inside after, rest = inside ++ after ∧ textOf inside = call.text ∧ textOf after = behind ∧
      ∃ front span back, strip script = front ++ (span ++ back) ∧ inked front = inked (leftOf before) ∧
        inked span = inked (leftOf inside) ∧ inked back = inked (leftOf after) ∧
        (span = call.text ↔ inside.all Piece.isKept = true) := by
  obtain ⟨inside, mid, parts, text, ends⟩ := call.cut behind
  rw [← whole, ← piecesBehind cut] at parts
  have filled : ∀ other, .call other ∈ inside → other ≠ [] := fun other mem => by
    have among : .call other ∈ pieces script := by simp [cut, parts, mem]
    exact callFilled among
  have left : dropCalls script = leftOf before ++ ('c' :: (mid ++ [')']) ++ leftOf (pieces behind)) := by
    rw [← leftOfPieces, cut, parts, leftOfAppend, leftOfAppend, ends]
  obtain ⟨front, span, back, result, earlier, later, held⟩ :=
    stripSpan left (by decide) (by decide) (List.cons_append ..).symm
  rw [← ends] at held
  have narrows : Narrowed (leftOf inside) span := by
    rcases held with rfl | rfl
    · exact .same (leftOf inside)
    · exact collapseNarrows (leftOf inside)
  refine ⟨inside, pieces behind, parts, text, textOfPieces behind, front, span, back, result,
    earlier.inked, narrows.inked, later.inked, fun verbatim => ?_, fun all => ?_⟩
  · refine allOfLength filled ?_
    rw [text, ← verbatim]
    exact narrows.lengthLe
  · have around : textOf before ++ (call.text ++ behind) = script := by
      rw [← whole, ← textOfAppend, ← cut, textOfPieces]
    rw [← around] at quiet
    rw [leftOfAll all, text] at held
    rcases held with rfl | rfl
    · rfl
    · exact call.collapsed quiet

def tallCall : DeepCall where
  gap := " ".toList
  args := "a(b(c(1))), d".toList
  gapBlank := rfl
  closes := by decide
  deep := by decide

def tallScript : Text := "x();\nconsole.log(1);\nconsole.log (a(b(c(1))), d);\ny();\n".toList

theorem tallCallStays : collapseBlankRuns tallScript = tallScript ∧
    pieces tallScript = (keptText "x();\n".toList ++ [.call "console.log(1);\n".toList]) ++
      keptText (tallCall.text ++ ";\ny();\n".toList) ∧
    tallCall.text.IsInfix (strip tallScript) := by
  have quiet : collapseBlankRuns tallScript = tallScript := by decide +kernel
  have cut : pieces tallScript = (keptText "x();\n".toList ++ [.call "console.log(1);\n".toList]) ++
      keptText (tallCall.text ++ ";\ny();\n".toList) := by decide +kernel
  obtain ⟨inside, after, parts, _, _, front, span, back, result, _, _, _, stays⟩ :=
    deepCallStays tallCall quiet cut (textOfKept _)
  have all : (keptText (tallCall.text ++ ";\ny();\n".toList)).all Piece.isKept = true := by decide +kernel
  rw [parts, List.all_append, Bool.and_eq_true] at all
  refine ⟨quiet, cut, front, back, ?_⟩
  rw [result, stays.mpr all.1, List.append_assoc]

def hollowCall : DeepCall where
  gap := []
  args := "a(b(console.log(1)))".toList
  gapBlank := rfl
  closes := by decide
  deep := by decide

def hollowScript : Text := hollowCall.text ++ ";\nx();\n".toList

/- A call that nests too deep loses the one among its arguments. -/
theorem innerCallGoes : collapseBlankRuns hollowScript = hollowScript ∧
    (pieces hollowScript).head? = some (.kept 'c') ∧ ¬ hollowCall.text.IsInfix (strip hollowScript) := by
  decide +kernel

end SourceSweep.Script
