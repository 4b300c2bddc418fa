import Mathlib.Algebra.BigOperators.Group.List.Basic
import Mathlib.Algebra.Ring.Nat
import SourceSweep.Proofs.Script.CallSpans

/-! Tokens before and after stripping. Where a call goes the two halves of a token can close up, but there is
at most one such token at a call, and the call had one of its own. -/
namespace SourceSweep.Script
open Text

def Crosses (front rest : Text) : Prop :=
  ∃ k < logToken.length, 0 < k ∧ logToken.take k <:+ front ∧ logToken.drop k <+: rest

instance (front rest : Text) : Decidable (Crosses front rest) := Nat.decidableExistsLT _

def callsOf (pieces : List Piece) : List Text := pieces.filterMap fun piece =>
  match piece with
  | .kept _ => none
  | .call text => some text

def tokensIn (texts : List Text) : Nat := (texts.map tokenCount).sum

/-- How many tokens close up where the calls were, when `front` is what stays before the pieces since the
last call. -/
def closings : (front : Text) → List Piece → Nat
  | _, [] => 0
  | front, .kept c :: rest => closings (front ++ [c]) rest
  | front, .call _ :: rest => (if Crosses front (leftOf rest) then 1 else 0) + closings [] rest

/-- The count of a scan that goes on behind each token it finds, when `pending` characters of the token found
last are still to be passed over. -/
def tokensApart : (pending : Nat) → Text → Nat
  | _, [] => 0
  | pending + 1, _ :: rest => tokensApart pending rest
  | 0, c :: rest =>
    if logToken <+: c :: rest then 1 + tokensApart (logToken.length - 1) rest else tokensApart 0 rest

theorem callsOfCall (call : Text) (rest : List Piece) : callsOf (.call call :: rest) = call :: callsOf rest := rfl

theorem tokensInCons (text : Text) (texts : List Text) : tokensIn (text :: texts) = tokenCount text + tokensIn texts :=
  List.sum_cons

theorem tokenCountCons (c : Char) (rest : Text) :
    tokenCount (c :: rest) = (if logToken <+: c :: rest then 1 else 0) + tokenCount rest := by
  simp only [tokenCount, List.isPrefixOf_iff_prefix]

/-! The letter with which a token begins is in no other place of it, so that no two overlap. -/

theorem tokenStart {k : Nat} (some : 0 < k) : 'c' ∈ logToken.take k := by
  obtain ⟨k, rfl⟩ := Nat.exists_eq_succ_of_ne_zero (Nat.ne_of_gt some)
  exact List.mem_cons_self

theorem tokenTail : 'c' ∉ logToken.tail := by decide

theorem tokenInk : ∀ c ∈ logToken, isBlank c = false := by
  have solid : logToken.all (!isBlank ·) = true := by decide
  simpa using solid

theorem crossing {begun rest : Text} (begins : logToken <+: begun ++ rest) (crosses : ¬ logToken <+: begun) :
    ∃ unfinished, begun ++ unfinished = logToken :=
  (List.prefix_or_prefix_of_prefix begins (List.prefix_append begun rest)).resolve_left crosses

theorem crossesNothing (rest : Text) : ¬ Crosses [] rest := by
  rintro ⟨k, -, some, begun, -⟩
  have none := List.suffix_nil.mp begun
  exact absurd (tokenStart some) (by simp [none])

theorem crossesOn {c : Char} {front rest : Text} :
    Crosses (c :: front) rest ↔
      (logToken <+: c :: (front ++ rest) ∧ ¬ logToken <+: c :: front) ∨ Crosses front rest := by
  constructor
  · rintro ⟨k, short, some, begun, ends⟩
    rcases List.suffix_cons_iff.mp begun with whole | later
    · refine .inl ⟨?_, fun within => ?_⟩
      · rw [← List.take_append_drop k logToken, ← List.cons_append, ← whole]
        exact (List.prefix_append_right_inj _).mpr ends
      · have long := within.length_le
        rw [← whole, List.length_take] at long
        omega
    · exact .inr ⟨k, short, some, later, ends⟩
  · rintro (⟨begins, crosses⟩ | ⟨k, short, some, begun, ends⟩)
    · rw [← List.cons_append] at begins
      obtain ⟨unfinished, whole⟩ := crossing begins crosses
      have more : unfinished ≠ [] := by
        rintro rfl
        rw [List.append_nil] at whole
        exact crosses (whole ▸ List.prefix_refl _)
      have size : logToken.length = (c :: front).length + unfinished.length := by
        rw [← whole, List.length_append]
      have filled := List.length_pos_iff.mpr more
      refine ⟨(c :: front).length, by omega, Nat.succ_pos _, ?_, ?_⟩
      · have begun : logToken.take (c :: front).length = c :: front := by rw [← whole, List.take_left]
        exact ⟨[], begun⟩
      · rw [← whole] at begins ⊢
        rw [List.drop_left]
        exact (List.prefix_append_right_inj _).mp begins
    · exact ⟨k, short, some, begun.trans (List.suffix_cons c front), ends⟩

theorem crossesOnce {c : Char} {front rest : Text} (begins : logToken <+: c :: (front ++ rest))
    (crosses : ¬ logToken <+: c :: front) : ¬ Crosses front rest := by
  rintro ⟨k, -, some, begun, -⟩
  rw [← List.cons_append] at begins
  obtain ⟨unfinished, whole⟩ := crossing begins crosses
  have tail := tokenTail
  rw [← whole, List.cons_append, List.tail_cons] at tail
  exact tail (List.mem_append_left unfinished (begun.subset (tokenStart some)))

theorem tokenCountAppend (front rest : Text) : tokenCount (front ++ rest) =
    tokenCount front + tokenCount rest + if Crosses front rest then 1 else 0 := by
  induction front with
  | nil => simp [tokenCount, crossesNothing]
  | cons c front ih =>
    have stays : logToken <+: c :: front → logToken <+: c :: (front ++ rest) :=
      fun within => within.trans (List.prefix_append (c :: front) rest)
    rw [List.cons_append, tokenCountCons, tokenCountCons, ih]
    by_cases within : logToken <+: c :: front
    · simp only [crossesOn, within, stays within, not_true, and_false, false_or, if_true]
      omega
    · by_cases begins : logToken <+: c :: (front ++ rest)
      · have once := crossesOnce begins within
        simp only [crossesOn, within, begins, once, not_false_eq_true, and_true, or_false, if_true, if_false]
        omega
      · simp only [crossesOn, within, begins, false_and, false_or, if_false]
        omega

theorem tokenCountFree {front : Text} (free : 'c' ∉ front) (rest : Text) :
    tokenCount (front ++ rest) = tokenCount rest := by
  have none : tokenCount front = 0 := by
    induction front with
    | nil => rfl
    | cons c front ih =>
      have other : ¬ logToken <+: c :: front := fun begins => free (begins.subset (by decide))
      rw [tokenCountCons, if_neg other, ih (List.not_mem_of_not_mem_cons free)]
  have apart : ¬ Crosses front rest := by
    rintro ⟨k, -, some, begun, -⟩
    exact free (begun.subset (tokenStart some))
  rw [tokenCountAppend, none, if_neg apart, Nat.zero_add, Nat.add_zero]

theorem tokensApartDrop (pending : Nat) (text : Text) :
    tokensApart pending text = tokensApart 0 (text.drop pending) := by
  induction pending generalizing text with
  | zero => rfl
  | succ pending ih => cases text with
    | nil => rfl
    | cons c rest => exact ih rest

theorem tokensApartAll (text : Text) : tokensApart 0 text = tokenCount text := by
  induction size : text.length using Nat.strong_induction_on generalizing text with
  | _ size ih =>
    subst size
    cases text with
    | nil => rfl
    | cons c rest =>
      rw [tokensApart, tokenCountCons]
      split
      · rename_i begins
        obtain ⟨behind, whole⟩ := begins
        obtain rfl : logToken.tail ++ behind = rest := (List.cons.inj whole).2
        have shorter : behind.length < (c :: (logToken.tail ++ behind)).length := by
          rw [List.length_cons, List.length_append]
          omega
        have past : (logToken.tail ++ behind).drop (logToken.length - 1) = behind := List.drop_left' rfl
        rw [tokensApartDrop, past, ih _ shorter behind rfl, tokenCountFree tokenTail]
      · rw [Nat.zero_add]
        exact ih _ (Nat.lt_succ_self _) rest rfl

theorem apartBefore (front rest : Text) : ¬ Crosses front ('c' :: rest) := by
  rintro ⟨k, short, some, -, ends⟩
  obtain ⟨d, unfinished, left⟩ := List.exists_cons_of_ne_nil
    (List.ne_nil_of_length_pos (by rw [List.length_drop]; omega : 0 < (logToken.drop k).length))
  rw [left] at ends
  have first : d = 'c' := (List.cons_prefix_cons.mp ends).1
  obtain ⟨k, rfl⟩ := Nat.exists_eq_succ_of_ne_zero (Nat.ne_of_gt some)
  have later : d ∈ logToken.tail.drop k := by
    rw [List.drop_tail, left]
    exact List.mem_cons_self
  exact tokenTail (first ▸ List.mem_of_mem_drop later)

theorem apartBehind {c : Char} {closing : Text} (other : ∀ d ∈ c :: closing, d ∉ logToken) (front rest : Text) :
    ¬ Crosses (front ++ c :: closing) rest := by
  rintro ⟨k, -, some, begun, -⟩
  rcases List.suffix_or_suffix_of_suffix begun (List.suffix_append front (c :: closing)) with within | around
  · exact other 'c' (within.subset (tokenStart some)) (by decide)
  · exact other c List.mem_cons_self (List.mem_of_mem_take (around.subset List.mem_cons_self))

theorem Ending.noToken {tail behind : Text} (ending : Ending tail behind) : ∀ d ∈ tail, d ∉ logToken := by
  have apart : ∀ {gap : Text}, allBlank gap = true → ∀ d ∈ gap, d ∉ logToken := by
    intro gap blank d mem among
    have here := List.all_eq_true.mp blank d mem
    rw [tokenInk d among] at here
    cases here
  cases ending with
  | plain blank stops => exact apart blank
  | semicolon blank blankToo stops =>
    intro d mem
    rcases List.mem_append.mp mem with here | here
    · exact apart blank d here
    · rcases List.mem_cons.mp here with rfl | here
      · decide
      · exact apart blankToo d here

namespace CallSpan
variable {text : Text} (call : CallSpan text)

theorem tokens (front : Text) :
    tokenCount (front ++ text) = tokenCount front + tokenCount call.span + tokenCount call.behind := by
  have closing : ∀ d ∈ ')' :: call.tail, d ∉ logToken := by
    intro d mem
    rcases List.mem_cons.mp mem with rfl | mem
    · decide
    · exact call.ends.noToken d mem
  have ends : front ++ call.span = (front ++ (logToken ++ call.gap ++ '(' :: call.args)) ++ ')' :: call.tail := by
    simp [span]
  have before : ¬ Crosses front call.span := apartBefore front _
  have behind : ¬ Crosses (front ++ call.span) call.behind := by
    rw [ends]
    exact apartBehind closing _ _
  conv_lhs => rw [call.parted, ← List.append_assoc, tokenCountAppend, if_neg behind, tokenCountAppend, if_neg before]
  omega

theorem ownToken : 0 < tokenCount call.span := by
  have begins : logToken <+: call.span := ⟨call.gap ++ '(' :: (call.args ++ ')' :: call.tail), by simp [span]⟩
  have own : tokenCount call.span = 1 + tokenCount call.span.tail := by
    rw [show call.span = 'c' :: call.span.tail from rfl] at begins ⊢
    rw [tokenCountCons, if_pos begins]
    rfl
  omega

end CallSpan

theorem LeftmostCalls.tokens {text : Text} {cut : List Piece} (leftmost : LeftmostCalls text cut) (front : Text) :
    tokenCount (front ++ leftOf cut) + tokensIn (callsOf cut) = tokenCount (front ++ text) + closings front cut := by
  induction leftmost generalizing front with
  | nil => rfl
  | @kept c rest cut none later ih =>
    have here := ih (front ++ [c])
    rwa [List.append_assoc, List.append_assoc] at here
  | call call later ih =>
    have here := ih []
    rw [List.nil_append, List.nil_append] at here
    rw [leftOfCall, callsOfCall, tokensInCons, call.tokens, tokenCountAppend, closings]
    omega

theorem LeftmostCalls.ownTokens {text : Text} {cut : List Piece} (leftmost : LeftmostCalls text cut) :
    (callsOf cut).length ≤ tokensIn (callsOf cut) := by
  induction leftmost with
  | nil => exact Nat.le_refl 0
  | kept none later ih => exact ih
  | call call later ih =>
    have own := call.ownToken
    rw [callsOfCall, tokensInCons, List.length_cons]
    omega

theorem closingsFew (front : Text) (cut : List Piece) : closings front cut ≤ (callsOf cut).length := by
  induction cut generalizing front with
  | nil => exact Nat.le_refl 0
  | cons piece rest ih =>
    cases piece with
    | kept c => exact ih (front ++ [c])
    | call call =>
      have later := ih []
      rw [callsOfCall, List.length_cons, closings]
      split <;> omega

theorem Narrowed.tokenCount {text other : Text} (narrowed : Narrowed text other) :
    Script.tokenCount other = Script.tokenCount text := by
  induction narrowed with
  | nil => rfl
  | @keep c text other rest ih =>
    have begins : logToken <+: c :: other ↔ logToken <+: c :: text := by
      constructor
      · rintro ⟨behind, whole⟩
        obtain ⟨behind', whole', _⟩ := beforeFront logToken tokenInk (whole ▸ rest.keep c)
        exact ⟨behind', whole'.symm⟩
      · rintro ⟨behind, whole⟩
        obtain ⟨behind', whole', _⟩ := afterFront logToken tokenInk (whole ▸ rest.keep c)
        exact ⟨behind', whole'.symm⟩
    rw [tokenCountCons, tokenCountCons, ih]
    simp only [begins]
  | @drop c d text other gone stays rest ih =>
    have blank : ¬ logToken <+: c :: text := by
      rintro ⟨behind, whole⟩
      have first : c = 'c' := (List.cons.inj whole).1.symm
      exact absurd (first ▸ gone) (by decide)
    rw [ih, tokenCountCons c, if_neg blank, Nat.zero_add]

theorem tokenCountStripped (script : Text) : tokenCount (strip script) = tokenCount (dropCalls script) := by
  by_cases token : 0 < tokenCount script
  · rw [stripOfToken token, (collapseNarrows _).tokenCount]
  · have free : tokenCount script = 0 := Nat.eq_zero_of_not_pos token
    rw [stripOfNoToken free, dropCallsOfNoCall (noCallOfNoToken free)]

theorem tokensNeverGrow (script : Text) :
    tokenCount (strip script) ≤ tokenCount script ∧
    tokensApart 0 (strip script) ≤ tokensApart 0 script ∧ 0 ≤ strippedCount script ∧
    tokenCount (strip script) + tokensIn (callsOf (pieces script)) =
      tokenCount script + closings [] (pieces script) ∧
    closings [] (pieces script) ≤ (callsOf (pieces script)).length ∧
    (callsOf (pieces script)).length ≤ tokensIn (callsOf (pieces script)) := by
  have leftmost := leftmostPieces script
  have total := leftmost.tokens []
  have few := closingsFew [] (pieces script)
  have own := leftmost.ownTokens
  rw [List.nil_append, List.nil_append, leftOfPieces, ← tokenCountStripped] at total
  have less : tokenCount (strip script) ≤ tokenCount script := by omega
  refine ⟨less, ?_, ?_, total, few, own⟩
  · rwa [tokensApartAll, tokensApartAll]
  · rw [strippedCount]
    omega

/- A token closes up where the first call was, so that of the two calls that go the count tells one. -/
example : callsOf (pieces "consoleconsole.log(1).log(2); console.log(3);".toList) =
      ["console.log(1)".toList, "console.log(3);".toList] ∧
    closings [] (pieces "consoleconsole.log(1).log(2); console.log(3);".toList) = 1 ∧
    strippedCount "consoleconsole.log(1).log(2); console.log(3);".toList = 1 := by
  decide +kernel

end SourceSweep.Script
