import SourceSweep.Proofs.Script.BlankLines

/-! Line feeds and the carriage returns before them. A line feed that is left when a script is stripped has a
carriage return before it exactly if it had one before. -/
namespace SourceSweep.Script
open Text

/-- Of each line feed whether a carriage return stands directly before it. -/
def feedEnds : (before : Option Char) → Text → List Bool
  | _, [] => []
  | before, c :: rest =>
    if c = '\n' then (before == some '\r') :: feedEnds (some c) rest else feedEnds (some c) rest

def EndsLinesWith (returns : Bool) (text : Text) : Prop :=
  ∀ front rest, text = front ++ '\n' :: rest → (front.getLast? == some '\r') = returns

def endsReturn (line : Text) : Bool := line.getLast? == some '\r'

theorem feedEndsFeed (before : Option Char) (rest : Text) :
    feedEnds before ('\n' :: rest) = (before == some '\r') :: feedEnds (some '\n') rest := rfl

theorem feedEndsOther {c : Char} (other : c ≠ '\n') (before : Option Char) (rest : Text) :
    feedEnds before (c :: rest) = feedEnds (some c) rest := if_neg other

theorem feedEndsAppend (before : Option Char) (front rest : Text) :
    feedEnds before (front ++ rest) = feedEnds before front ++ feedEnds (front.getLast?.or before) rest := by
  induction front generalizing before with
  | nil => rfl
  | cons c front ih =>
    have last : (c :: front).getLast?.or before = front.getLast?.or (some c) := by
      cases front <;> rfl
    rw [last, List.cons_append]
    by_cases feed : c = '\n'
    · subst feed
      rw [feedEndsFeed, feedEndsFeed, ih, List.cons_append]
    · rw [feedEndsOther feed, feedEndsOther feed, ih]

theorem feedEndsMem {before : Option Char} {text : Text} {returns : Bool} : returns ∈ feedEnds before text ↔
    ∃ front rest, text = front ++ '\n' :: rest ∧ (front.getLast?.or before == some '\r') = returns := by
  constructor
  · induction text generalizing before with
    | nil => exact fun mem => absurd mem List.not_mem_nil
    | cons c text ih =>
      intro mem
      by_cases feed : c = '\n'
      · subst feed
        rcases List.mem_cons.mp mem with rfl | later
        · exact ⟨[], text, rfl, rfl⟩
        · obtain ⟨front, rest, rfl, same⟩ := ih later
          exact ⟨'\n' :: front, rest, rfl, by cases front <;> exact same⟩
      · rw [feedEndsOther feed] at mem
        obtain ⟨front, rest, rfl, same⟩ := ih mem
        refine ⟨c :: front, rest, rfl, ?_⟩
        rw [← same]
        cases front <;> rfl
  · rintro ⟨front, rest, rfl, rfl⟩
    rw [feedEndsAppend, feedEndsFeed]
    exact List.mem_append_right _ List.mem_cons_self

theorem endsLinesIff (returns : Bool) (text : Text) :
    (feedEnds none text).all (· == returns) = true ↔ EndsLinesWith returns text := by
  simp only [List.all_eq_true, beq_iff_eq]
  constructor
  · intro all front rest cut
    refine all _ (feedEndsMem.mpr ⟨front, rest, cut, ?_⟩)
    rw [Option.or_none]
  · intro ends each mem
    obtain ⟨front, rest, cut, same⟩ := feedEndsMem.mp mem
    rw [← same, Option.or_none]
    exact ends front rest cut

instance (returns : Bool) (text : Text) : Decidable (EndsLinesWith returns text) :=
  decidable_of_iff _ (endsLinesIff returns text)

/-! Behind a call that goes there is no line feed, so that each that stays keeps the character before it. -/

theorem feedEndsInk {c : Char} (ink : isBlank c = false) (before before' : Option Char) (rest : Text) :
    feedEnds before (c :: rest) = feedEnds before' (c :: rest) := by
  rw [feedEndsOther (inkNotFeed ink), feedEndsOther (inkNotFeed ink)]

theorem feedEndsLeft {text : Text} {cut : List Piece} (leftmost : LeftmostCalls text cut) (before : Option Char) :
    (feedEnds before (leftOf cut)).Sublist (feedEnds before text) := by
  induction leftmost generalizing before with
  | nil => exact .slnil
  | @kept c rest cut none later ih =>
    rw [leftOfKept]
    by_cases feed : c = '\n'
    · subst feed
      rw [feedEndsFeed, feedEndsFeed]
      exact (ih (some '\n')).cons_cons _
    · rw [feedEndsOther feed, feedEndsOther feed]
      exact ih (some c)
  | @call text cut call later ih =>
    have here := ih (call.span.getLast?.or before)
    have after : feedEnds before (leftOf cut) = feedEnds (call.span.getLast?.or before) (leftOf cut) := by
      cases left : leftOf cut with
      | nil => rfl
      | cons c rest =>
        have first : pieces text = [] ++ .call call.span :: cut :=
          ((leftmostIff text _).mp (.call call later)).symm
        exact feedEndsInk (leftBehindCall first left) _ _ rest
    nth_rewrite 2 [call.parted]
    rw [leftOfCall, after, feedEndsAppend]
    exact here.trans (List.sublist_append_right _ _)

/-! Of a run of blank lines the last one says how the line ends that stands for it. -/

theorem feedEndsFree {line : Text} (free : '\n' ∉ line) (before : Option Char) : feedEnds before line = [] := by
  refine List.eq_nil_iff_forall_not_mem.mpr fun returns mem => ?_
  obtain ⟨front, rest, rfl, _⟩ := feedEndsMem.mp mem
  exact free (List.mem_append_right front List.mem_cons_self)

theorem feedEndsLine {line : Text} (free : '\n' ∉ line) {before : Option Char} (begins : LineBegins before)
    (rest : Text) : feedEnds before (line ++ '\n' :: rest) = endsReturn line :: feedEnds (some '\n') rest := by
  have outside : (before == some '\r') = false := by
    cases before with
    | none => rfl
    | some c =>
      obtain rfl : c = '\n' := by simpa [LineBegins] using begins
      rfl
  have last : (line.getLast?.or before == some '\r') = endsReturn line := by
    unfold endsReturn
    cases line.getLast? with
    | some c => rfl
    | none => exact outside
  rw [feedEndsAppend, feedEndsFree free, feedEndsFeed, last, List.nil_append]

theorem feedEndsLines {pieces : List Text} (free : FeedFree pieces) {before : Option Char}
    (begins : LineBegins before) : feedEnds before (unlines pieces) = pieces.dropLast.map endsReturn := by
  induction pieces generalizing before with
  | nil => rfl
  | cons line rest ih =>
    have lineFree := free line List.mem_cons_self
    cases rest with
    | nil => exact feedEndsFree lineFree before
    | cons next rest =>
      rw [unlinesLine line (List.cons_ne_nil next rest), feedEndsLine lineFree begins, ih free.later feedBegins,
        List.dropLast_cons_cons, List.map_cons]

theorem endsReturnRunLine (line : Text) : endsReturn (runLine line) = endsReturn line := by
  unfold runLine endsReturn
  split
  · rename_i ends
    rw [ends]
    rfl
  · rename_i other
    exact (beq_false_of_ne other).symm

theorem endsReturnStanding (run : List Text) : endsReturn (standing run) = endsReturn (run.getLastD []) := by
  unfold standing
  split
  · exact endsReturnRunLine _
  · rfl

theorem standingEnds {runs : List (List Text)} (filled : [] ∉ runs) :
    ((runs.map standing).map endsReturn).Sublist (runs.flatten.map endsReturn) := by
  induction runs with
  | nil => exact .slnil
  | cons run runs ih =>
    have some : run ≠ [] := fun none => filled (none ▸ List.mem_cons_self)
    have last : run.getLastD [] ∈ run := by
      rw [List.getLastD_eq_getLast?, List.getLast?_eq_some_getLast some]
      exact List.getLast_mem some
    rw [List.map_cons, List.map_cons, endsReturnStanding, List.flatten_cons, List.map_append]
    exact (List.singleton_sublist.mpr (List.mem_map_of_mem last)).append
      (ih fun mem => filled (List.mem_cons_of_mem run mem))

theorem feedEndsCollapsed (text : Text) :
    (feedEnds none (collapseBlankRuns text)).Sublist (feedEnds none text) := by
  have free : FeedFree (lines text) := cutAtFree '\n' text
  have whole : unlines (lines text) = text := joinWithCutAt '\n' text
  have before := feedEndsLines free textBegins
  have after := feedEndsLines (collapseLinesFeedFree free) textBegins
  rw [whole] at before
  have cut := collapseRuns (earlierLines text) (lastLine text)
  rw [← linesLast] at cut
  have runs := standingEnds (blankRunsFilled (earlierLines text))
  rw [blankRunsWhole] at runs
  rwa [collapseBlankRuns, after, before, cut, List.dropLast_concat, ← earlierLines]

theorem lineEndsStay (script : Text) : (feedEnds none (strip script)).Sublist (feedEnds none script) ∧
    ∀ returns, EndsLinesWith returns script → EndsLinesWith returns (strip script) := by
  have fewer : (feedEnds none (strip script)).Sublist (feedEnds none script) := by
    by_cases token : 0 < tokenCount script
    · have left := feedEndsLeft (leftmostPieces script) none
      rw [leftOfPieces] at left
      rw [stripOfToken token]
      exact (feedEndsCollapsed (dropCalls script)).trans left
    · rw [stripOfNoToken (Nat.eq_zero_of_not_pos token)]
  refine ⟨fewer, fun returns ends => ?_⟩
  rw [← endsLinesIff, List.all_eq_true] at ends ⊢
  exact fun each mem => ends each (fewer.subset mem)

theorem loneReturnsStay :
    EndsLinesWith true "a();\r\nx\rconsole.log(1);\r\nb();\r\n".toList ∧
    EndsLinesWith true (strip "a();\r\nx\rconsole.log(1);\r\nb();\r\n".toList) ∧
    EndsLinesWith false "x\rconsole.log(1)\n;\ny();\n".toList ∧
    EndsLinesWith false (strip "x\rconsole.log(1)\n;\ny();\n".toList) := by
  have returns : EndsLinesWith true "a();\r\nx\rconsole.log(1);\r\nb();\r\n".toList := by decide
  have feeds : EndsLinesWith false "x\rconsole.log(1)\n;\ny();\n".toList := by decide
  exact ⟨returns, (lineEndsStay _).2 true returns, feeds, (lineEndsStay _).2 false feeds⟩

end SourceSweep.Script
