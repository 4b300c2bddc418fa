import SourceSweep.Proofs.Script.CallPattern

/-! The forms of a run of blank lines and of a run of line feeds, matched with backtracking. A run of blank
lines is taken up to the last line feed in the blanks that follow the beginning of a line, so that what
indents the next line stays. -/
namespace SourceSweep.Script
open Text

def blankPattern : Form := .both .lineStart (.both blanks (.text ['\n']))

def feedPattern : Form := .both (.text ['\n', '\n', '\n']) (.many (.one (· = '\n')))

/-- The line feed that stands for a run of blank lines, behind the carriage return of the last of them. -/
def bareFeed (run : Text) : Text := if ['\r', '\n'].isSuffixOf run then ['\r', '\n'] else ['\n']

def twoFeeds (_ : Text) : Text := ['\n', '\n']

theorem lastFeedBlank {c : Char} (blank : isBlank c = true) (before : Option Char) (rest : Text) :
    (Form.both blanks (.text ['\n'])).length? ⟨before, c :: rest⟩ =
      (((Form.both blanks (.text ['\n'])).length? ⟨some c, rest⟩).map (1 + ·)).or
        (if c = '\n' then some 1 else none) := by
  rw [Form.length?, blanks, Form.manyOnOr (Form.oneFits blank) Nat.one_pos, Form.onwardOne, List.head?_append,
    List.head?_map, Form.textOne, Form.length?]
  split <;> rfl

theorem lastFeedInk {c : Char} (ink : isBlank c = false) (before : Option Char) (rest : Text) :
    (Form.both blanks (.text ['\n'])).length? ⟨before, c :: rest⟩ = none := by
  rw [Form.length?, blanks, Form.manyEnds (Form.oneMissed ink), Form.textOne, if_neg (inkNotFeed ink)]
  rfl

theorem lastFeedNone {line : Text} (free : '\n' ∉ line) (before : Option Char) :
    (Form.both blanks (.text ['\n'])).length? ⟨before, line⟩ = none := by
  induction line generalizing before with
  | nil => rfl
  | cons c line ih =>
    have other : c ≠ '\n' := (List.ne_of_not_mem_cons free).symm
    cases blank : isBlank c with
    | false => exact lastFeedInk blank before line
    | true =>
      rw [lastFeedBlank blank, ih (List.not_mem_of_not_mem_cons free), if_neg other]
      rfl

theorem lastFeedSolid {line : Text} (free : '\n' ∉ line) (solid : allBlank line = false) (before : Option Char)
    (rest : Text) : (Form.both blanks (.text ['\n'])).length? ⟨before, line ++ rest⟩ = none := by
  induction line generalizing before with
  | nil => cases solid
  | cons c line ih =>
    have other : c ≠ '\n' := (List.ne_of_not_mem_cons free).symm
    cases blank : isBlank c with
    | false => exact lastFeedInk blank before (line ++ rest)
    | true =>
      have later : allBlank line = false := by simpa [allBlank, blank] using solid
      rw [List.cons_append, lastFeedBlank blank, ih (List.not_mem_of_not_mem_cons free) later, if_neg other]
      rfl

theorem lastFeedBehind {line : Text} (free : '\n' ∉ line) (blank : allBlank line = true) (before : Option Char)
    (rest : Text) : (Form.both blanks (.text ['\n'])).length? ⟨before, line ++ '\n' :: rest⟩ =
      some (line.length + 1 + ((Form.both blanks (.text ['\n'])).length? ⟨some '\n', rest⟩).getD 0) := by
  induction line generalizing before with
  | nil =>
    rw [List.nil_append, lastFeedBlank rfl, if_pos rfl]
    cases (Form.both blanks (.text ['\n'])).length? ⟨some '\n', rest⟩ <;> simp
  | cons c line ih =>
    have other : c ≠ '\n' := (List.ne_of_not_mem_cons free).symm
    obtain ⟨first, later⟩ := Bool.and_eq_true_iff.mp blank
    rw [List.cons_append, lastFeedBlank first, ih (List.not_mem_of_not_mem_cons free) later, if_neg other]
    simp only [Option.map_some, Option.or_none, List.length_cons]
    exact congrArg some (by omega)

def LineBegins (before : Option Char) : Prop := before.all (· = '\n') = true

theorem textBegins : LineBegins none := rfl

theorem feedBegins : LineBegins (some '\n') := rfl

theorem blankPatternStart {before : Option Char} (starts : LineBegins before) (text : Text) :
    blankPattern.length? ⟨before, text⟩ = (Form.both blanks (.text ['\n'])).length? ⟨before, text⟩ := by
  have here : Form.lineStart.ways ⟨before, text⟩ = [0] := if_pos starts
  rw [blankPattern, Form.lengthOnly here, onwardNone]
  simp

theorem blankPatternWithin {c : Char} (other : c ≠ '\n') (text : Text) :
    blankPattern.length? ⟨some c, text⟩ = none :=
  Form.lengthMissed (by simp [Form.waysLineStart, other])

theorem lineBehind {c : Char} (other : c ≠ '\n') {line : Text} (free : '\n' ∉ line) (rest : Text) :
    ∃ d, d ≠ '\n' ∧ blankPattern.replaceFrom bareFeed ⟨some c, line ++ rest⟩ =
      line ++ blankPattern.replaceFrom bareFeed ⟨some d, rest⟩ := by
  induction line generalizing c with
  | nil => exact ⟨c, other, rfl⟩
  | cons e line ih =>
    have next : e ≠ '\n' := (List.ne_of_not_mem_cons free).symm
    obtain ⟨d, last, later⟩ := ih next (List.not_mem_of_not_mem_cons free)
    refine ⟨d, last, ?_⟩
    rw [List.cons_append, Form.replaceMissed (blankPatternWithin other _), later, List.cons_append]

theorem lastLineStays {line : Text} (free : '\n' ∉ line) {before : Option Char} (starts : LineBegins before) :
    blankPattern.replaceFrom bareFeed ⟨before, line⟩ = line := by
  cases line with
  | nil => rfl
  | cons c line =>
    have other : c ≠ '\n' := (List.ne_of_not_mem_cons free).symm
    have missed := (blankPatternStart starts (c :: line)).trans (lastFeedNone free before)
    obtain ⟨d, _, later⟩ := lineBehind other (List.not_mem_of_not_mem_cons free) []
    rw [List.append_nil] at later
    rw [Form.replaceMissed missed, later, Form.replaceNothing, List.append_nil]

theorem solidLineStays {line : Text} (free : '\n' ∉ line) (solid : allBlank line = false) {before : Option Char}
    (starts : LineBegins before) (rest : Text) :
    blankPattern.replaceFrom bareFeed ⟨before, line ++ '\n' :: rest⟩ =
      line ++ '\n' :: blankPattern.replaceFrom bareFeed ⟨some '\n', rest⟩ := by
  cases line with
  | nil => cases solid
  | cons c line =>
    have other : c ≠ '\n' := (List.ne_of_not_mem_cons free).symm
    have missed : blankPattern.length? ⟨before, c :: (line ++ '\n' :: rest)⟩ = none :=
      (blankPatternStart starts _).trans (lastFeedSolid free solid before ('\n' :: rest))
    obtain ⟨d, last, later⟩ := lineBehind other (List.not_mem_of_not_mem_cons free) ('\n' :: rest)
    rw [List.cons_append, Form.replaceMissed missed, later, Form.replaceMissed (blankPatternWithin last _),
      List.cons_append]

theorem bareFeedBehind (front : Text) {run : Text} (some : run ≠ []) :
    bareFeed (front ++ '\n' :: run) = bareFeed run := by
  have suffix : ['\r', '\n'].isSuffixOf (front ++ '\n' :: run) = ['\r', '\n'].isSuffixOf run := by
    obtain ⟨before, last, rfl⟩ := (List.eq_nil_or_concat run).resolve_left some
    cases before using List.reverseRecOn with
    | nil => simp [List.isSuffixOf, List.isPrefixOf]
    | append_singleton before second => simp [List.isSuffixOf, List.isPrefixOf]
  rw [bareFeed, bareFeed, suffix]

theorem bareFeedLine (line : Text) : bareFeed (line ++ ['\n']) = runLine line ++ ['\n'] := by
  have suffix : ['\r', '\n'].isSuffixOf (line ++ ['\n']) = (line.getLast? == some '\r') := by
    cases line using List.reverseRecOn with
    | nil => rfl
    | append_singleton line last => simp [List.isSuffixOf, List.isPrefixOf, BEq.comm]
  rw [bareFeed, suffix, runLine]
  by_cases ends : line.getLast? = some '\r'
  · simp [ends]
  · simp [ends]

section
variable {line : Text} (free : '\n' ∉ line) (blank : allBlank line = true) {before : Option Char}
  (starts : LineBegins before) {rest : Text}
include free blank starts

theorem lastOfRun (ends : (Form.both blanks (.text ['\n'])).length? ⟨some '\n', rest⟩ = none) :
    blankPattern.replaceFrom bareFeed ⟨before, line ++ '\n' :: rest⟩ =
      runLine line ++ '\n' :: blankPattern.replaceFrom bareFeed ⟨some '\n', rest⟩ := by
  have found : blankPattern.length? ⟨before, line ++ '\n' :: rest⟩ = some (line.length + 1) := by
    rw [blankPatternStart starts, lastFeedBehind free blank, ends]
    rfl
  have taken : (line ++ '\n' :: rest).take (line.length + 1) = line ++ ['\n'] := by
    rw [List.take_append, List.take_of_length_le (by omega)]
    simp
  rw [Form.replaceMatch found (Nat.succ_pos _), onwardLine, taken, bareFeedLine]
  simp

theorem moreOfRun {length : Nat} (more : (Form.both blanks (.text ['\n'])).length? ⟨some '\n', rest⟩ = some length)
    (some : 0 < length) : blankPattern.replaceFrom bareFeed ⟨before, line ++ '\n' :: rest⟩ =
      blankPattern.replaceFrom bareFeed ⟨Option.some '\n', rest⟩ := by
  have found : blankPattern.length? ⟨before, line ++ '\n' :: rest⟩ = Option.some (line.length + 1 + length) := by
    rw [blankPatternStart starts, lastFeedBehind free blank, more]
    rfl
  have next : blankPattern.length? ⟨Option.some '\n', rest⟩ = Option.some length :=
    (blankPatternStart feedBegins rest).trans more
  have taken : (line ++ '\n' :: rest).take (line.length + 1 + length) = line ++ '\n' :: rest.take length := by
    rw [List.take_append, List.take_of_length_le (by omega), Nat.add_assoc, Nat.add_sub_cancel_left, Nat.add_comm 1,
      List.take_succ_cons]
  have filled : rest.take length ≠ [] := by
    have within := Form.waysWithin _ _ _ (List.mem_of_mem_head? more)
    refine List.ne_nil_of_length_pos ?_
    rw [List.length_take]
    exact Nat.lt_min.mpr ⟨some, Nat.lt_of_lt_of_le some within⟩
  rw [Form.replaceMatch found (by omega), Form.replaceMatch next some, ← onwardTwice, onwardLine, taken,
    bareFeedBehind line filled]

end

theorem FeedFree.later {line : Text} {rest : List Text} (free : FeedFree (line :: rest)) : FeedFree rest :=
  fun piece mem => free piece (List.mem_cons_of_mem line mem)

theorem unlinesLine (line : Text) {rest : List Text} (more : rest ≠ []) :
    unlines (line :: rest) = line ++ '\n' :: unlines rest := joinWithCons line more

/- A line that is not blank, and the last line, end a run. -/
theorem noFeedAhead {line : Text} {rest : List Text} (free : '\n' ∉ line)
    (ends : rest ≠ [] → allBlank line = false) (before : Option Char) :
    (Form.both blanks (.text ['\n'])).length? ⟨before, unlines (line :: rest)⟩ = none := by
  cases rest with
  | nil => exact lastFeedNone free before
  | cons next rest =>
    have more := List.cons_ne_nil next rest
    rw [unlinesLine line more]
    exact lastFeedSolid free (ends more) before _

theorem replaceBlankLines {pieces : List Text} (free : FeedFree pieces) {before : Option Char}
    (starts : LineBegins before) :
    blankPattern.replaceFrom bareFeed ⟨before, unlines pieces⟩ = unlines (collapseLines pieces) := by
  induction pieces using collapseCases generalizing before with
  | nil => rfl
  | single last => exact lastLineStays (free last List.mem_cons_self) starts
  | pair line next rest more first second ih =>
    have later := free.later
    have ahead := lastFeedBehind (later next List.mem_cons_self) second (some '\n') (unlines rest)
    rw [← unlinesLine next more] at ahead
    rw [collapseBlankPair more first second, unlinesLine line (List.cons_ne_nil next rest),
      moreOfRun (free line List.mem_cons_self) first starts ahead (by omega), ih later feedBegins]
  | runEnd line next rest first ends ih =>
    have later := free.later
    have last := noFeedAhead (later next List.mem_cons_self) ends (some '\n')
    rw [unlinesCollapsedRunEnd first ends, unlinesLine line (List.cons_ne_nil next rest),
      lastOfRun (free line List.mem_cons_self) first starts last, ih later feedBegins]
  | other line next rest first ih =>
    have later := free.later
    rw [collapseOther first, unlinesLine line (List.cons_ne_nil next rest),
      unlinesLine line (collapseLinesNeNil (List.cons_ne_nil next rest)),
      solidLineStays (free line List.mem_cons_self) first starts, ih later feedBegins]

theorem replaceBlanks (text : Text) : blankPattern.replace bareFeed text = collapseBlankRuns text := by
  have whole : unlines (lines text) = text := joinWithCutAt '\n' text
  have replaced := replaceBlankLines (cutAtFree '\n' text) textBegins
  rwa [← lines, whole] at replaced

section
variable {rest : Text} (stops : rest.head? ≠ some '\n')
include stops

theorem feedsTaken (count : Nat) : (List.replicate count '\n' ++ rest).takeWhile (· = '\n') =
    List.replicate count '\n' := by
  have none : rest.takeWhile (· = '\n') = [] := by
    cases rest with
    | nil => rfl
    | cons c rest =>
      have other : c ≠ '\n' := fun same => stops (congrArg some same)
      simp [other]
  rw [List.takeWhile_append_of_pos (by simp), none, List.append_nil]

theorem fewFeeds {count : Nat} (few : count ≤ 2) (before : Option Char) :
    feedPattern.length? ⟨before, List.replicate count '\n' ++ rest⟩ = none := by
  refine Form.lengthMissed ?_
  have missed : ['\n', '\n', '\n'].isPrefixOf (List.replicate count '\n' ++ rest) = false := by
    refine Bool.eq_false_iff.mpr fun begins => ?_
    have taken := congrArg List.length (feedsTaken stops count)
    obtain ⟨behind, whole⟩ := List.isPrefixOf_iff_prefix.mp begins
    rw [← whole] at taken
    simp at taken
    omega
  simp only [Form.waysText, missed, Bool.false_eq_true, if_false]

theorem manyFeeds (count : Nat) (before : Option Char) :
    feedPattern.length? ⟨before, List.replicate (3 + count) '\n' ++ rest⟩ = some (3 + count) := by
  have here : (Form.text ['\n', '\n', '\n']).ways ⟨before, List.replicate (3 + count) '\n' ++ rest⟩ = [3] := by
    rw [List.replicate_add]
    rfl
  have behind : (onward ⟨before, List.replicate (3 + count) '\n' ++ rest⟩ 3).rest =
      List.replicate count '\n' ++ rest := by
    rw [List.replicate_add]
    rfl
  rw [feedPattern, Form.lengthOnly here, Form.runLength, behind, feedsTaken stops, List.length_replicate]
  rfl

theorem capBehind (before : Nat) : capFeedsAfter before rest = capFeeds rest := by
  cases rest with
  | nil => cases before <;> rfl
  | cons c rest =>
    have other : c ≠ '\n' := fun same => stops (congrArg some same)
    simp only [capFeeds, capFeedsAfter, if_neg other]

theorem capMore (count : Nat) : capFeedsAfter 2 (List.replicate count '\n' ++ rest) = capFeeds rest := by
  induction count with
  | zero => exact capBehind stops 2
  | succ count ih => exact ih

end

theorem feedsSplit (text : Text) :
    ∃ count rest, text = List.replicate count '\n' ++ rest ∧ rest.head? ≠ some '\n' := by
  induction text with
  | nil => exact ⟨0, [], rfl, by decide⟩
  | cons c text ih =>
    by_cases feed : c = '\n'
    · obtain ⟨count, rest, rfl, stops⟩ := ih
      exact ⟨count + 1, rest, by rw [feed, List.replicate_succ, List.cons_append], stops⟩
    · exact ⟨0, c :: text, rfl, by simpa using feed⟩

theorem replaceFeeds (before : Option Char) (text : Text) :
    feedPattern.replaceFrom twoFeeds ⟨before, text⟩ = capFeeds text := by
  induction size : text.length using Nat.strong_induction_on generalizing before text with
  | _ size ih =>
    subst size
    obtain ⟨count, rest, rfl, stops⟩ := feedsSplit text
    match count with
    | 0 =>
      cases rest with
      | nil => rfl
      | cons c rest =>
        have other : c ≠ '\n' := fun same => stops (congrArg some same)
        have missed : feedPattern.length? ⟨before, c :: rest⟩ = none := fewFeeds stops (Nat.zero_le 2) before
        have later := ih rest.length (Nat.lt_succ_self _) (some c) rest rfl
        rw [List.replicate_zero, List.nil_append, Form.replaceMissed missed, later, capFeeds, capFeeds,
          capFeedsAfter, if_neg other]
    | 1 =>
      have missed : feedPattern.length? ⟨before, '\n' :: rest⟩ = none := fewFeeds stops (Nat.le_succ 1) before
      have later := ih rest.length (Nat.lt_succ_self _) (some '\n') rest rfl
      rw [List.replicate_one, List.singleton_append, Form.replaceMissed missed, later, ← capBehind stops 1]
      rfl
    | 2 =>
      have missed : feedPattern.length? ⟨before, '\n' :: '\n' :: rest⟩ = none :=
        fewFeeds stops (Nat.le_refl 2) before
      have later := ih ('\n' :: rest).length (Nat.lt_succ_self _) (some '\n') ('\n' :: rest) rfl
      have capped : capFeeds ('\n' :: rest) = '\n' :: capFeeds rest := congrArg ('\n' :: ·) (capBehind stops 1)
      have cappedTwice : capFeeds ('\n' :: '\n' :: rest) = '\n' :: '\n' :: capFeeds rest :=
        congrArg ('\n' :: '\n' :: ·) (capBehind stops 2)
      exact (Form.replaceMissed missed).trans
        ((congrArg ('\n' :: ·) (later.trans capped)).trans cappedTwice.symm)
    | count + 3 =>
      have found := manyFeeds stops count before
      have shorter : rest.length < (List.replicate (count + 3) '\n' ++ rest).length := by simp
      have capped : capFeeds (List.replicate (count + 3) '\n' ++ rest) = '\n' :: '\n' :: capFeeds rest :=
        congrArg ('\n' :: '\n' :: ·) (capMore stops (count + 1))
      have whole : List.replicate (2 + count) '\n' ++ '\n' :: rest = List.replicate (3 + count) '\n' ++ rest := by
        rw [show 3 + count = 2 + count + 1 by omega, List.replicate_succ', List.append_assoc, List.singleton_append]
      have behind := onwardLine before (List.replicate (2 + count) '\n') '\n' rest
      rw [whole, List.length_replicate, show 2 + count + 1 = 3 + count by omega] at behind
      rw [capped, Nat.add_comm count 3, Form.replaceMatch found (by omega), behind, ih _ shorter (some '\n') rest rfl]
      rfl

end SourceSweep.Script
