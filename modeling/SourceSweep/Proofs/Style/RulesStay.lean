import Mathlib.Data.List.Flatten
import SourceSweep.Proofs.Style.Stays

/-! Rules that pruning leaves alone. A rule that is not one of an unused class stays, if neither the
line on which it starts nor the one on which its block opens is taken for such a rule's. -/
namespace SourceSweep.Style
open Text

/- The lines of a block, up to the end of its last line. What stands before it on its first line
closes the blocks that were open. -/
theorem blockLines {before : Nat} {opening inner tail : Text} (openingFree : '\n' ∉ opening)
    (ends : openBehind? before opening = some 0) (matched : isBalanced inner = true)
    (tailFree : '\n' ∉ tail) :
    ∃ first more, lines (opening ++ ('{' :: inner ++ ['}'] ++ tail)) = (opening ++ '{' :: first) :: more ∧
      StaysOpen before ((opening ++ '{' :: first) :: more) := by
  obtain ⟨first, more, cut, firstFree, moreFree⟩ := firstLineSplit (inner ++ ['}'] ++ tail)
  have text : opening ++ ('{' :: inner ++ ['}'] ++ tail) = (opening ++ '{' :: first) ++ begun more := by
    simpa using cut
  have free : '\n' ∉ opening ++ '{' :: first := by simp [openingFree, firstFree]
  refine ⟨first, more, by rw [text, linesBehind free moreFree], staysOpenOf ?_⟩
  intro front rest split filled others
  cases front with
  | nil => exact absurd rfl filled
  | cons line front =>
    obtain ⟨rfl, rfl⟩ : opening ++ '{' :: first = line ∧ more = front ++ rest := by
      simpa using split
    have whole := unlinesEnded ((opening ++ '{' :: first) :: front) others
    rw [List.cons_append, unlinesCons, ← text, endedCons] at whole
    have within : '{' :: inner ++ ['}'] ++ tail = ended (('{' :: first) :: front) ++ unlines rest := by
      rw [endedCons]
      simpa using whole
    have solid : ('{' :: inner ++ ['}']).getLast? ≠ some '\n' := by
      rw [List.getLast?_concat]
      decide
    have feed := endedFeed (List.cons_ne_nil ('{' :: first) front)
    obtain ⟨last, lasts, block⟩ := cutBehindFeed within feed solid tailFree
    have begins : ended (('{' :: first) :: front) ≠ [] := by simp [endedCons]
    obtain ⟨depth, behind, some⟩ := openWithinBlock matched block begins lasts
    have moved : ended ((opening ++ '{' :: first) :: front) = opening ++ ended (('{' :: first) :: front) := by
      simp [endedCons]
    exact ⟨depth, by simpa [moved, openBehindAppend, ends] using behind, some⟩

def TopRule.openingLine {css : Text} (rule : TopRule css) : Text :=
  firstLine (lastLine rule.selector ++ (rule.block ++ rule.behind))

/-- Neither where it starts nor where its block opens is the rule taken for one of an unused class: a
chunk of earlier lines that lasts to its start is kept, and the last line of a longer selector does
not begin such a rule unless it goes on a list. -/
structure TopRule.StandsApart {css : Text} (rule : TopRule css) (used : Text → Bool) : Prop where
  start : ∀ earlier line next rest, chunks rule.front = earlier ++ [line :: next :: rest] →
    asksUnused used line = true → endsInComma (keptChunks used [] earlier).flatten = true
  opening : earlierLines rule.selector ≠ [] → asksUnused used rule.openingLine = true →
    endsInComma (earlierLines rule.selector) = true

namespace TopRule
variable {css : Text} (rule : TopRule css)

theorem selectorPlain : rule.selector.all notBrace = true := by
  refine List.all_eq_true.mpr fun c mem => ?_
  have simple := List.all_eq_true.mp rule.simple c (List.dropWhile_sublist _ |>.subset mem)
  exact (Bool.and_eq_true_iff.mp simple).1

theorem frontSplit : css = rule.front ++ (rule.text ++ rule.behind) := by
  have prelude : rule.prelude = rule.prelude.takeWhile isBlank ++ rule.selector :=
    List.takeWhile_append_dropWhile.symm
  have whole := rule.whole
  rw [prelude] at whole
  simpa [front, text, block] using whole

theorem frontBalanced : isBalanced rule.front = true := by
  have blank : allBlank (rule.prelude.takeWhile isBlank) = true := List.all_takeWhile
  rw [front, balancedAppend rule.outside]
  exact balancedPlain (plainOfBlank blank)

theorem headBlank (noClose : '}' ∉ lastLine rule.front) (noEnd : ';' ∉ lastLine rule.front) :
    allBlank (lastLine rule.front) = true := by
  have cut : rule.before ++ rule.prelude.takeWhile isBlank =
      ended (earlierLines rule.front) ++ lastLine rule.front := endedLast rule.front
  have blank : allBlank (rule.prelude.takeWhile isBlank) = true := List.all_takeWhile
  rcases List.append_eq_append_iff.mp cut with ⟨front, _, same⟩ | ⟨front, same, head⟩
  · rw [same, allBlank, List.all_append, Bool.and_eq_true] at blank
    exact blank.2
  · rcases List.eq_nil_or_concat front with rfl | ⟨more, c, rfl⟩
    · rw [head]
      exact blank
    · have mem : c ∈ lastLine rule.front := by rw [head]; simp
      have fresh := rule.fresh
      rw [same] at fresh
      have last : c = '}' ∨ c = ';' := by simpa using fresh
      rcases last with rfl | rfl
      · exact absurd mem noClose
      · exact absurd mem noEnd

theorem chunkSplit : ∃ earlier between, ∃ depth : Nat,
    chunks rule.front = earlier ++ [between ++ [lastLine rule.front]] ∧
    earlierLines rule.front = earlier.flatten ++ between ∧ chunksFrom 0 earlier.flatten = earlier ∧
    earlier.flatten.foldl depthAfter 0 = 0 ∧ between.foldl depthAfter 0 = depth ∧
    openBehind? depth (lastLine rule.front) = some 0 ∧
    StaysOpen 0 (between ++ [lastLine rule.front]) := by
  have whole : (chunks rule.front).flatten = earlierLines rule.front ++ [lastLine rule.front] := by
    rw [chunks, chunksFlatten, linesLast]
  rcases List.eq_nil_or_concat' (chunks rule.front) with none | ⟨cs, chunk, cut⟩
  · simp [none] at whole
  obtain ⟨some, isOpen, closed⟩ := lastChunk cut
  obtain ⟨between, line, rfl⟩ := (List.eq_nil_or_concat' chunk).resolve_left some
  rw [cut, List.flatten_append, List.flatten_singleton, ← List.append_assoc] at whole
  obtain ⟨same, last⟩ := List.append_inj' whole rfl
  obtain rfl : line = lastLine rule.front := by simpa using last
  obtain ⟨closed, alone⟩ : cs.flatten.foldl depthAfter 0 = 0 ∧ chunksFrom 0 cs.flatten = cs := by
    cases cs with
    | nil => exact ⟨rfl, rfl⟩
    | cons first cs => exact closed (List.cons_ne_nil first cs)
  rw [closed] at isOpen
  have ends : openBehind? 0 rule.front = Option.some 0 := by simpa [isBalanced] using rule.frontBalanced
  rw [endedLast rule.front, ← same, endedAppend, openBehindAppend, openBehindAppend] at ends
  obtain ⟨depth, earlier, ends⟩ := Option.bind_eq_some_iff.mp ends
  obtain ⟨first, before, inner⟩ := Option.bind_eq_some_iff.mp earlier
  obtain rfl : first = 0 := by
    have through := depthThrough before
    rw [Int.natCast_zero, closed] at through
    omega
  exact ⟨cs, between, depth, cut, same.symm, alone, closed, depthThrough inner, ends, isOpen⟩

section
variable {used : Text → Bool} {kept : List Text} {depth : Nat} {tail : Text} (tailFree : '\n' ∉ tail)
  (closes : openBehind? depth (lastLine rule.front) = some 0)

theorem selectorQuiet (other : isUnusedClass used rule.prelude = false) (rest : Text) :
    asksUnused used ((lastLine rule.front ++ rule.selector) ++ '{' :: rest) = false := by
  refine Bool.eq_false_iff.mpr fun asks => ?_
  obtain ⟨line, whole, unused⟩ := opensSelector asks
  have noClose : '}' ∉ line.selector := line.selectorLacks (by decide) (by decide) (by decide)
  have noEnd : ';' ∉ line.selector := line.selectorLacks (by decide) (by decide) (by decide)
  rw [whole] at noClose noEnd
  have blank := rule.headBlank (fun mem => noClose (List.mem_append_left _ mem))
    (fun mem => noEnd (List.mem_append_left _ mem))
  have same : trim line.selector = trim rule.prelude := by
    rw [whole, trim, skipBlanksBehind blank, TopRule.selector, skipBlanksTwice, trim]
  have taken := line.unusedClass unused
  rw [isUnusedClass, same, ← isUnusedClass, other] at taken
  exact absurd taken (by decide)

include tailFree closes

theorem oneLineStays (other : isUnusedClass used rule.prelude = false)
    (alone : earlierLines rule.selector = []) :
    Stays used kept depth (lines (lastLine rule.front ++ (rule.text ++ tail))) := by
  have same : rule.selector = lastLine rule.selector := by
    simpa [alone, ended] using endedLast rule.selector
  have free : '\n' ∉ lastLine rule.front ++ rule.selector := by
    rw [same]
    simp [lastLineFree]
  have ends : openBehind? depth (lastLine rule.front ++ rule.selector) = some 0 := by
    simp [openBehindAppend, closes, openBehindPlain rule.selectorPlain]
  obtain ⟨first, more, pieces, isOpen⟩ := blockLines free ends rule.matched tailFree
  rw [text, block, List.append_assoc, ← List.append_assoc (lastLine rule.front), pieces]
  exact staysOfOpen isOpen fun _ asks =>
    absurd ((rule.selectorQuiet other first).symm.trans asks) (by decide)

/- A rule whose selector takes more lines. The first is no rule's, the blocks before it being closed
by then, and the last is not taken for one's. -/
theorem moreLinesStay {later : List Text} (laterFree : ∀ line ∈ later, '\n' ∉ line)
    (behind : rule.behind = tail ++ begun later) (apart : rule.StandsApart used) {first : Text} {more : List Text}
    (earlier : earlierLines rule.selector = first :: more) :
    Stays used kept depth (lines (lastLine rule.front ++ (rule.text ++ tail))) := by
  have selector : rule.selector = first ++ '\n' :: (ended more ++ lastLine rule.selector) := by
    simpa [earlier, endedCons] using endedLast rule.selector
  have plain := List.all_eq_true.mp rule.selectorPlain
  have linePlain : ∀ line ∈ first :: more, line.all notBrace = true := fun line mem =>
    List.all_eq_true.mpr fun c within => plain c (earlierLineChar (earlier ▸ mem) within)
  have lastPlain : (lastLine rule.selector).all notBrace = true :=
    List.all_eq_true.mpr fun c within => plain c (lastLineChar within)
  have free : ∀ line ∈ first :: more, '\n' ∉ line := fun line mem => earlierLineFree (earlier ▸ mem)
  obtain ⟨firstPlain, morePlain⟩ := List.forall_mem_cons.mp linePlain
  obtain ⟨firstFree, moreFree⟩ := List.forall_mem_cons.mp free
  obtain ⟨c, rest, rfl, ink⟩ : ∃ c rest, first = c :: rest ∧ isBlank c = false := by
    cases first with
    | nil => exact absurd (skipBlanksHead selector) (by decide)
    | cons c rest => exact ⟨c, rest, rfl, skipBlanksHead selector⟩
  obtain ⟨inner, others, pieces, isOpen⟩ := blockLines (lastLineFree rule.selector)
    (openBehindPlain lastPlain 0) rule.matched tailFree
  have cut : lines (lastLine rule.front ++ (rule.text ++ tail)) = (lastLine rule.front ++ c :: rest) ::
      (more ++ (lastLine rule.selector ++ '{' :: inner) :: others) := by
    have text : rule.text = (c :: rest ++ '\n' :: (ended more ++ lastLine rule.selector)) ++ rule.block :=
      congrArg (· ++ rule.block) selector
    have lineFree : '\n' ∉ lastLine rule.front ++ c :: rest := by simpa [lastLineFree] using firstFree
    rw [← pieces, ← List.cons_append, ← linesEnded (List.forall_mem_cons.mpr ⟨lineFree, moreFree⟩), text,
      block, endedCons]
    simp
  have closed : depthAfter depth (lastLine rule.front ++ c :: rest) = 0 := by
    have balance := openBehindBalance closes
    refine depthAfterClosed ?_
    rw [braceBalanceAppend, braceBalanceFree firstPlain]
    omega
  rw [cut]
  refine ⟨fun outside asks => ?_, ?_⟩
  · have balanced : isBalanced (lastLine rule.front) = true := by
      rw [Int.natCast_eq_zero.mp outside] at closes
      simp [isBalanced, closes]
    rw [quietOfBalanced balanced ink firstPlain] at asks
    cases asks
  · rw [closed]
    refine staysPlain morePlain (staysOfOpen isOpen fun _ asks => ?_)
    have opening : rule.openingLine = lastLine rule.selector ++ '{' :: inner := by
      rw [openingLine, behind, ← List.append_assoc rule.block, ← List.append_assoc, firstLine,
        linesBegun laterFree, block, pieces]
      rfl
    have comma := apart.opening (by simp [earlier]) (opening ▸ asks)
    rw [earlier] at comma
    have listed : (kept ++ [lastLine rule.front ++ c :: rest] ++ more).flatten =
        (kept.flatten ++ lastLine rule.front) ++ ((c :: rest) :: more).flatten := by simp
    exact endsInCommaBehind comma listed

theorem linesStay {later : List Text} (laterFree : ∀ line ∈ later, '\n' ∉ line)
    (behind : rule.behind = tail ++ begun later) (other : isUnusedClass used rule.prelude = false)
    (apart : rule.StandsApart used) :
    Stays used kept depth (lines (lastLine rule.front ++ (rule.text ++ tail))) := by
  cases earlier : earlierLines rule.selector with
  | nil => exact rule.oneLineStays tailFree closes other earlier
  | cons first more => exact rule.moreLinesStay tailFree closes laterFree behind apart earlier

end

theorem otherRuleStays {used : Text → Bool} (other : isUnusedClass used rule.prelude = false)
    (apart : rule.StandsApart used) : ∃ front behind, prune used css = front ++ (rule.text ++ behind) ∧
    front.Sublist rule.front ∧ behind.Sublist rule.behind := by
  obtain ⟨earlier, between, depth, row, split, alone, closed, through, closes, isOpen⟩ := rule.chunkSplit
  obtain ⟨tail, later, behind, tailFree, laterFree⟩ := firstLineSplit rule.behind
  have filled : lines (lastLine rule.front ++ (rule.text ++ tail)) ≠ [] := cutAtNeNil '\n' _
  have cut : lines css = earlier.flatten ++
      ((between ++ lines (lastLine rule.front ++ (rule.text ++ tail))) ++ later) := by
    have whole : css = ended (earlier.flatten ++ between) ++
        (lastLine rule.front ++ (rule.text ++ tail) ++ begun later) := by
      have parts := rule.frontSplit
      rw [behind, endedLast rule.front, split] at parts
      simpa using parts
    refine (congrArg lines whole).trans ?_
    rw [linesEnded (fun line mem => earlierLineFree (split ▸ mem)), linesBegun laterFree]
    simp
  have stays : Stays used (keptChunks used [] earlier).flatten 0
      (between ++ lines (lastLine rule.front ++ (rule.text ++ tail))) := by
    refine staysAppend ?_ ?_
    · cases between with
      | nil => trivial
      | cons line rest =>
        obtain ⟨next, more, tail⟩ := List.exists_cons_of_ne_nil
          (List.append_ne_nil_of_right_ne_nil rest (List.cons_ne_nil (lastLine rule.front) []))
        rw [List.cons_append, tail] at row
        exact staysOfOpen isOpen.front fun _ => apart.start earlier line next more row
    · rw [through]
      exact rule.linesStay tailFree closes laterFree behind other apart
  rw [← alone] at stays
  obtain ⟨after, afterLess, pruned⟩ := pruneStays cut closed stays
  rw [alone] at pruned
  have text : unlines (lines (lastLine rule.front ++ (rule.text ++ tail))) =
      lastLine rule.front ++ (rule.text ++ tail) := joinWithCutAt '\n' _
  refine ⟨ended ((keptChunks used [] earlier).flatten ++ between) ++ lastLine rule.front,
    tail ++ begun after, ?_, ?_, ?_⟩
  · rw [pruned, List.append_assoc between, ← List.append_assoc, unlinesEnded _ (by simp [filled]),
      unlinesBegun filled, text]
    simp
  · have narrower : (ended ((keptChunks used [] earlier).flatten ++ between) ++ lastLine rule.front).Sublist
        (ended (earlierLines rule.front) ++ lastLine rule.front) := by
      rw [split]
      exact (((keptChunksSublist used [] earlier).flatten.append_right between).flatMap
        (· ++ ['\n'])).append_right _
    rwa [← endedLast] at narrower
  · rw [behind]
    exact List.Sublist.append_left (afterLess.flatMap _) tail

end TopRule

def boxOnly (name : Text) : Bool := name = "box".toList

def listSheet : Text := ".old \x7b\n  a: b;\n\x7d\n.box,\n.card \x7b\n  c: d;\n\x7d\n".toList

def listRule : TopRule listSheet where
  before := ".old \x7b\n  a: b;\n\x7d".toList
  prelude := "\n.box,\n.card ".toList
  inner := "\n  c: d;\n".toList
  behind := "\n".toList
  whole := by decide +kernel
  outside := by decide +kernel
  fresh := by decide +kernel
  simple := by decide +kernel
  matched := by decide +kernel

theorem listRuleStays : isUnusedClass boxOnly listRule.prelude = false ∧ listRule.StandsApart boxOnly ∧
    ∃ front behind, prune boxOnly listSheet = front ++ (listRule.text ++ behind) ∧
      front.Sublist listRule.front ∧ behind.Sublist listRule.behind := by
  have other : isUnusedClass boxOnly listRule.prelude = false := by decide +kernel
  have last : (chunks listRule.front).getLast? = some [[]] := by decide +kernel
  have apart : listRule.StandsApart boxOnly :=
    ⟨fun earlier line next rest row => by simp [row] at last, fun _ _ => by decide +kernel⟩
  exact ⟨other, apart, listRule.otherRuleStays other apart⟩

def childSheet : Text := ".box >\n.card \x7b\n  c: d;\n\x7d\n".toList

def childRule : TopRule childSheet where
  before := []
  prelude := ".box >\n.card ".toList
  inner := "\n  c: d;\n".toList
  behind := "\n".toList
  whole := by decide +kernel
  outside := by decide +kernel
  fresh := by decide +kernel
  simple := by decide +kernel
  matched := by decide +kernel

def sharedSheet : Text := ".old \x7b\n  a: b;\n\x7d .box \x7b\n  c: d;\n\x7d\n".toList

def sharedRule : TopRule sharedSheet where
  before := ".old \x7b\n  a: b;\n\x7d".toList
  prelude := " .box ".toList
  inner := "\n  c: d;\n".toList
  behind := "\n".toList
  whole := by decide +kernel
  outside := by decide +kernel
  fresh := by decide +kernel
  simple := by decide +kernel
  matched := by decide +kernel

/- Of a selector over two lines the second alone is taken for the rule's; a used rule goes with an
unused one that ends on its first line. -/
theorem otherRulesGo :
    (isUnusedClass boxOnly childRule.prelude = false ∧
      ¬ childRule.text.IsInfix (prune boxOnly childSheet)) ∧
    (isUnusedClass boxOnly sharedRule.prelude = false ∧
      ¬ sharedRule.text.IsInfix (prune boxOnly sharedSheet)) := by
  decide +kernel

end SourceSweep.Style
