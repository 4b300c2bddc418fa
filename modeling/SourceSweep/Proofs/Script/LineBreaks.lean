import SourceSweep.Proofs.Script.Spans

/-! Line breaks between characters that stay when a script is stripped. The blanks behind a call go with
it, and the line breaks among them too, so that what follows the call joins what stands before it on its
line. No other line break that parts two such characters is lost. -/
namespace SourceSweep.Script
open Text

/-- The characters that end a line; the language of a script counts more of them than the line feed. -/
structure LineBreaks where
  holds : Char → Bool
  feed : holds '\n' = true
  blank : ∀ c, holds c = true → isBlank c = true

def LineBreaks.within (breaks : LineBreaks) (text : Text) : Bool := text.any breaks.holds

def LineBreaks.lineSoFar (breaks : LineBreaks) (text : Text) : Text := text.rtakeWhile (!breaks.holds ·)

def feeds : LineBreaks where
  holds c := c = '\n'
  feed := rfl
  blank c isFeed := by rw [of_decide_eq_true isFeed]; rfl

def lineEnds : LineBreaks where
  holds := Zone.endsLine
  feed := rfl
  blank c ends := by
    simp only [Zone.endsLine, Bool.or_eq_true, decide_eq_true_eq] at ends
    rcases ends with ((rfl | rfl) | same) | same
    · rfl
    · rfl
    · rw [isBlank, same]; rfl
    · rw [isBlank, same]; rfl

/- The first parenthesis that a call opens and the last that it closes are those of its arguments. -/

def Piece.outer : Piece → Text
  | .kept c => [c]
  | .call text => text.takeWhile (· ≠ '(') ++ text.rtakeWhile (· ≠ ')')

def outerOf (pieces : List Piece) : Text := pieces.flatMap Piece.outer

/-- Two characters of a script that stay, and are not blank. -/
structure KeptPair (script : Text) where
  before : List Piece
  first : Char
  between : List Piece
  second : Char
  after : List Piece
  cut : pieces script = before ++ .kept first :: (between ++ .kept second :: after)
  firstInk : isBlank first = false
  secondInk : isBlank second = false

def KeptPair.IsGap {script : Text} (pair : KeptPair script) (gap : Text) : Prop :=
  ∃ front back, strip script = front ++ pair.first :: (gap ++ pair.second :: back) ∧
    inked front = inked (leftOf pair.before) ∧ inked gap = inked (leftOf pair.between) ∧
    inked back = inked (leftOf pair.after)

def KeepsLinesApart (breaks : LineBreaks) (script : Text) : Prop :=
  ∀ pair : KeptPair script, breaks.within (outerOf pair.between) = true →
    ∃ gap, pair.IsGap gap ∧ breaks.within gap = true

/-- Whether a call that takes a line break along, and has something behind it, begins its line. -/
def BeginsLines (breaks : LineBreaks) (script : Text) : Prop :=
  ∀ before call after, pieces script = before ++ .call call :: after →
    breaks.within (Piece.call call).outer = true → inked (leftOf after) ≠ [] →
      inked (breaks.lineSoFar (leftOf before)) = []

theorem cutUnique {c d : Char} (ink : isBlank c = false) (ink' : isBlank d = false)
    {front front' rest rest' : Text} (even : inked front = inked front')
    (same : front ++ c :: rest = front' ++ d :: rest') : front = front' ∧ rest = rest' := by
  induction front generalizing front' with
  | nil =>
    cases front' with
    | nil => exact ⟨rfl, (List.cons.inj same).2⟩
    | cons e front' =>
      rw [← (List.cons.inj same).1, inkedCons ink] at even
      cases even
  | cons e front ih =>
    cases front' with
    | nil =>
      rw [(List.cons.inj same).1, inkedCons ink'] at even
      cases even
    | cons e' front' =>
      obtain ⟨rfl, later⟩ := List.cons.inj same
      have evenLater : inked front = inked front' := by
        cases blank : isBlank e with
        | true => simpa only [inkedBlankCons blank] using even
        | false => simpa only [inkedCons blank, List.cons.injEq, true_and] using even
      obtain ⟨rfl, rfl⟩ := ih evenLater later
      exact ⟨rfl, rfl⟩

namespace KeptPair
variable {script : Text} (pair : KeptPair script)

theorem gapUnique {gap gap' : Text} (here : pair.IsGap gap) (there : pair.IsGap gap') : gap = gap' := by
  obtain ⟨front, back, whole, before, between, _⟩ := here
  obtain ⟨front', back', whole', before', between', _⟩ := there
  obtain ⟨_, behind⟩ := cutUnique pair.firstInk pair.firstInk (before.trans before'.symm)
    (whole.symm.trans whole')
  exact (cutUnique pair.secondInk pair.secondInk (between.trans between'.symm) behind).1

end KeptPair

theorem withinOfFeed (breaks : LineBreaks) {text : Text} (feed : '\n' ∈ text) : breaks.within text = true :=
  List.any_eq_true.mpr ⟨'\n', feed, breaks.feed⟩

theorem collapseKeepsBreak (breaks : LineBreaks) {c : Char} (ink : isBlank c = false) (gap : Text) :
    ∃ gap', collapseBlankRuns (c :: gap) = c :: gap' ∧ Narrowed gap gap' ∧
      breaks.within gap' = breaks.within gap := by
  obtain ⟨gap', collapsed, narrowed⟩ := collapseInk ink gap
  refine ⟨gap', collapsed, narrowed, ?_⟩
  by_cases feed : '\n' ∈ gap
  · obtain ⟨line, later, rfl, free⟩ := List.eq_append_cons_of_mem feed
    have lineFree : '\n' ∉ c :: line := by simp [free, (inkNotFeed ink).symm]
    have first : lines (c :: (line ++ '\n' :: later)) = (c :: line) :: lines later := cutAtAppend lineFree later
    have solid : allBlank (c :: line) = false := by simp [allBlank, ink]
    have more : collapseLines (lines later) ≠ [] := collapseLinesNeNil (cutAtNeNil '\n' later)
    rw [collapseBlankRuns, first, collapseOther solid, unlines, joinWithCons _ more,
      List.cons_append] at collapsed
    rw [withinOfFeed breaks feed, ← (List.cons.inj collapsed).2]
    exact withinOfFeed breaks (by simp)
  · have free : '\n' ∉ c :: gap := by simp [feed, (inkNotFeed ink).symm]
    have alone : lines (c :: gap) = [c :: gap] := cutAtOfFree free
    rw [collapseBlankRuns, alone] at collapsed
    rw [(List.cons.inj collapsed).2]

namespace KeptPair
variable {script : Text} (pair : KeptPair script)

theorem gap (breaks : LineBreaks) :
    ∃ gap, pair.IsGap gap ∧ breaks.within gap = breaks.within (leftOf pair.between) := by
  have left : dropCalls script = leftOf pair.before ++
      (pair.first :: (leftOf pair.between ++ [pair.second]) ++ leftOf pair.after) := by
    rw [← leftOfPieces, pair.cut]
    simp [leftOfAppend, leftOfKept]
  obtain ⟨front, span, back, whole, before, after, held⟩ :=
    stripSpan left pair.firstInk pair.secondInk (List.cons_append ..).symm
  obtain ⟨gap, collapsed, between, even⟩ := collapseKeepsBreak breaks pair.firstInk (leftOf pair.between)
  rcases held with rfl | rfl
  · exact ⟨leftOf pair.between, ⟨front, back, by simp [whole], before.inked, rfl, after.inked⟩, rfl⟩
  · rw [← List.cons_append, collapseLast pair.secondInk, collapsed] at whole
    exact ⟨gap, ⟨front, back, by simp [whole], before.inked, between.inked, after.inked⟩, even⟩

end KeptPair

theorem leftOfSplit {pieces : List Piece} {front rest : Text} {c : Char} (cut : leftOf pieces = front ++ c :: rest) :
    ∃ before after, pieces = before ++ .kept c :: after ∧ leftOf before = front ∧ leftOf after = rest := by
  induction pieces generalizing front with
  | nil => simp [leftOf] at cut
  | cons piece pieces ih =>
    cases piece with
    | call call =>
      obtain ⟨before, after, rfl, rfl, rfl⟩ := ih cut
      exact ⟨.call call :: before, after, rfl, rfl, rfl⟩
    | kept d =>
      rw [leftOfKept] at cut
      cases front with
      | nil =>
        obtain ⟨rfl, rfl⟩ := List.cons.inj cut
        exact ⟨[], pieces, rfl, rfl, rfl⟩
      | cons e front =>
        obtain ⟨rfl, later⟩ := List.cons.inj cut
        obtain ⟨before, after, rfl, rfl, rfl⟩ := ih later
        exact ⟨.kept d :: before, after, rfl, rfl, rfl⟩

theorem dropBlanks (text : Text) : text.drop (blankLength text) = skipBlanks text := by
  have whole : text.takeWhile isBlank ++ text.dropWhile isBlank = text := List.takeWhile_append_dropWhile
  calc text.drop (blankLength text)
      = (text.takeWhile isBlank ++ text.dropWhile isBlank).drop (text.takeWhile isBlank).length := by
        rw [whole, blankLength]
    _ = skipBlanks text := List.drop_left

theorem dropTerminator (text : Text) : ∃ rest, text.drop (terminatorLength text) = skipBlanks rest := by
  unfold terminatorLength
  split
  · rename_i rest mark
    refine ⟨rest, ?_⟩
    rw [← List.drop_drop, dropBlanks, mark, Nat.add_comm 1, List.drop_succ_cons, dropBlanks]
  · exact ⟨text, dropBlanks text⟩

theorem callTakesBlanks {text : Text} {length : Nat} (found : callLength? text = some length) :
    ∃ rest, text.drop length = skipBlanks rest := by
  unfold callLength? at found
  simp only [bind, Option.bind_eq_some_iff] at found
  obtain ⟨behind, token, found⟩ := found
  split at found
  · rename_i group opens
    obtain ⟨inner, _, last⟩ := Option.bind_eq_some_iff.mp found
    obtain ⟨rest, ends⟩ := dropTerminator (group.drop inner)
    refine ⟨rest, ?_⟩
    have opening : behind.drop (blankLength behind + 1) = group := by
      rw [← List.drop_drop, dropBlanks, opens]
      rfl
    rw [← Option.some.inj last, ← List.isPrefixOf?_eq_some_iff_append_eq.mp token, Nat.add_assoc,
      Nat.add_assoc, Nat.add_assoc, ← List.drop_drop, List.drop_left, ← Nat.add_assoc, ← List.drop_drop,
      opening, ← List.drop_drop, ends]
  · cases found

theorem leftBehindCall {script : Text} {before after : List Piece} {call : Text}
    (cut : pieces script = before ++ .call call :: after) {c : Char} {rest : Text}
    (left : leftOf after = c :: rest) : isBlank c = false := by
  induction after generalizing before call with
  | nil => cases left
  | cons piece after ih =>
    cases piece with
    | call next =>
      have onward : pieces script = (before ++ [.call call]) ++ .call next :: after := by simpa using cut
      exact ih onward left
    | kept d =>
      obtain ⟨rfl, _⟩ := List.cons.inj left
      obtain ⟨behind, ends⟩ := callTakesBlanks (pieceCall cut)
      rw [List.drop_left] at ends
      exact skipBlanksHead ends.symm

section
variable {breaks : LineBreaks}

theorem inkNotBreak {c : Char} (ink : isBlank c = false) : breaks.holds c = false :=
  Bool.eq_false_iff.mpr fun holds => absurd (ink.symm.trans (breaks.blank c holds)) (by decide)

theorem lineSoFarBehind {front rest : Text} (free : breaks.within rest = false) :
    breaks.lineSoFar (front ++ rest) = breaks.lineSoFar front ++ rest := by
  have plain : ∀ c ∈ rest.reverse, (!breaks.holds c) = true := by
    simpa [LineBreaks.within] using free
  unfold LineBreaks.lineSoFar List.rtakeWhile
  rw [List.reverse_append, List.takeWhile_append_of_pos plain, List.reverse_append, List.reverse_reverse]

theorem breakTaken {pieces : List Piece} (parted : breaks.within (outerOf pieces) = true)
    (gone : breaks.within (leftOf pieces) = false) : ∃ before call after,
      pieces = before ++ .call call :: after ∧ breaks.within (Piece.call call).outer = true := by
  obtain ⟨c, mem, holds⟩ := List.any_eq_true.mp parted
  obtain ⟨piece, among, within⟩ := List.mem_flatMap.mp mem
  cases piece with
  | kept d =>
    obtain rfl := List.mem_singleton.mp within
    have left : c ∈ leftOf pieces := List.mem_flatMap.mpr ⟨_, among, List.mem_singleton.mpr rfl⟩
    exact absurd (gone.symm.trans (List.any_eq_true.mpr ⟨c, left, holds⟩)) (by decide)
  | call call =>
    obtain ⟨before, after, split⟩ := List.append_of_mem among
    exact ⟨before, call, after, split, List.any_eq_true.mpr ⟨c, within, holds⟩⟩

theorem apartIfBegins {script : Text} (begins : BeginsLines breaks script) : KeepsLinesApart breaks script := by
  intro pair parted
  obtain ⟨gap, isGap, even⟩ := pair.gap breaks
  refine ⟨gap, isGap, ?_⟩
  rw [even]
  cases gone : breaks.within (leftOf pair.between) with
  | true => rfl
  | false =>
    -- The line break went with a call, on whose line the first of the two stands before it.
    obtain ⟨before, call, after, split, broken⟩ := breakTaken parted gone
    have cut : pieces script = (pair.before ++ .kept pair.first :: before) ++
        .call call :: (after ++ .kept pair.second :: pair.after) := by
      rw [pair.cut, split]
      simp
    have behind : inked (leftOf (after ++ .kept pair.second :: pair.after)) ≠ [] := by
      simp [leftOfAppend, leftOfKept, inkedAppend, inkedCons pair.secondInk]
    have line := begins _ _ _ cut broken behind
    have free : breaks.within (pair.first :: leftOf before) = false := by
      rw [split, leftOfAppend, LineBreaks.within, List.any_append, Bool.or_eq_false_iff] at gone
      simpa [LineBreaks.within, inkNotBreak pair.firstInk] using gone.1
    rw [leftOfAppend, leftOfKept, lineSoFarBehind free, inkedAppend, inkedCons pair.firstInk] at line
    exact absurd line (by simp)

theorem lineSplit {text : Text} (some : inked (breaks.lineSoFar text) ≠ []) : ∃ front c rest,
    text = front ++ c :: rest ∧ isBlank c = false ∧ breaks.within rest = false := by
  obtain ⟨front, c, rest, split, ink⟩ := inkedSplit some
  have whole : text.rdropWhile (!breaks.holds ·) ++ breaks.lineSoFar text = text :=
    List.rdropWhile_append_rtakeWhile
  refine ⟨text.rdropWhile (!breaks.holds ·) ++ front, c, rest, by rw [List.append_assoc, ← split, whole], ink, ?_⟩
  rw [LineBreaks.within, List.any_eq_false]
  intro d mem holds
  have within : d ∈ breaks.lineSoFar text := by simp [split, mem]
  have free : (!breaks.holds d) = true := List.mem_rtakeWhile_imp (p := (!breaks.holds ·)) within
  simp [holds] at free

theorem beginsIfApart {script : Text} (apart : KeepsLinesApart breaks script) : BeginsLines breaks script := by
  intro before call after cut broken behind
  refine Decidable.byContradiction fun line => ?_
  obtain ⟨front, a, rest, leftBefore, firstInk, free⟩ := lineSplit line
  obtain ⟨before, between, rfl, _, rfl⟩ := leftOfSplit leftBefore
  obtain ⟨b, later, leftAfter⟩ := List.exists_cons_of_ne_nil
    fun (none : leftOf after = []) => behind (by rw [none]; rfl)
  have secondInk : isBlank b = false := leftBehindCall cut leftAfter
  obtain ⟨gone, after, rfl, nothing, _⟩ := leftOfSplit (leftAfter.trans (List.nil_append _).symm)
  let pair : KeptPair script := {
    before, first := a, between := between ++ .call call :: gone, second := b, after
    cut := by rw [cut]; simp
    firstInk, secondInk }
  have parted : breaks.within (outerOf pair.between) = true := by
    simp only [pair, outerOf, List.flatMap_append, List.flatMap_cons, LineBreaks.within, List.any_append] at broken ⊢
    simp [broken]
  have joined : breaks.within (leftOf pair.between) = false := by
    simpa only [pair, leftOfAppend, leftOfCall, nothing, List.append_nil] using free
  obtain ⟨gap, isGap, held⟩ := apart pair parted
  obtain ⟨gap', isGap', even⟩ := pair.gap breaks
  rw [pair.gapUnique isGap isGap', even, joined] at held
  cases held

end

theorem linesStayApartIff (breaks : LineBreaks) (script : Text) :
    KeepsLinesApart breaks script ↔ BeginsLines breaks script :=
  ⟨beginsIfApart, apartIfBegins⟩

/- A call behind a comment, and one behind a condition. -/
theorem nextLineJoins : ¬ KeepsLinesApart feeds "// console.log(1);\nx();".toList ∧
    ¬ KeepsLinesApart feeds "if (a) console.log(1);\nx();".toList := by
  constructor
  · intro apart
    have line := beginsIfApart apart (keptText "// ".toList) "console.log(1);\n".toList (keptText "x();".toList)
      (by decide +kernel) (by decide +kernel) (by decide +kernel)
    exact absurd line (by decide +kernel)
  · intro apart
    have line := beginsIfApart apart (keptText "if (a) ".toList) "console.log(1);\n".toList
      (keptText "x();".toList) (by decide +kernel) (by decide +kernel) (by decide +kernel)
    exact absurd line (by decide +kernel)

example : ¬ BeginsLines lineEnds "y() // console.log(1);\rx();".toList := by
  intro begins
  have line := begins (keptText "y() // ".toList) "console.log(1);\r".toList (keptText "x();".toList)
    (by decide +kernel) (by decide +kernel) (by decide +kernel)
  exact absurd line (by decide +kernel)

end SourceSweep.Script
