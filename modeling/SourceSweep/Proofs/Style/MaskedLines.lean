import SourceSweep.Proofs.Style.Masked

/-! Two prunings side by side, of a stylesheet and of its masked copy. Braces are counted and rules are
read wherever they stand; the same lines stay of both where the masked characters do not matter to either. -/
namespace SourceSweep.Style
open Text

/-- A stylesheet read to a line, with its masked copy: the blocks open in each, and whether they are the
block of a rule that pruning asked about. -/
structure Beside where
  zone : Zone
  depth : Int
  depthMasked : Int
  inRule : Bool

namespace Beside

def start : Beside := ⟨.code, 0, 0, false⟩

variable (beside : Beside) (line masked : Text)

def asks : Bool :=
  beside.depth = 0 && (ruleClass? line).isSome || beside.depthMasked = 0 && (ruleClass? masked).isSome

def within : Bool := beside.asks line masked || beside.inRule && beside.depth ≠ 0

def next : Beside :=
  ⟨beside.zone.behindLine line, depthAfter beside.depth line, depthAfter beside.depthMasked masked,
    beside.within line masked⟩

def agrees : Bool :=
  (!beside.asks line masked ||
    beside.depth = beside.depthMasked && beside.zone.isCode && masked.count '{' = line.count '{') &&
  (!beside.within line masked || braceBalance masked = braceBalance line)

end Beside

/-- Whether the masked characters are no matter to pruning. A line outside all blocks that reads as the
first one of a rule, masked or not, is outside all blocks masked and not, begins in code and has no brace
masked; on the lines of such a rule the masked characters open as many braces as they close. -/
def isHarmless : Beside → List Text → List Text → Bool
  | beside, line :: rest, masked :: rest' =>
    beside.agrees line masked && isHarmless (beside.next line masked) rest rest'
  | _, _, _ => true

inductive MaskedLines : Zone → List Text → List Text → Prop where
  | nil {zone} : MaskedLines zone [] []
  | cons {zone line masked rest rest'} (here : isMasked zone line masked = true)
      (later : MaskedLines (zone.behindLine line) rest rest') :
      MaskedLines zone (line :: rest) (masked :: rest')

theorem hidesOnLine (zone : Zone) (c : Char) (rest : Text) :
    zone.hides c (firstLine rest).head? = zone.hides c rest.head? := by
  cases rest with
  | nil => rfl
  | cons d rest =>
    by_cases feed : d = '\n'
    · subst feed
      exact (Zone.hidesAtEnd zone c).symm
    · obtain ⟨piece, pieces, cut⟩ := List.exists_cons_of_ne_nil (cutAtNeNil '\n' rest)
      simp [firstLine, lines, cutAtOther feed cut]

theorem maskedLines {zone : Zone} {css masked : Text} (mask : isMasked zone css masked = true) :
    MaskedLines zone (lines css) (lines masked) := by
  induction css generalizing zone masked with
  | nil =>
    cases masked with
    | nil => exact .cons rfl .nil
    | cons d masked => cases mask
  | cons c rest ih =>
    obtain ⟨d, rest', rfl, here, onward⟩ := maskedCons mask
    have later := ih onward
    by_cases feed : c = '\n'
    · subst feed
      obtain rfl : d = '\n' := by
        cases here with
        | stays => rfl
        | letter _ within => cases within
      exact .cons rfl later
    · have feed' : d ≠ '\n' := by
        cases here with
        | stays => exact feed
        | letter _ _ word => exact fun same => absurd (same ▸ word) (by decide)
      have hides := hidesOnLine zone c rest
      obtain ⟨piece, pieces, cut⟩ := List.exists_cons_of_ne_nil (cutAtNeNil '\n' rest)
      obtain ⟨piece', pieces', cut'⟩ := List.exists_cons_of_ne_nil (cutAtNeNil '\n' rest')
      rw [show firstLine rest = piece by simp [firstLine, lines, cut]] at hides
      rw [lines, lines, cut, cut'] at later
      cases later with
      | cons first others =>
        rw [lines, lines, cutAtOther feed cut, cutAtOther feed' cut']
        refine .cons ?_ others
        rw [isMasked, hides, first, Bool.and_true]
        exact (Bool.and_eq_true_iff.mp mask).1

theorem maskedRule {zone : Zone} (inCode : zone.isCode = true) {line masked : Text}
    (mask : isMasked zone line masked = true) (opens : masked.count '{' = line.count '{')
    (even : braceBalance masked = braceBalance line) : ruleClass? masked = ruleClass? line := by
  have closes := braceCounts even opens
  have same : ∀ (rule : RuleLine) (tail tail' : Text), line = (rule.selector ++ ['{']) ++ tail →
      masked = (rule.selector ++ ['{']) ++ tail' →
      isMasked ((rule.selector ++ ['{']).foldl Zone.after zone) tail tail' = true →
      ruleClass? masked = ruleClass? line := by
    rintro rule tail tail' rfl rfl mask
    simp only [List.count_append, Nat.add_left_cancel_iff] at opens closes
    rw [List.append_assoc, List.append_assoc, List.singleton_append, List.singleton_append, rule.readTo,
      rule.readTo, maskedBodyEnd mask opens closes]
  have split : ∀ rule : RuleLine,
      rule.text = (rule.selector ++ ['{']) ++ (rule.body ++ rule.ending) := fun rule => by
    simp [RuleLine.text]
  cases read : ruleClass? line with
  | some name =>
    obtain ⟨rule, rfl, _⟩ := ruleLineOf read
    rw [split] at mask
    obtain ⟨tail', rfl, behind⟩ := maskedFront inCode (selectorStaysCode rule) mask
    rw [← read]
    exact same rule _ tail' (split rule) rfl behind
  | none =>
    cases read' : ruleClass? masked with
    | none => rfl
    | some name =>
      obtain ⟨rule, rfl, _⟩ := ruleLineOf read'
      rw [split] at mask
      obtain ⟨tail, rfl, behind⟩ := maskedFrontBack inCode (selectorStaysCode rule) mask
      rw [← read, ← read']
      exact same rule tail _ rfl (split rule) behind

theorem maskedLast {zone : Zone} {line masked : Text} (mask : isMasked zone line masked = true)
    (ends : (line.foldl Zone.after zone).isCode = true) :
    (inked masked).getLast? = (inked line).getLast? := by
  induction line generalizing zone masked with
  | nil =>
    cases masked with
    | nil => rfl
    | cons d masked => cases mask
  | cons c rest ih =>
    obtain ⟨d, rest', rfl, here, later⟩ := maskedCons mask
    have last := ih later ends
    have split : ∀ (e : Char) (text : Text), inked (e :: text) = inked [e] ++ inked text := fun e text =>
      inkedAppend [e] text
    rw [split c, split d, List.getLast?_append, List.getLast?_append, last]
    cases here with
    | stays => rfl
    | letter hidden =>
      -- Behind a masked character something must lead back to code, and it is no blank.
      have ink : inked rest ≠ [] := fun none => by
        have blank : allBlank rest = true := by
          simpa [inked, allBlank] using none
        rw [List.foldl_cons, blanksKeepZone _ blank, (Zone.hidesNotCode hidden).2] at ends
        cases ends
      rw [List.getLast?_eq_some_getLast ink]
      rfl

theorem blankIffNoLast (line : Text) : allBlank line = ((inked line).getLast? = none : Bool) := by
  rw [Bool.eq_iff_iff]
  simp [inked, allBlank]

structure Alike (beside : Beside) (plain masked : Pruning) : Prop where
  places : ∃ dropping, plain.place = .at beside.depth dropping ∧
    masked.place = .at beside.depthMasked dropping ∧ (dropping = true → beside.inRule = true) ∧
    (beside.zone.isCode = true ∨ dropping = true → continuesList masked.kept = continuesList plain.kept)
  even : beside.inRule = true → beside.depthMasked = beside.depth

theorem alikeStart : Alike .start .start .start where
  places := ⟨false, rfl, rfl, (nomatch ·), fun _ => rfl⟩
  even := fun _ => rfl

theorem Beside.asked {beside : Beside} {line masked : Text} (agrees : beside.agrees line masked = true)
    (asks : beside.asks line masked = true) :
    beside.depth = 0 ∧ beside.depthMasked = 0 ∧ beside.zone.isCode = true ∧
      masked.count '{' = line.count '{' ∧ braceBalance masked = braceBalance line := by
  simp only [Beside.agrees, within, asks, Bool.not_true, Bool.false_or, Bool.true_or, Bool.and_eq_true,
    decide_eq_true_eq] at agrees
  obtain ⟨⟨⟨same, inCode⟩, opens⟩, even⟩ := agrees
  simp only [Beside.asks, Bool.or_eq_true, Bool.and_eq_true, decide_eq_true_eq] at asks
  have outside : beside.depth = 0 := by omega
  exact ⟨outside, same ▸ outside, inCode, opens, even⟩

theorem Beside.unasked {beside : Beside} {line masked : Text} (quiet : beside.asks line masked = false)
    (used : Text → Bool) : (beside.depth = 0 → asksUnused used line = false) ∧
      (beside.depthMasked = 0 → asksUnused used masked = false) := by
  simp only [asks, Bool.or_eq_false_iff, Bool.and_eq_false_iff, decide_eq_false_iff_not,
    Option.isSome_eq_false_iff, Option.isNone_iff_eq_none] at quiet
  refine ⟨fun outside => ?_, fun outside => ?_⟩
  · simp [asksUnused, quiet.1.resolve_left (not_not_intro outside)]
  · simp [asksUnused, quiet.2.resolve_left (not_not_intro outside)]

section
variable {beside : Beside} {plain copy : Pruning} (alike : Alike beside plain copy) {line masked : Text}
  (used : Text → Bool)
include alike

theorem Alike.asksIfDrops (drops : plain.drops used line = true) :
    beside.depth = 0 ∧ beside.asks line masked = true ∨ beside.depth ≠ 0 ∧ beside.inRule = true := by
  obtain ⟨dropping, place, _, inRule, _⟩ := alike.places
  rw [dropsAt place] at drops
  by_cases outside : beside.depth = 0
  · simp only [if_pos outside, Bool.and_eq_true] at drops
    refine .inl ⟨outside, Bool.of_not_eq_false fun quiet => ?_⟩
    exact absurd (drops.1.symm.trans ((Beside.unasked quiet used).1 outside)) (by decide)
  · rw [if_neg outside] at drops
    exact .inr ⟨outside, inRule drops⟩

variable (mask : isMasked beside.zone line masked = true) (agrees : beside.agrees line masked = true)
include mask agrees

theorem Alike.drops : copy.drops used masked = plain.drops used line := by
  obtain ⟨dropping, place, place', inRule, lists⟩ := alike.places
  rw [dropsAt place, dropsAt place']
  cases asks : beside.asks line masked with
  | true =>
    obtain ⟨outside, outside', inCode, opens, even⟩ := Beside.asked agrees asks
    rw [if_pos outside, if_pos outside', asksUnused, maskedRule inCode mask opens even,
      lists (.inl inCode), asksUnused]
  | false =>
    obtain ⟨quiet, quiet'⟩ := Beside.unasked asks used
    by_cases outside : beside.depth = 0 <;> by_cases outside' : beside.depthMasked = 0
    · simp [outside, outside', quiet outside, quiet' outside']
    · -- In the block of a rule that was asked about both are as deep.
      have plain : dropping = false := Bool.eq_false_iff.mpr fun drops =>
        outside' ((alike.even (inRule drops)).trans outside)
      simp [outside, outside', quiet outside, plain]
    · have plain : dropping = false := Bool.eq_false_iff.mpr fun drops =>
        outside ((alike.even (inRule drops)).symm.trans outside')
      simp [outside, outside', quiet' outside', plain]
    · simp [outside, outside']

theorem Alike.lists (seen : (beside.zone.behindLine line).isCode = true ∨ plain.drops used line = true) :
    continuesList (copy.step used masked).kept = continuesList (plain.step used line).kept := by
  rw [stepEq, stepEq, alike.drops used mask agrees]
  obtain ⟨dropping, place, _, _, before⟩ := alike.places
  cases drops : plain.drops used line with
  | true =>
    refine before ?_
    rcases alike.asksIfDrops used drops with ⟨_, asks⟩ | ⟨inside, _⟩
    · exact .inl (Beside.asked agrees asks).2.2.1
    · rw [dropsAt place, if_neg inside] at drops
      exact .inr drops
  | false =>
    have ends : (line.foldl Zone.after beside.zone).isCode = true := by
      have ends : (beside.zone.behindLine line).isCode = true := seen.resolve_right (by simp [drops])
      rwa [Zone.behindLine, blankKeepsZone _ (by decide)] at ends
    have last := maskedLast mask ends
    simp only [Bool.false_eq_true, if_false, continuesListCons, blankIffNoLast, trimEndLast, last]
    split
    · rename_i none
      have blank : allBlank line = true := by rwa [blankIffNoLast]
      rw [blanksKeepZone _ blank] at ends
      exact before (.inl ends)
    · rfl

theorem Alike.step : Alike (beside.next line masked) (plain.step used line) (copy.step used masked) where
  places := by
    have same := alike.drops used mask agrees
    have lists := alike.lists used mask agrees
    have asks : plain.drops used line = true → beside.depth = 0 ∧ beside.asks line masked = true ∨
        beside.depth ≠ 0 ∧ beside.inRule = true := alike.asksIfDrops used
    obtain ⟨dropping, place, place', _, _⟩ := alike.places
    refine ⟨plain.drops used line, ?_, ?_, fun drops => ?_, lists⟩
    · rw [stepEq, place, placeAtDepth]
      rfl
    · rw [stepEq, place', placeAtDepth, same]
      rfl
    · show beside.within line masked = true
      rcases asks drops with ⟨_, asks⟩ | ⟨inside, inRule⟩
      · simp [Beside.within, asks]
      · simp [Beside.within, inside, inRule]
  even within := by
    have even : braceBalance masked = braceBalance line := by
      have within : beside.within line masked = true := within
      simp only [Beside.agrees, within, Bool.not_true, Bool.false_or, Bool.and_eq_true,
        decide_eq_true_eq] at agrees
      exact agrees.2
    have level : beside.depthMasked = beside.depth := by
      cases asks : beside.asks line masked with
      | true =>
        obtain ⟨outside, outside', _⟩ := Beside.asked agrees asks
        rw [outside, outside']
      | false =>
        refine alike.even ?_
        have within : beside.within line masked = true := within
        simp only [Beside.within, asks, Bool.false_or, Bool.and_eq_true] at within
        exact within.1
    show depthAfter beside.depthMasked masked = depthAfter beside.depth line
    rw [depthAfter, depthAfter, level, even]

end

theorem Alike.flags {beside : Beside} {plain copy : Pruning} (alike : Alike beside plain copy)
    {rest rest' : List Text} (masked : MaskedLines beside.zone rest rest')
    (harmless : isHarmless beside rest rest' = true) (used : Text → Bool) :
    keptFlags used copy rest' = keptFlags used plain rest := by
  induction rest generalizing beside plain copy rest' with
  | nil =>
    cases masked
    rfl
  | cons line rest ih =>
    cases masked with
    | cons here later =>
      obtain ⟨agrees, onward⟩ := Bool.and_eq_true_iff.mp harmless
      rw [keptFlags, keptFlags, keepsEq, keepsEq, alike.drops used here agrees,
        ih (alike.step used here agrees) later onward]

def zoneBehind (zone : Zone) (before : List Text) : Zone := before.foldl Zone.behindLine zone

theorem flagsAt (used : Text → Bool) (state : Pruning) (before : List Text) (line : Text)
    (rest : List Text) : (keptFlags used state (before ++ line :: rest))[before.length]? =
      some ((before.foldl (Pruning.step used) state).keeps used line) := by
  induction before generalizing state with
  | nil => rfl
  | cons first before ih => exact ih (state.step used first)

theorem harmlessBehind {beside : Beside} {before rest masked : List Text} {line : Text}
    (covers : MaskedLines beside.zone (before ++ line :: rest) masked)
    (harmless : isHarmless beside (before ++ line :: rest) masked = true) :
    ∃ behind : Beside, ∃ line', behind.depth = before.foldl depthAfter beside.depth ∧
      behind.zone = zoneBehind beside.zone before ∧ behind.agrees line line' = true := by
  induction before generalizing beside masked with
  | nil =>
    cases covers with
    | cons here later => exact ⟨beside, _, rfl, rfl, (Bool.and_eq_true_iff.mp harmless).1⟩
  | cons first before ih =>
    cases covers with
    | cons here later => exact ih later (Bool.and_eq_true_iff.mp harmless).2

theorem hiddenLineStays {css masked : Text} (mask : isMasked .code css masked = true)
    (harmless : isHarmless .start (lines css) (lines masked) = true) (used : Text → Bool)
    {before rest : List Text} {line : Text} (cut : lines css = before ++ line :: rest)
    (outside : before.foldl depthAfter 0 = 0) (hidden : (zoneBehind .code before).isCode = false) :
    staysAt used css before.length = true := by
  have covers := maskedLines mask
  rw [cut] at covers harmless
  obtain ⟨behind, line', depth, zone, agrees⟩ := harmlessBehind covers harmless
  obtain ⟨dropping, place⟩ := foldPlace used (show Pruning.start.place = .at 0 false from rfl) before
  have none : behind.depth = 0 := depth.trans outside
  have quiet : behind.asks line line' = false := Bool.eq_false_iff.mpr fun asks => by
    have inCode := (Beside.asked agrees asks).2.2.1
    rw [zone] at inCode
    exact absurd (hidden.symm.trans inCode) (by decide)
  rw [outside] at place
  rw [staysAt, cut, flagsAt, keepsEq, dropsAt place, if_pos rfl, (Beside.unasked quiet used).1 none]
  rfl

/- What comments and literals hold is no matter to pruning where its masking is harmless, and a line
that begins in one outside all blocks stays. -/
theorem maskedLinesStay {css masked : Text} (mask : isMasked .code css masked = true)
    (harmless : isHarmless .start (lines css) (lines masked) = true) (used : Text → Bool) :
    (∀ place, staysAt used masked place = staysAt used css place) ∧
      ∀ before line rest, lines css = before ++ line :: rest → before.foldl depthAfter 0 = 0 →
        (zoneBehind .code before).isCode = false → staysAt used css before.length = true := by
  refine ⟨fun place => ?_, fun before line rest cut outside hidden => ?_⟩
  · rw [staysAt, staysAt, alikeStart.flags (maskedLines mask) harmless used]
  · exact hiddenLineStays mask harmless used cut outside hidden

def quietSheet : Text :=
  "/*\n.old, x\n*/\n.new \x7b\n  content: '\x7b\x7d';\n\x7d\n/* .btn \x7b color: red; \x7d */\n".toList

def quietMask : Text :=
  "/*\naaaaaaa\n*/\n.new \x7b\n  content: 'aa';\n\x7d\n/*aaaaaaaaaaaaaaaaaaaaaa*/\n".toList

theorem quietSheetStays : isMasked .code quietSheet quietMask = true ∧
    isHarmless .start (lines quietSheet) (lines quietMask) = true ∧
    (∀ place, staysAt (fun _ => false) quietMask place = staysAt (fun _ => false) quietSheet place) ∧
    staysAt (fun _ => false) quietSheet 1 = true := by
  have mask : isMasked .code quietSheet quietMask = true := by decide +kernel
  have harmless : isHarmless .start (lines quietSheet) (lines quietMask) = true := by decide +kernel
  have cut : lines quietSheet = ["/*".toList] ++ ".old, x".toList :: (lines quietSheet).drop 2 := by
    decide +kernel
  obtain ⟨same, stays⟩ := maskedLinesStay mask harmless (fun _ => false)
  exact ⟨mask, harmless, same, stays _ _ _ cut (by decide +kernel) (by decide +kernel)⟩

def bracedString : Text := ".old \x7b\n  content: '\x7d';\n  color: red;\n\x7d\n".toList

def bracedStringMask : Text := ".old \x7b\n  content: 'a';\n  color: red;\n\x7d\n".toList

def commentedRule : Text := "/*\n.old \x7b\n  a: b;\n\x7d\n*/\n".toList

def commentedRuleMask : Text := "/*\naaaaaa\naaaaaaa\na\n*/\n".toList

/- A brace in a literal ends a block that goes, and a rule in a comment goes as if it were none. -/
theorem maskedLinesDiffer :
    isMasked .code bracedString bracedStringMask = true ∧
      staysAt (fun _ => false) bracedStringMask 2 = false ∧ staysAt (fun _ => false) bracedString 2 = true ∧
    isMasked .code commentedRule commentedRuleMask = true ∧
      staysAt (fun _ => false) commentedRuleMask 1 = true ∧
      staysAt (fun _ => false) commentedRule 1 = false := by
  decide +kernel

end SourceSweep.Style
