import SourceSweep.Proofs.Style.Blocks
import SourceSweep.Proofs.Style.KeptLines

/-! Lines of a stylesheet that stay one after another, because none of those that begin outside all
blocks is taken for the first of an unused class's rule. -/
namespace SourceSweep.Style
open Text

def isUnusedClass (used : Text → Bool) (text : Text) : Bool :=
  match trim text with
  | '.' :: name => isClassName name && !used name
  | _ => false

theorem asksUnusedLine {used : Text → Bool} {line : Text} (asks : asksUnused used line = true) :
    ∃ rule : RuleLine, rule.text = line ∧ used rule.name = false := by
  obtain ⟨name, read, unused⟩ := (Option.any_eq_true _ _).mp asks
  obtain ⟨rule, text, named⟩ := ruleLineOf read
  exact ⟨rule, text, by simpa [named] using unused⟩

theorem RuleLine.selectorTrim (line : RuleLine) : trim line.selector = '.' :: line.name := by
  have dot : skipBlanks ('.' :: line.name ++ line.inner) = '.' :: line.name ++ line.inner := rfl
  rw [trim, selector, List.append_assoc, skipBlanksBehind line.gapBlank, dot]
  refine trimEndBefore line.innerBlank ((Option.all_eq_true _ _).mpr fun c last => ?_)
  rcases List.mem_cons.mp (List.mem_of_getLast? last) with rfl | mem
  · decide
  · simp [nameNotBlank (nameChar line.named mem)]

theorem RuleLine.unusedClass {used : Text → Bool} (line : RuleLine) (unused : used line.name = false) :
    isUnusedClass used line.selector = true := by
  simp [isUnusedClass, line.selectorTrim, line.named, unused]

theorem opensSelector {used : Text → Bool} {front rest : Text}
    (asks : asksUnused used (front ++ '{' :: rest) = true) :
    ∃ rule : RuleLine, rule.selector = front ∧ used rule.name = false := by
  obtain ⟨rule, text, unused⟩ := asksUnusedLine asks
  have selector : '{' ∉ rule.selector := (braceFree rule.selectorPlain).1
  have ending : '{' ∉ rule.ending := by
    cases closes : rule.closed with
    | none => simp [RuleLine.ending, closes]
    | some tail => simp [RuleLine.ending, closes, (braceFree (rule.endingPlain closes)).1]
  have behind : '{' ∉ rule.body ++ rule.ending := by simp [ending, (braceFree rule.plain).1]
  rw [RuleLine.text, List.append_assoc, List.cons_append] at text
  exact ⟨rule, ((List.append_cons_inj_of_notMem selector behind).mp text).1, unused⟩

theorem quietOfNoBrace {line : Text} (free : '{' ∉ line) (used : Text → Bool) :
    asksUnused used line = false := by
  refine Bool.eq_false_iff.mpr fun asks => ?_
  obtain ⟨rule, rfl, _⟩ := asksUnusedLine asks
  exact free (by simp [RuleLine.text])

/- What stands before a selector on its line has closed its blocks there, so that the line is no
rule's: behind the end of one only blanks follow. -/
theorem quietOfBalanced {head rest : Text} {c : Char} (balanced : isBalanced head = true)
    (ink : isBlank c = false) (plain : (c :: rest).all notBrace = true) (used : Text → Bool) :
    asksUnused used (head ++ c :: rest) = false := by
  refine Bool.eq_false_iff.mpr fun asks => ?_
  obtain ⟨rule, text, _⟩ := asksUnusedLine asks
  have ends : openBehind? 0 head = some 0 := by simpa [isBalanced] using balanced
  have closed : braceBalance rule.text = 0 := by
    rw [text, braceBalanceAppend, braceBalanceFree plain]
    have := openBehindBalance ends
    omega
  rw [rule.balance] at closed
  cases closes : rule.closed with
  | none => simp [closes] at closed
  | some tail =>
    have noClose := (braceFree plain).2
    rw [RuleLine.text, RuleLine.ending, closes] at text
    rcases List.append_eq_append_iff.mp text with ⟨front, _, same⟩ | ⟨front, _, same⟩
    · cases front with
      | nil => exact noClose ((List.cons.inj same).1 ▸ List.mem_cons_self)
      | cons d front =>
        have blank : allBlank tail = true := by simpa [closes] using rule.closedBlank
        have mem : c ∈ tail := by rw [(List.cons.inj same).2]; simp
        exact absurd (ink.symm.trans (List.all_eq_true.mp blank c mem)) (by decide)
    · exact noClose (by rw [same]; simp)

theorem endsInCommaEq (kept : List Text) :
    endsInComma kept = decide ((inked kept.flatten).getLast? = some ',') := by
  induction kept using List.reverseRecOn with
  | nil => rfl
  | append_singleton kept line ih =>
    rw [List.flatten_append, inkedAppend, List.flatten_singleton]
    cases blank : allBlank line with
    | true =>
      rw [inkedBlank blank, List.append_nil, ← ih]
      simp [endsInComma, blank]
    | false =>
      obtain ⟨c, mem, ink⟩ : ∃ c ∈ line, isBlank c = false := by simpa [allBlank] using blank
      have some : inked line ≠ [] :=
        List.ne_nil_of_mem (List.mem_filter.mpr ⟨mem, by simp [ink]⟩ : c ∈ inked line)
      rw [List.getLast?_append_of_ne_nil _ some, ← trimEndLast]
      simp [endsInComma, blank]

theorem endsInCommaBehind {lines : List Text} (comma : endsInComma lines = true) {kept : List Text}
    {front : Text} (cut : kept.flatten = front ++ lines.flatten) : endsInComma kept = true := by
  rw [endsInCommaEq, decide_eq_true_eq] at comma ⊢
  rw [cut, inkedAppend, List.getLast?_append, comma]
  rfl

def Stays (used : Text → Bool) : (kept : List Text) → (depth : Int) → List Text → Prop
  | _, _, [] => True
  | kept, depth, line :: rest =>
    (depth = 0 → asksUnused used line = true → endsInComma kept = true) ∧
      Stays used (kept ++ [line]) (depthAfter depth line) rest

theorem flaggedSublist (flags : List Bool) (rest : List Text) : (flagged flags rest).Sublist rest := by
  induction rest generalizing flags with
  | nil => cases flags <;> exact List.Sublist.slnil
  | cons line rest ih =>
    cases flags with
    | nil => exact List.nil_sublist _
    | cons flag flags =>
      cases flag with
      | true => exact (ih flags).cons_cons line
      | false => exact (ih flags).cons line

theorem foldPlace (used : Text → Bool) {state : Pruning} {depth : Int} {dropping : Bool}
    (place : state.place = .at depth dropping) (rest : List Text) :
    ∃ dropping', (rest.foldl (Pruning.step used) state).place =
      .at (rest.foldl depthAfter depth) dropping' := by
  induction rest generalizing state depth dropping with
  | nil => exact ⟨dropping, place⟩
  | cons line rest ih =>
    rw [List.foldl_cons, List.foldl_cons]
    have next : (state.step used line).place = .at (depthAfter depth line) (state.drops used line) := by
      rw [stepEq, place, placeAtDepth]
    exact ih next

theorem foldStays {used : Text → Bool} {kept : List Text} {depth : Int} {rest : List Text}
    (stays : Stays used kept.reverse depth rest) :
    (rest.foldl (Pruning.step used) ⟨kept, .at depth false⟩).kept.reverse = kept.reverse ++ rest := by
  induction rest generalizing kept depth with
  | nil => rw [List.foldl_nil, List.append_nil]
  | cons line rest ih =>
    obtain ⟨here, later⟩ := stays
    have drops : Pruning.drops used ⟨kept, .at depth false⟩ line = false := by
      rw [dropsAt rfl]
      by_cases outside : depth = 0
      · rw [if_pos outside, continuesListIff]
        cases asks : asksUnused used line with
        | false => rfl
        | true => simp [here outside asks]
      · exact if_neg outside
    rw [← List.reverse_cons] at later
    have next := ih later
    rw [List.foldl_cons, stepEq, drops, placeAtDepth]
    simpa using next

theorem staysAppend {used : Text → Bool} {kept : List Text} {depth : Int} {front rest : List Text}
    (first : Stays used kept depth front)
    (later : Stays used (kept ++ front) (front.foldl depthAfter depth) rest) :
    Stays used kept depth (front ++ rest) := by
  induction front generalizing kept depth with
  | nil => simpa using later
  | cons line front ih => exact ⟨first.1, ih first.2 (by simpa using later)⟩

def StaysOpen : (depth : Int) → List Text → Prop
  | depth, line :: next :: rest => 0 < depthAfter depth line ∧ StaysOpen (depthAfter depth line) (next :: rest)
  | _, _ => True

theorem staysOfOpen {used : Text → Bool} {depth : Int} {line : Text} {rest : List Text}
    (isOpen : StaysOpen depth (line :: rest)) {kept : List Text}
    (first : depth = 0 → asksUnused used line = true → endsInComma kept = true) :
    Stays used kept depth (line :: rest) := by
  induction rest generalizing kept depth line with
  | nil => exact ⟨first, trivial⟩
  | cons next rest ih =>
    obtain ⟨some, later⟩ := isOpen
    exact ⟨first, ih later fun none => absurd none (by omega)⟩

theorem StaysOpen.front {depth : Int} {first rest : List Text} (isOpen : StaysOpen depth (first ++ rest)) :
    StaysOpen depth first := by
  induction first generalizing depth with
  | nil => trivial
  | cons line first ih =>
    cases first with
    | nil => trivial
    | cons next first => exact ⟨isOpen.1, ih isOpen.2⟩

theorem plainDepth {line : Text} (plain : line.all notBrace = true) : depthAfter 0 line = 0 :=
  depthAfterClosed (by rw [braceBalanceFree plain]; exact Int.le_refl 0)

theorem staysPlain {used : Text → Bool} {front : List Text}
    (plain : ∀ line ∈ front, line.all notBrace = true) {kept rest : List Text}
    (later : Stays used (kept ++ front) 0 rest) : Stays used kept 0 (front ++ rest) := by
  induction front generalizing kept with
  | nil => simpa using later
  | cons line front ih =>
    have here := plain line List.mem_cons_self
    refine ⟨fun _ asks => ?_, ?_⟩
    · rw [quietOfNoBrace (braceFree here).1] at asks
      cases asks
    · rw [plainDepth here]
      exact ih (fun other mem => plain other (List.mem_cons_of_mem line mem)) (by simpa using later)

theorem lastChunk {depth : Int} {pieces chunk : List Text} {front : List (List Text)}
    (cut : chunksFrom depth pieces = front ++ [chunk]) :
    chunk ≠ [] ∧ StaysOpen (front.flatten.foldl depthAfter depth) chunk ∧
      (front ≠ [] → front.flatten.foldl depthAfter depth = 0 ∧ chunksFrom depth front.flatten = front) := by
  induction pieces generalizing depth chunk front with
  | nil => simp [chunksFrom] at cut
  | cons line rest ih =>
    rw [chunksFrom] at cut
    split at cut
    · rename_i ends
      cases front with
      | nil =>
        obtain ⟨rfl, _⟩ := List.cons.inj cut
        exact ⟨List.cons_ne_nil line [], trivial, fun some => absurd rfl some⟩
      | cons first front =>
        obtain ⟨rfl, later⟩ := List.cons.inj cut
        obtain ⟨filled, isOpen, closed⟩ := ih later
        rw [List.flatten_cons, List.singleton_append, List.foldl_cons, chunksFrom, if_pos ends, ends]
        refine ⟨filled, isOpen, fun _ => ?_⟩
        cases front with
        | nil => exact ⟨rfl, rfl⟩
        | cons second front =>
          obtain ⟨none, same⟩ := closed (List.cons_ne_nil second front)
          exact ⟨none, congrArg ([line] :: ·) same⟩
    · rename_i more
      have some : 0 < depthAfter depth line := by have := depthAfterNonneg depth line; omega
      cases inner : chunksFrom (depthAfter depth line) rest with
      | nil =>
        rw [inner] at cut
        obtain ⟨rfl, rfl⟩ : front = [] ∧ chunk = [line] := by
          simpa [List.singleton_eq_append_iff] using cut
        exact ⟨List.cons_ne_nil line [], trivial, fun some => absurd rfl some⟩
      | cons first later =>
        rw [inner] at cut
        cases front with
        | nil =>
          obtain ⟨rfl, rfl⟩ := List.cons.inj cut
          obtain ⟨_, isOpen, _⟩ := ih (inner.trans (List.nil_append _).symm)
          refine ⟨List.cons_ne_nil line first, ?_, fun some => absurd rfl some⟩
          cases first with
          | nil => trivial
          | cons next first => exact ⟨some, isOpen⟩
        | cons second front =>
          obtain ⟨rfl, same⟩ := List.cons.inj cut
          have begun : chunksFrom (depthAfter depth line) rest = (first :: front) ++ [chunk] := by
            rw [inner, same]
            rfl
          obtain ⟨filled, isOpen, closed⟩ := ih begun
          obtain ⟨none, whole⟩ := closed (List.cons_ne_nil first front)
          refine ⟨filled, isOpen, fun _ => ⟨none, ?_⟩⟩
          rw [List.flatten_cons, List.cons_append, ← List.flatten_cons, chunksFrom, if_neg more, whole]

theorem depthThrough {before after : Nat} {front : List Text}
    (ends : openBehind? before (ended front) = some after) : front.foldl depthAfter before = after := by
  induction front generalizing before with
  | nil => cases ends; rfl
  | cons line front ih =>
    rw [endedCons, show line ++ '\n' :: ended front = (line ++ ['\n']) ++ ended front by simp,
      openBehindAppend] at ends
    obtain ⟨depth, here, ends⟩ := Option.bind_eq_some_iff.mp ends
    have balance := openBehindBalance here
    rw [braceBalanceAppend, show braceBalance ['\n'] = 0 from rfl, Int.add_zero] at balance
    rw [List.foldl_cons, depthAfterOpen (by omega), ← balance, ih ends]

theorem staysOpenOf {before : Nat} {pieces : List Text}
    (inner : ∀ front rest, pieces = front ++ rest → front ≠ [] → rest ≠ [] →
      ∃ depth, openBehind? before (ended front) = some depth ∧ 0 < depth) : StaysOpen before pieces := by
  induction pieces generalizing before with
  | nil => trivial
  | cons line rest ih =>
    cases rest with
    | nil => trivial
    | cons next rest =>
      obtain ⟨depth, here, some⟩ := inner [line] (next :: rest) rfl (by simp) (by simp)
      have through : depthAfter before line = depth := depthThrough here
      rw [StaysOpen, through]
      refine ⟨by omega, ih fun front rest' cut filled more => ?_⟩
      obtain ⟨depth', there, some'⟩ := inner (line :: front) rest' (by rw [cut]; rfl) (by simp) more
      rw [show line :: front = [line] ++ front from rfl, endedAppend, openBehindAppend, here] at there
      exact ⟨depth', there, some'⟩

theorem pruneStays {used : Text → Bool} {css : Text} {before stay later : List Text}
    (cut : lines css = before ++ (stay ++ later)) (closed : before.foldl depthAfter 0 = 0)
    (stays : Stays used (keptChunks used [] (chunksFrom 0 before)).flatten 0 stay) :
    ∃ after, after.Sublist later ∧ prune used css =
      unlines ((keptChunks used [] (chunksFrom 0 before)).flatten ++ (stay ++ after)) := by
  obtain ⟨dropping, place⟩ := foldPlace used (show Pruning.start.place = .at 0 false from rfl) before
  have start : (before.foldl (Pruning.step used) .start).kept.reverse =
      (keptChunks used [] (chunksFrom 0 before)).flatten := foldOutcome used .start before
  rw [closed] at place
  generalize fold : before.foldl (Pruning.step used) .start = state at place start
  obtain ⟨kept, _⟩ := state
  cases place
  rw [← start] at stays ⊢
  have whole : (stay.foldl (Pruning.step used) ⟨kept, .outside⟩).kept.reverse = kept.reverse ++ stay :=
    foldStays stays
  refine ⟨_, flaggedSublist (keptFlags used (stay.foldl (Pruning.step used) ⟨kept, .outside⟩) later)
    later, ?_⟩
  rw [prune, Pruning.text, cut, List.foldl_append, List.foldl_append, fold, foldFlagged, whole,
    List.append_assoc]

end SourceSweep.Style
