import SourceSweep.Proofs.Style.ClassTokens

/-! The pattern of a line on which a rule begins, matched with backtracking. Blanks may go to the body as well as
behind it, and the end may be seen before a last line feed; none of this makes a line a rule's that its grammar
does not, or gives it another name. -/
namespace SourceSweep.Style
open Text

def selectorLead : Form := .both (.many (.one isBlank)) (.text ['.'])

def selectorTail : Form := .both (.many (.one isBlank)) (.both (.text ['{']) (.both (.many (.one notBrace))
  (.both (.maybe (.text ['}'])) (.many (.one isBlank)))))

def endsThere (behind : Text) : Bool := behind = [] || behind = ['\n']

def selectorName? (line : Text) : Option Text :=
  ((Form.captures selectorLead namePattern selectorTail ⟨none, line⟩).find? fun capture =>
    endsThere (line.drop capture.length)).map Capture.text

theorem leadReads : selectorLead.Reads fun taken => ∃ gap, taken = gap ++ ['.'] ∧ allBlank gap = true :=
  (Form.readsBoth (Form.readsRun isBlank) (Form.readsText ['.'])).congr fun taken => by
    constructor
    · rintro ⟨gap, _, rfl, blank, rfl⟩
      exact ⟨gap, rfl, blank⟩
    · rintro ⟨gap, rfl, blank⟩
      exact ⟨gap, _, rfl, blank, rfl⟩

theorem nameReads : namePattern.Reads fun taken => isClassName taken = true :=
  (Form.readsBoth (Form.readsOne beginsName) (Form.readsRun continuesName)).congr fun taken => by
    constructor
    · rintro ⟨_, rest, rfl, ⟨c, rfl, begins⟩, continues⟩
      simp [isClassName, begins, continues]
    · intro named
      cases taken with
      | nil => cases named
      | cons c rest =>
        obtain ⟨begins, continues⟩ := Bool.and_eq_true_iff.mp named
        exact ⟨[c], rest, rfl, ⟨c, rfl, begins⟩, continues⟩

theorem tailReads : selectorTail.Reads fun taken => ∃ inner body closing gap,
    taken = inner ++ '{' :: (body ++ (closing ++ gap)) ∧ allBlank inner = true ∧ body.all notBrace = true ∧
      (closing = [] ∨ closing = ['}']) ∧ allBlank gap = true :=
  (Form.readsBoth (Form.readsRun isBlank) (Form.readsBoth (Form.readsText ['{'])
    (Form.readsBoth (Form.readsRun notBrace) (Form.readsBoth (Form.readsMaybe (Form.readsText ['}']))
      (Form.readsRun isBlank))))).congr fun taken => by
    constructor
    · rintro ⟨inner, _, rfl, innerBlank, _, _, rfl, rfl, body, _, rfl, plain, closing, gap, rfl, closes, blank⟩
      exact ⟨inner, body, closing, gap, rfl, innerBlank, plain, closes, blank⟩
    · rintro ⟨inner, body, closing, gap, rfl, innerBlank, plain, closes, blank⟩
      exact ⟨inner, _, rfl, innerBlank, _, _, rfl, rfl, body, _, rfl, plain, closing, gap, rfl, closes, blank⟩

theorem endsThereIff {behind : Text} : endsThere behind = true ↔ behind = [] ∨ behind = ['\n'] := by
  simp [endsThere]

theorem ruleOfParts {gap name inner body closing rest behind : Text} (gapBlank : allBlank gap = true)
    (named : isClassName name = true) (innerBlank : allBlank inner = true) (plain : body.all notBrace = true)
    (closes : closing = [] ∨ closing = ['}']) (restBlank : allBlank rest = true)
    (ends : endsThere behind = true) : ∃ rule : RuleLine, rule.name = name ∧
      rule.text = gap ++ '.' :: (name ++ (inner ++ '{' :: (body ++ (closing ++ (rest ++ behind))))) := by
  -- A line feed before which the match ended is one more blank at the end.
  have blank : allBlank (rest ++ behind) = true := by
    have feed : allBlank behind = true := by rcases endsThereIff.mp ends with rfl | rfl <;> decide
    simpa [allBlank] using And.intro restBlank feed
  rcases closes with rfl | rfl
  · have whole : (body ++ (rest ++ behind)).all notBrace = true := by
      rw [List.all_append, plain, plainOfBlank blank]
      rfl
    exact ⟨⟨gap, name, inner, body ++ (rest ++ behind), none, gapBlank, named, innerBlank, whole, rfl⟩, rfl,
      by simp [RuleLine.text, RuleLine.selector, RuleLine.ending]⟩
  · exact ⟨⟨gap, name, inner, body, some (rest ++ behind), gapBlank, named, innerBlank, plain, blank⟩, rfl,
      by simp [RuleLine.text, RuleLine.selector, RuleLine.ending]⟩

theorem selectorRule {line name : Text} (found : selectorName? line = some name) :
    ∃ rule : RuleLine, rule.text = line ∧ rule.name = name := by
  obtain ⟨capture, first, rfl⟩ := Option.map_eq_some_iff.mp found
  have ends := List.find?_some first
  obtain ⟨_, name, _, behind, rfl, ⟨gap, rfl, gapBlank⟩, named,
    ⟨inner, body, closing, rest, rfl, innerBlank, plain, closes, restBlank⟩, rfl⟩ :=
    (Form.memCaptures leadReads nameReads tailReads).mp (List.mem_of_find?_eq_some first)
  rw [Form.dropCapture] at ends
  obtain ⟨rule, same, text⟩ := ruleOfParts gapBlank named innerBlank plain closes restBlank ends
  exact ⟨rule, by simpa using text, same⟩

theorem RuleLine.endingParts (rule : RuleLine) : ∃ closing gap, rule.ending = closing ++ gap ∧
    (closing = [] ∨ closing = ['}']) ∧ allBlank gap = true := by
  cases closes : rule.closed with
  | none => exact ⟨[], [], by simp [ending, closes], .inl rfl, rfl⟩
  | some rest =>
    exact ⟨['}'], rest, by simp [ending, closes], .inr rfl, by simpa [closes] using rule.closedBlank⟩

/- The rule's own parts are one match of the whole line, and every other such match has its name. -/
theorem RuleLine.matched (rule : RuleLine) : selectorName? rule.text = some rule.name := by
  obtain ⟨closing, gap, parts, closes, blank⟩ := rule.endingParts
  have whole : rule.text = (rule.gap ++ ['.']) ++ (rule.name ++
      ((rule.inner ++ '{' :: (rule.body ++ (closing ++ gap))) ++ [])) := by
    simp [text, selector, parts]
  have found : (selectorName? rule.text).isSome = true := by
    rw [selectorName?, Option.isSome_map, List.find?_isSome]
    refine ⟨_, (Form.memCaptures leadReads nameReads tailReads).mpr
      ⟨_, _, _, _, whole, ⟨rule.gap, rfl, rule.gapBlank⟩, rule.named,
        ⟨rule.inner, rule.body, closing, gap, rfl, rule.innerBlank, rule.plain, closes, blank⟩, rfl⟩, ?_⟩
    rw [whole, Form.dropCapture]
    rfl
  obtain ⟨name, found⟩ := Option.isSome_iff_exists.mp found
  obtain ⟨other, same, rfl⟩ := selectorRule found
  rw [found, nameOnly same]

theorem selectorNameIff {line name : Text} :
    selectorName? line = some name ↔ ∃ rule : RuleLine, rule.text = line ∧ rule.name = name := by
  constructor
  · exact selectorRule
  · rintro ⟨rule, rfl, rfl⟩
    exact rule.matched

theorem answerDepth (rule : RuleLine) (kept : List Text) (used : Bool) :
    (Pruning.answer ⟨kept, .outside⟩ rule.text used).place.depth = braceBalance rule.text := by
  have nonneg : 0 ≤ 0 + braceBalance rule.text := by
    rw [rule.balance]
    split <;> decide
  rw [answerOutside rule.read, placeAtDepth, depthAfterOpen nonneg, Int.zero_add]

/-- The pattern accepts the lines of its grammar and no others, with their one name, and so does the reader of
a line. A closing brace on a rule's line is the one that closes the rule, so that pruning goes on from such a
line at the depth to which its braces come. -/
theorem selectorGrammar :
    (∀ line name, selectorName? line = some name ↔ ∃ rule : RuleLine, rule.text = line ∧ rule.name = name) ∧
    (∀ line, ruleClass? line = selectorName? line) ∧
    (∀ rule other : RuleLine, other.text = rule.text → other.name = rule.name) ∧
    ∀ rule : RuleLine, rule.text.contains '}' = rule.closed.isSome ∧
      braceBalance rule.text = (if rule.closed.isSome then 0 else 1) ∧
      ∀ kept used, (Pruning.answer ⟨kept, .outside⟩ rule.text used).place.depth = braceBalance rule.text := by
  refine ⟨fun _ _ => selectorNameIff, fun line => ?_, fun _ _ => RuleLine.nameOnly,
    fun rule => ⟨?_, rule.balance, answerDepth rule⟩⟩
  · exact Option.ext fun name => ruleClassIff.trans selectorNameIff.symm
  · rw [Bool.eq_iff_iff, List.contains_iff_mem, rule.closesIff]

def closedRule : RuleLine where
  gap := " ".toList
  name := "a-".toList
  inner := " ".toList
  body := "\n  b: c;\n".toList
  closed := some " \n".toList
  gapBlank := by decide
  named := by decide
  innerBlank := by decide
  plain := by decide
  closedBlank := by decide

theorem closedRuleMatched : selectorName? " .a- \x7b\n  b: c;\n\x7d \n".toList = some "a-".toList ∧
    (∀ other : RuleLine, other.text = closedRule.text → other.name = "a-".toList) ∧
    braceBalance closedRule.text = 0 := by
  obtain ⟨accepts, -, single, braces⟩ := selectorGrammar
  exact ⟨(accepts _ _).mpr ⟨closedRule, by decide, rfl⟩, single closedRule, (braces closedRule).2.1⟩

end SourceSweep.Style
