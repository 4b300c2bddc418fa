import SourceSweep.Proofs.Text.Trim
import SourceSweep.Style.Prune

/-! What a line on which a rule begins is made of. It opens one brace and closes at most that one,
behind which only blanks may follow. -/
namespace SourceSweep.Style
open Text

def isClassName : Text → Bool
  | [] => false
  | c :: rest => beginsName c && rest.all continuesName

structure RuleLine where
  gap : Text
  name : Text
  inner : Text
  body : Text
  closed : Option Text
  gapBlank : allBlank gap = true
  named : isClassName name = true
  innerBlank : allBlank inner = true
  plain : body.all notBrace = true
  closedBlank : closed.all allBlank = true

namespace RuleLine

def ending (line : RuleLine) : Text := line.closed.elim [] ('}' :: ·)

def selector (line : RuleLine) : Text := line.gap ++ '.' :: line.name ++ line.inner

def text (line : RuleLine) : Text := line.selector ++ '{' :: line.body ++ line.ending

end RuleLine

theorem continuesNameOfBegins {c : Char} (begins : beginsName c = true) : continuesName c = true := by
  simp only [beginsName, Bool.or_eq_true, decide_eq_true_eq] at begins
  rcases begins with alpha | rfl
  · simp [continuesName, isWordCharOfAlphanum c (by simp [Char.isAlphanum, alpha])]
  · decide

theorem nameChar {name : Text} (named : isClassName name = true) {c : Char} (mem : c ∈ name) :
    continuesName c = true := by
  cases name with
  | nil => cases mem
  | cons d rest =>
    obtain ⟨begins, continues⟩ := Bool.and_eq_true_iff.mp named
    rcases List.mem_cons.mp mem with rfl | mem
    · exact continuesNameOfBegins begins
    · exact List.all_eq_true.mp continues c mem

theorem readNameSome {text name rest : Text} (read : readName? text = some (name, rest)) :
    text = name ++ rest ∧ isClassName name = true := by
  cases text with
  | nil => cases read
  | cons c text =>
    simp only [readName?] at read
    split at read
    · rename_i begins
      cases read
      exact ⟨by simp [List.takeWhile_append_dropWhile], by simp [isClassName, begins, List.all_takeWhile]⟩
    · cases read

theorem readNameAll {name rest : Text} (named : isClassName name = true)
    (stops : ∀ c, rest.head? = some c → continuesName c = false) :
    readName? (name ++ rest) = some (name, rest) := by
  cases name with
  | nil => cases named
  | cons c tail =>
    obtain ⟨begins, continues⟩ := Bool.and_eq_true_iff.mp named
    have all : ∀ d ∈ tail, continuesName d = true := List.all_eq_true.mp continues
    have ends : rest.takeWhile continuesName = [] ∧ rest.dropWhile continuesName = rest := by
      cases rest with
      | nil => exact ⟨rfl, rfl⟩
      | cons d rest => simp [stops d rfl]
    rw [List.cons_append, readName?, if_pos begins, List.takeWhile_append_of_pos all,
      List.dropWhile_append_of_pos all, ends.1, ends.2, List.append_nil]

theorem skipBlanksSplit (text : Text) :
    ∃ gap, text = gap ++ skipBlanks text ∧ allBlank gap = true :=
  ⟨text.takeWhile isBlank, List.takeWhile_append_dropWhile.symm, List.all_takeWhile⟩

theorem bodyEndSplit {text : Text} (ends : isBodyEnd text = true) :
    ∃ body, ∃ closed : Option Text, text = body ++ closed.elim [] ('}' :: ·) ∧
      body.all notBrace = true ∧ closed.all allBlank = true := by
  have whole : text = text.takeWhile notBrace ++ text.dropWhile notBrace :=
    List.takeWhile_append_dropWhile.symm
  unfold isBodyEnd at ends
  split at ends
  · rename_i nothing
    exact ⟨text.takeWhile notBrace, none, by rw [nothing] at whole; exact whole, List.all_takeWhile, rfl⟩
  · rename_i rest closes
    exact ⟨text.takeWhile notBrace, some rest, by rw [closes] at whole; exact whole, List.all_takeWhile, ends⟩
  · cases ends

theorem ruleLineOf {line name : Text} (asks : ruleClass? line = some name) :
    ∃ rule : RuleLine, rule.text = line ∧ rule.name = name := by
  obtain ⟨gap, whole, gapBlank⟩ := skipBlanksSplit line
  unfold ruleClass? at asks
  split at asks
  · rename_i rest dot
    simp only [bind, Option.bind_eq_some_iff] at asks
    obtain ⟨⟨read, rest'⟩, named, asks⟩ := asks
    obtain ⟨same, isName⟩ := readNameSome named
    obtain ⟨inner, whole', innerBlank⟩ := skipBlanksSplit rest'
    split at asks
    · rename_i text opens
      split at asks
      · rename_i ends
        obtain ⟨body, closed, parts, plain, closedBlank⟩ := bodyEndSplit ends
        cases asks
        refine ⟨⟨gap, read, inner, body, closed, gapBlank, isName, innerBlank, plain, closedBlank⟩, ?_, rfl⟩
        rw [whole, dot, same, whole', opens, parts]
        simp [RuleLine.text, RuleLine.selector, RuleLine.ending]
      · cases asks
    · cases asks
  · cases asks

theorem braceFree {text : Text} (plain : text.all notBrace = true) : '{' ∉ text ∧ '}' ∉ text := by
  rw [List.all_eq_true] at plain
  exact ⟨fun mem => absurd (plain _ mem) (by decide), fun mem => absurd (plain _ mem) (by decide)⟩

theorem plainOfLacks {text : Text} (noOpen : '{' ∉ text) (noClose : '}' ∉ text) :
    text.all notBrace = true := by
  refine List.all_eq_true.mpr fun c mem => ?_
  have notOpen : c ≠ '{' := fun same => noOpen (same ▸ mem)
  have notClose : c ≠ '}' := fun same => noClose (same ▸ mem)
  simp [notBrace, notOpen, notClose]

theorem plainOfBlank {text : Text} (blank : allBlank text = true) : text.all notBrace = true :=
  plainOfLacks (fun mem => absurd (List.all_eq_true.mp blank _ mem) (by decide))
    (fun mem => absurd (List.all_eq_true.mp blank _ mem) (by decide))

theorem braceBalanceAppend (front rest : Text) :
    braceBalance (front ++ rest) = braceBalance front + braceBalance rest := by
  simp only [braceBalance, List.count_append, Int.natCast_add]
  omega

theorem braceBalanceFree {text : Text} (plain : text.all notBrace = true) : braceBalance text = 0 := by
  obtain ⟨noOpen, noClose⟩ := braceFree plain
  simp [braceBalance, List.count_eq_zero.mpr noOpen, List.count_eq_zero.mpr noClose]

namespace RuleLine

theorem selectorChar (line : RuleLine) {c : Char} (mem : c ∈ line.selector) :
    isBlank c = true ∨ c = '.' ∨ continuesName c = true := by
  simp only [selector, List.mem_append, List.mem_cons] at mem
  rcases mem with (gap | dot | name) | inner
  · exact .inl (List.all_eq_true.mp line.gapBlank c gap)
  · exact .inr (.inl dot)
  · exact .inr (.inr (nameChar line.named name))
  · exact .inl (List.all_eq_true.mp line.innerBlank c inner)

theorem selectorLacks (line : RuleLine) {c : Char} (other : isBlank c = false)
    (apart : c ≠ '.') (outside : continuesName c = false) : c ∉ line.selector := by
  intro mem
  rcases line.selectorChar mem with blank | dot | name
  · exact absurd (other.symm.trans blank) (by decide)
  · exact apart dot
  · exact absurd (outside.symm.trans name) (by decide)

theorem selectorPlain (line : RuleLine) : line.selector.all notBrace = true :=
  plainOfLacks (line.selectorLacks (by decide) (by decide) (by decide))
    (line.selectorLacks (by decide) (by decide) (by decide))

theorem endingPlain (line : RuleLine) {rest : Text} (closes : line.closed = some rest) :
    rest.all notBrace = true := by
  exact plainOfBlank (by simpa [closes] using line.closedBlank)

theorem closesIff (line : RuleLine) : '}' ∈ line.text ↔ line.closed.isSome = true := by
  have selector := (braceFree line.selectorPlain).2
  have body := (braceFree line.plain).2
  cases closes : line.closed <;> simp [text, ending, selector, body, closes]

theorem balance (line : RuleLine) :
    braceBalance line.text = if line.closed.isSome then 0 else 1 := by
  have selector := braceBalanceFree line.selectorPlain
  have body := braceBalanceFree line.plain
  have opening : braceBalance ('{' :: line.body) = 1 := by
    rw [show '{' :: line.body = ['{'] ++ line.body from rfl, braceBalanceAppend, body]
    rfl
  rw [text, braceBalanceAppend, braceBalanceAppend, selector, opening]
  cases closes : line.closed with
  | none => simp [ending, closes, braceBalance]
  | some rest =>
    have tail := braceBalanceFree (line.endingPlain closes)
    rw [show line.ending = ['}'] ++ rest by simp [ending, closes], braceBalanceAppend, tail]
    rfl

end RuleLine

theorem nameNotBlank {c : Char} (name : continuesName c = true) : isBlank c = false := by
  refine Bool.eq_false_iff.mpr fun blank => ?_
  have hyphen : c = '-' := by simpa [continuesName, blankNotWord blank] using name
  exact absurd (hyphen ▸ blank) (by decide)

theorem RuleLine.readTo (rule : RuleLine) (tail : Text) :
    ruleClass? (rule.selector ++ '{' :: tail) = if isBodyEnd tail then some rule.name else none := by
  have dot : skipBlanks (rule.selector ++ '{' :: tail) =
      '.' :: (rule.name ++ (rule.inner ++ '{' :: tail)) := by
    rw [selector, List.append_assoc, List.append_assoc, skipBlanksBehind rule.gapBlank]
    rfl
  have opens : skipBlanks (rule.inner ++ '{' :: tail) = '{' :: tail := by
    rw [skipBlanksBehind rule.innerBlank]
    rfl
  have stops : ∀ c, (rule.inner ++ '{' :: tail).head? = some c → continuesName c = false := by
    intro c first
    cases inner : rule.inner with
    | nil =>
      obtain rfl : '{' = c := by simpa [inner] using first
      decide
    | cons d rest =>
      obtain rfl : d = c := by simpa [inner] using first
      have blank : isBlank d = true := List.all_eq_true.mp rule.innerBlank d (by simp [inner])
      exact Bool.eq_false_iff.mpr fun name => absurd (blank.symm.trans (nameNotBlank name)) (by decide)
  unfold ruleClass?
  simp only [dot, readNameAll rule.named stops, opens, bind, Option.bind]

theorem RuleLine.read (rule : RuleLine) : ruleClass? rule.text = some rule.name := by
  have body : (rule.body ++ rule.ending).dropWhile notBrace = rule.ending := by
    rw [List.dropWhile_append_of_pos (List.all_eq_true.mp rule.plain)]
    cases closes : rule.closed <;> simp [ending, closes, notBrace]
  have ends : isBodyEnd (rule.body ++ rule.ending) = true := by
    rw [isBodyEnd, body]
    cases closes : rule.closed with
    | none => simp [ending, closes]
    | some rest => simpa [ending, closes] using rule.closedBlank
  rw [text, List.append_assoc, List.cons_append, rule.readTo, if_pos ends]

theorem RuleLine.nameOnly {rule other : RuleLine} (same : other.text = rule.text) : other.name = rule.name := by
  have read := rule.read
  rw [← same, other.read] at read
  exact Option.some.inj read

theorem ruleClassIff {line name : Text} :
    ruleClass? line = some name ↔ ∃ rule : RuleLine, rule.text = line ∧ rule.name = name := by
  constructor
  · exact ruleLineOf
  · rintro ⟨rule, rfl, rfl⟩
    exact rule.read

theorem ruleBalance {line name : Text} (asks : ruleClass? line = some name) :
    braceBalance line = if line.contains '}' then 0 else 1 := by
  obtain ⟨rule, rfl, _⟩ := ruleLineOf asks
  rw [rule.balance]
  simp [rule.closesIff]

end SourceSweep.Style
