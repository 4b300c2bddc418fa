import Mathlib.Data.List.Infix
import SourceSweep.Proofs.Usage.Apart

/-! Classes listed in a `className` attribute. One is seen wherever the attribute stands if it is all of the
string, or if a word ends with it and no brace closes before the string; one that the script names
nowhere else is seen in these cases alone. -/
namespace SourceSweep.Usage
open Text Style

/-- A name listed in the string of a `className` attribute, between blanks or the ends of the string. -/
structure ListedClass where
  start : Text
  /-- What stands before and behind the string, if its value is an expression in braces. -/
  braces : Option (Text × Text)
  mark : Char
  front : Text
  name : Text
  behind : Text
  begins : IsAttributeStart start
  quoted : isQuote mark = true
  plain : (front ++ (name ++ behind)).all (!isQuote ·) = true
  apart : front.getLast?.all isBlank = true ∧ behind.head?.all isBlank = true

namespace ListedClass

def opening (listed : ListedClass) : Text := listed.braces.elim [] fun (inner, _) => '{' :: inner

def closing (listed : ListedClass) : Text := listed.braces.elim [] fun (_, outer) => outer ++ ['}']

def literal (listed : ListedClass) : Text :=
  listed.mark :: (listed.front ++ (listed.name ++ (listed.behind ++ [listed.mark])))

def value (listed : ListedClass) : Text := listed.opening ++ (listed.literal ++ listed.closing)

def text (listed : ListedClass) : Text := listed.start ++ listed.value

def isSeen (listed : ListedClass) : Bool :=
  listed.front.isEmpty && listed.behind.isEmpty || endsWord listed.name && !listed.opening.contains '}'

def place (listed : ListedClass) (before : Text) : Text :=
  before ++ (listed.start ++ (listed.opening ++ listed.mark :: listed.front))

/-- The script names the class nowhere else, and no other attribute begins before the string. -/
structure IsAlone (listed : ListedClass) (before after : Text) : Prop where
  once : ∀ front behind, before ++ (listed.text ++ after) = front ++ (listed.name ++ behind) →
    front = listed.place before
  sole : ¬ "className".toList <:+: listed.opening

end ListedClass

theorem cutBehind {front free other rest : Text} {c : Char} (cut : front ++ free = other ++ c :: rest)
    (absent : c ∉ free) : ∃ more, rest = more ++ free ∧ front = other ++ c :: more := by
  rcases List.append_eq_append_iff.mp cut with ⟨more, rfl, same⟩ | ⟨more, rfl, same⟩
  · exact absurd (by simp [same]) absent
  · cases more with
    | nil =>
      obtain rfl : c :: rest = free := same
      exact absurd List.mem_cons_self absent
    | cons d more =>
      obtain ⟨rfl, rfl⟩ := List.cons.inj same
      exact ⟨more, rfl, rfl⟩

theorem noneFits {fits : Char → Bool} {text : Text} (none : text.all (!fits ·) = true) {c : Char}
    (fit : fits c = true) : c ∉ text := fun mem => by
  simpa [fit] using List.all_eq_true.mp none c mem

theorem lastUnique {fits : Char → Bool} {front other tail rest : Text} {c d : Char} (fit : fits c = true)
    (fit' : fits d = true) (none : tail.all (!fits ·) = true) (none' : rest.all (!fits ·) = true)
    (same : front ++ c :: tail = other ++ d :: rest) : front = other ∧ c = d ∧ tail = rest := by
  have cut : (front ++ [c]) ++ tail = other ++ d :: rest := by simpa using same
  obtain ⟨more, rfl, back⟩ := cutBehind cut (noneFits none fit')
  have free : c ∉ more := fun mem => noneFits none' fit (List.mem_append_left tail mem)
  rcases List.eq_nil_or_concat more with rfl | ⟨more, e, rfl⟩
  · obtain ⟨rfl, last⟩ := List.append_inj' back rfl
    exact ⟨rfl, List.singleton_inj.mp last, rfl⟩
  · have back : front ++ [c] = (other ++ d :: more) ++ [e] := by simpa using back
    obtain ⟨-, last⟩ := List.append_inj' back rfl
    exact absurd (by simp [List.singleton_inj.mp last]) free

theorem startBraceless {start : Text} (begins : IsAttributeStart start) : '{' ∉ start ∧ '}' ∉ start := by
  obtain ⟨gap, gap', rfl, blank, blank'⟩ := begins
  obtain ⟨noOpen, noClose⟩ := braceFree (plainOfBlank blank)
  obtain ⟨noOpen', noClose'⟩ := braceFree (plainOfBlank blank')
  simp [noOpen, noClose, noOpen', noClose']

theorem startToken {start : Text} (begins : IsAttributeStart start) : "className".toList <:+: start := by
  obtain ⟨gap, gap', rfl, -, -⟩ := begins
  exact (List.prefix_append _ _).isInfix

theorem startBehind {start front other rest : Text} (begins : IsAttributeStart start) {c : Char}
    (brace : c = '{' ∨ c = '}') (cut : front ++ start = other ++ c :: rest) : "className".toList <:+: rest := by
  have absent : c ∉ start := by
    rcases brace with rfl | rfl
    · exact (startBraceless begins).1
    · exact (startBraceless begins).2
  obtain ⟨more, rfl, -⟩ := cutBehind cut absent
  exact (startToken begins).trans (List.suffix_append more start).isInfix

theorem unclosed {text : Text} (none : '}' ∉ text) : text.all (!isCloseBrace ·) = true := by
  refine List.all_eq_true.mpr fun c mem => ?_
  have other : c ≠ '}' := fun same => none (same ▸ mem)
  simp [isCloseBrace, other]

namespace ListedClass
variable (listed : ListedClass)

theorem isSeenIff : listed.isSeen = true ↔ (listed.front = [] ∧ listed.behind = []) ∨
    (endsWord listed.name = true ∧ '}' ∉ listed.opening) := by
  simp [isSeen]

theorem frontPlain : listed.front.all (!isQuote ·) = true ∧ listed.behind.all (!isQuote ·) = true := by
  have plain := listed.plain
  rw [List.all_append, List.all_append] at plain
  simp only [Bool.and_eq_true] at plain
  exact ⟨plain.1, plain.2.2⟩

theorem frontLast : ∃ c, (listed.mark :: listed.front).getLast? = some c ∧ (isQuote c = true ∨ isBlank c = true) := by
  rcases List.eq_nil_or_concat listed.front with none | ⟨front, c, whole⟩
  · exact ⟨listed.mark, by simp [none], .inl listed.quoted⟩
  · rw [List.concat_eq_append] at whole
    have blank : isBlank c = true := by simpa [whole] using listed.apart.1
    exact ⟨c, by rw [whole, ← List.cons_append, List.getLast?_concat], .inr blank⟩

theorem frontEnds : endsWord (listed.mark :: listed.front) = false := by
  obtain ⟨c, last, quote | blank⟩ := listed.frontLast
  · rw [endsWord, last]
    exact quoteNotWord quote
  · rw [endsWord, last]
    exact blankNotWord blank

theorem behindBegins (rest : Text) : beginsWord (listed.behind ++ listed.mark :: rest) = false := by
  cases whole : listed.behind with
  | nil => exact quoteNotWord listed.quoted
  | cons c behind =>
    have blank : isBlank c = true := by simpa [whole] using listed.apart.2
    exact blankNotWord blank

section
variable (begins : beginsWord listed.name = true)
include begins

theorem phraseSeen (ends : endsWord listed.name = true) : IsQuotedPhrase listed.name listed.literal := by
  refine ⟨listed.mark, listed.front, listed.behind, listed.mark, rfl, listed.quoted, listed.quoted,
    listed.frontPlain.1, listed.frontPlain.2, ?_, ?_⟩
  · cases whole : listed.name with
    | nil => simp [whole, beginsWord] at begins
    | cons c rest =>
      have first : isWordChar c = true := by simpa [whole, beginsWord] using begins
      have last := listed.frontEnds
      rw [endsWord] at last
      simp [atEdge, isEdge, first, last]
  · have some : listed.name ≠ [] := fun none => by simp [none, endsWord] at ends
    have next := listed.behindBegins []
    rw [beginsWord] at next
    rw [← List.cons_append, atEdgeBehind some, atEdge, isEdge, ← endsWord, ends, next]
    rfl

theorem refersOfSeen (seen : listed.isSeen = true) (before after : Text) :
    Refers listed.name (before ++ (listed.text ++ after)) := by
  rcases listed.isSeenIff.mp seen with ⟨noFront, noBehind⟩ | ⟨ends, clear⟩
  · have cut : before ++ (listed.text ++ after) = (before ++ (listed.start ++ listed.opening)) ++
        ((listed.mark :: (listed.name ++ [listed.mark])) ++ (listed.closing ++ after)) := by
      simp [text, value, literal, noFront, noBehind]
    exact .quoted cut ⟨listed.mark, listed.mark, rfl, listed.quoted, listed.quoted⟩
  · have form := listed.phraseSeen begins ends
    cases whole : listed.braces with
    | none =>
      have cut : before ++ (listed.text ++ after) = before ++ (listed.start ++ (listed.literal ++ after)) := by
        simp [text, value, opening, closing, whole]
      exact .phrase cut listed.begins form
    | some sides =>
      obtain ⟨inner, outer⟩ := sides
      -- The pattern ends at the first brace that closes behind the string, not at the one that closes the value.
      obtain ⟨shut, rest, closes, none⟩ := List.eq_append_cons_of_mem
        (List.mem_append_right outer (List.mem_singleton_self '}'))
      have inside : '}' ∉ inner := by simpa [opening, whole] using clear
      have cut : before ++ (listed.text ++ after) = before ++ (listed.start ++
          (('{' :: (inner ++ (listed.literal ++ (shut ++ ['}'])))) ++ (rest ++ after))) := by
        simp [text, value, opening, closing, whole, closes]
      exact .braces cut listed.begins ⟨inner, listed.literal, shut, rfl, form, unclosed inside, unclosed none⟩

end

section
variable {before after : Text} (alone : listed.IsAlone before after)
include alone

theorem onlyPlace {front behind : Text} (cut : before ++ (listed.text ++ after) = front ++ (listed.name ++ behind)) :
    front = listed.place before ∧ behind = listed.behind ++ listed.mark :: (listed.closing ++ after) := by
  have here := alone.once front behind cut
  refine ⟨here, ?_⟩
  rw [here] at cut
  simpa [place, text, value, literal] using cut.symm

omit alone in
theorem markPlace {front near : Text} {c : Char} (opens : isQuote c = true) (plain : near.all (!isQuote ·) = true)
    (ahead : front ++ c :: near = listed.place before) :
    front = before ++ (listed.start ++ listed.opening) ∧ near = listed.front := by
  have same : front ++ c :: near =
      (before ++ (listed.start ++ listed.opening)) ++ listed.mark :: listed.front := by simpa [place] using ahead
  obtain ⟨here, -, near⟩ := lastUnique opens listed.quoted plain listed.frontPlain.1 same
  exact ⟨here, near⟩

theorem phrasePlace (begins : beginsWord listed.name = true) {front phrase behind : Text}
    (cut : before ++ (listed.text ++ after) = front ++ (phrase ++ behind))
    (form : IsQuotedPhrase listed.name phrase) :
    front = before ++ (listed.start ++ listed.opening) ∧ endsWord listed.name = true := by
  obtain ⟨opening, near, far, closing, rfl, opens, -, plain, -, -, stop⟩ := form
  obtain ⟨ahead, back⟩ := listed.onlyPlace alone
    (cut.trans (by simp : _ = (front ++ opening :: near) ++ (listed.name ++ (far ++ closing :: behind))))
  refine ⟨(listed.markPlace opens plain ahead).1, ?_⟩
  have some : listed.name ≠ [] := fun none => by simp [none, beginsWord] at begins
  have next : beginsWord (far ++ [closing]) = false := by
    have here := listed.behindBegins (listed.closing ++ after)
    rw [← back, ← List.singleton_append, ← List.append_assoc, beginsWord,
      List.head?_append_of_ne_nil _ (by simp)] at here
    exact here
  rw [← List.cons_append, atEdgeBehind some, atEdge, isEdge, ← beginsWord, next, ← endsWord] at stop
  simpa using stop

theorem wholeOfQuoted {front quoted behind : Text}
    (cut : before ++ (listed.text ++ after) = front ++ (quoted ++ behind))
    (form : IsQuotedName listed.name quoted) : listed.front = [] ∧ listed.behind = [] := by
  obtain ⟨opening, closing, rfl, opens, closes⟩ := form
  obtain ⟨ahead, back⟩ := listed.onlyPlace alone
    (cut.trans (by simp : _ = (front ++ [opening]) ++ (listed.name ++ (closing :: behind))))
  refine ⟨(listed.markPlace opens rfl ahead).2.symm, ?_⟩
  cases whole : listed.behind with
  | nil => rfl
  | cons c rest =>
    rw [whole] at back
    obtain ⟨rfl, -⟩ := List.cons.inj back
    exact absurd (by simp [whole]) (noneFits listed.frontPlain.2 closes)

theorem openBeforePhrase {front start : Text} (begun : IsAttributeStart start)
    (here : front ++ start = before ++ (listed.start ++ listed.opening)) : '}' ∉ listed.opening := by
  cases whole : listed.braces with
  | none => simp [opening, whole]
  | some sides =>
    have inside : front ++ start = (before ++ listed.start) ++ '{' :: sides.1 := by
      simpa [opening, whole] using here
    have within : sides.1 <:+: listed.opening := by
      simpa [opening, whole] using (List.suffix_cons '{' sides.1).isInfix
    exact absurd ((startBehind begun (.inl rfl) inside).trans within) alone.sole

/- If a brace closed before the string, the attribute that is found would begin behind that brace. -/
theorem openBeforeBraces {front start near : Text} (begun : IsAttributeStart start)
    (plain : near.all (!isCloseBrace ·) = true)
    (here : front ++ (start ++ '{' :: near) = before ++ (listed.start ++ listed.opening)) :
    '}' ∉ listed.opening := by
  intro closes
  obtain ⟨head, rest, split⟩ := List.append_of_mem closes
  have cut : (front ++ start) ++ '{' :: near = (before ++ (listed.start ++ head)) ++ '}' :: rest := by
    simpa [split] using here
  have absent : '}' ∉ '{' :: near := by simpa using noneFits plain rfl
  obtain ⟨more, rfl, behind⟩ := cutBehind cut absent
  have within : more <:+: listed.opening := ⟨head ++ ['}'], '{' :: near, by simp [split]⟩
  exact alone.sole ((startBehind begun (.inr rfl) behind).trans within)

theorem notMember {front behind : Text}
    (cut : before ++ (listed.text ++ after) = front ++ ("styles.".toList ++ (listed.name ++ behind))) : False := by
  obtain ⟨ahead, -⟩ := listed.onlyPlace alone
    (cut.trans (by simp : _ = (front ++ "styles.".toList) ++ (listed.name ++ behind)))
  have same : front ++ "styles.".toList =
      (before ++ (listed.start ++ listed.opening)) ++ listed.mark :: listed.front := by simpa [place] using ahead
  obtain ⟨c, last, kind⟩ := listed.frontLast
  have dot : some '.' = some c := by
    rw [← last, ← List.getLast?_append_of_ne_nil _ (List.cons_ne_nil listed.mark listed.front), ← same,
      List.getLast?_append]
    rfl
  obtain rfl := Option.some.inj dot
  exact absurd kind (by decide)

theorem seenOfRefers (begins : beginsWord listed.name = true)
    (refers : Refers listed.name (before ++ (listed.text ++ after))) : listed.isSeen = true := by
  rw [isSeenIff]
  cases refers with
  | quoted cut form => exact .inl (listed.wholeOfQuoted alone cut form)
  | phrase cut begun form =>
    obtain ⟨here, ends⟩ := listed.phrasePlace alone begins (cut.trans (List.append_assoc ..).symm) form
    exact .inr ⟨ends, listed.openBeforePhrase alone begun here⟩
  | @braces front start _ behind cut begun form =>
    obtain ⟨near, phrase, far, rfl, form, plain, -⟩ := form
    obtain ⟨here, ends⟩ := listed.phrasePlace alone begins
      (cut.trans (by simp : _ = (front ++ (start ++ '{' :: near)) ++ (phrase ++ (far ++ '}' :: behind)))) form
    exact .inr ⟨ends, listed.openBeforeBraces alone begun plain here⟩
  | member cut _ => exact (listed.notMember alone cut).elim

end

theorem isAloneIff (before after : Text) : listed.IsAlone before after ↔
    (∀ length < (before ++ (listed.text ++ after)).length + 1,
      (listed.name.isPrefixOf? ((before ++ (listed.text ++ after)).drop length)).all fun _ =>
        (before ++ (listed.text ++ after)).take length = listed.place before) ∧
    ¬ "className".toList <:+: listed.opening := by
  have every := everyOccurrenceIff listed.name (before ++ (listed.text ++ after)) fun front _ =>
    front = listed.place before
  simp only [decide_eq_true_eq] at every
  rw [← every]
  exact ⟨fun alone => ⟨alone.once, alone.sole⟩, fun ⟨once, sole⟩ => ⟨once, sole⟩⟩

instance (before after : Text) : Decidable (listed.IsAlone before after) :=
  decidable_of_iff _ (listed.isAloneIff before after).symm

end ListedClass

theorem listedClassSeen {line : Text} (listed : ListedClass) (captured : ruleClass? line = some listed.name)
    (path before after : Text) :
    (listed.isSeen = true → ((Checker.ofFiles [path] []).isUsed
      (fun _ => .ok (before ++ (listed.text ++ after))) listed.name).1 = .ok true) ∧
    (listed.IsAlone before after → ((Checker.ofFiles [path] []).isUsed
      (fun _ => .ok (before ++ (listed.text ++ after))) listed.name).1 = .ok listed.isSeen) := by
  obtain ⟨rule, -, same⟩ := ruleLineOf captured
  have begins : beginsWord listed.name = true := classNameBegins (same ▸ rule.named)
  rw [loneScriptVerdict]
  constructor
  · intro seen
    rw [(refersIff _ _).mpr (listed.refersOfSeen begins seen before after)]
  · intro alone
    refine congrArg Except.ok (Bool.eq_iff_iff.mpr ⟨fun refers => ?_, fun seen => ?_⟩)
    · exact listed.seenOfRefers alone begins ((refersIff _ _).mp refers)
    · exact (refersIff _ _).mpr (listed.refersOfSeen begins seen before after)

def isBraced (text : Text) : Bool :=
  braceBalance text = 0 && (List.range (text.length - 1)).all fun length => 0 < braceBalance (text.take (length + 1))

def cardBeforeObject : ListedClass where
  start := "className=".toList
  braces := some ("cx(".toList, ", \x7bon: x\x7d)".toList)
  mark := '"'
  front := []
  name := "card".toList
  behind := " wide".toList
  begins := ⟨[], [], by decide, rfl, rfl⟩
  quoted := by decide
  plain := by decide
  apart := by decide

theorem cardBeforeObjectSeen :
    ruleClass? ".card \x7b".toList = some cardBeforeObject.name ∧ isBraced cardBeforeObject.value = true ∧
    cardBeforeObject.isSeen = true ∧ cardBeforeObject.IsAlone "<p ".toList "/>".toList ∧
    ((Checker.ofFiles [[]] []).isUsed
      (fun _ => .ok ("<p ".toList ++ (cardBeforeObject.text ++ "/>".toList))) cardBeforeObject.name).1 = .ok true := by
  have captured : ruleClass? ".card \x7b".toList = some cardBeforeObject.name := by decide +kernel
  have seen : cardBeforeObject.isSeen = true := by decide +kernel
  have alone : cardBeforeObject.IsAlone "<p ".toList "/>".toList := by decide +kernel
  obtain ⟨always, once⟩ := listedClassSeen cardBeforeObject captured [] "<p ".toList "/>".toList
  exact ⟨captured, by decide +kernel, seen, alone, (once alone).trans (once alone ▸ always seen)⟩

def cardBehindObject : ListedClass :=
  { cardBeforeObject with braces := some ("cx(\x7bon: x\x7d, ".toList, ")".toList) }

def hyphenBeforeOther : ListedClass :=
  { cardBeforeObject with
    braces := none
    name := "a-".toList
    behind := " b".toList
    plain := by decide
    apart := by decide }

/- A closing brace before the string ends the search for it, and no word ends with a hyphen. -/
theorem listedClassesMissed :
    (ruleClass? ".card \x7b".toList = some cardBehindObject.name ∧ isBraced cardBehindObject.value = true ∧
      ((Checker.ofFiles [[]] []).isUsed (fun _ => .ok cardBehindObject.text) cardBehindObject.name).1 =
        .ok false) ∧
    (ruleClass? ".a- \x7b".toList = some hyphenBeforeOther.name ∧ hyphenBeforeOther.braces = none ∧
      ((Checker.ofFiles [[]] []).isUsed (fun _ => .ok hyphenBeforeOther.text) hyphenBeforeOther.name).1 =
        .ok false) := by
  have object : refersTo cardBehindObject.text cardBehindObject.name = false := by decide +kernel
  have hyphen : refersTo hyphenBeforeOther.text hyphenBeforeOther.name = false := by decide +kernel
  refine ⟨⟨by decide +kernel, by decide +kernel, ?_⟩, ⟨by decide +kernel, rfl, ?_⟩⟩
  · rw [loneScriptVerdict, object]
  · rw [loneScriptVerdict, hyphen]

end SourceSweep.Usage
