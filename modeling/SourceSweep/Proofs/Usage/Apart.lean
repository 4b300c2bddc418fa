import SourceSweep.Proofs.Style.RuleLine
import SourceSweep.Proofs.Usage.History
import SourceSweep.Proofs.Usage.Meaning

/-! A name is referred to only where it stands apart: where no word character comes right before or right
behind it. A script in which every occurrence is part of a longer word shows nothing. -/
namespace SourceSweep.Usage
open Text Style

def beginsWord (text : Text) : Bool := text.head?.any isWordChar

def endsWord (text : Text) : Bool := text.getLast?.any isWordChar

/-- Whether every occurrence of the name goes on from a word before it or into one behind it. -/
def JoinsWords (name text : Text) : Prop := ∀ front behind, text = front ++ (name ++ behind) →
  endsWord front = true ∨ beginsWord behind = true

theorem everyOccurrenceIff (name text : Text) (holds : Text → Text → Bool) :
    (∀ front behind, text = front ++ (name ++ behind) → holds front behind = true) ↔
      ∀ length < text.length + 1, (name.isPrefixOf? (text.drop length)).all (holds (text.take length)) := by
  constructor
  · intro every length _
    rw [Option.all_eq_true]
    intro behind begins
    have cut := List.isPrefixOf?_eq_some_iff_append_eq.mp begins
    exact every _ _ (by rw [cut, List.take_append_drop])
  · rintro every front behind rfl
    have here := every front.length (by simp only [List.length_append]; omega)
    have begins : name.isPrefixOf? (name ++ behind) = some behind :=
      List.isPrefixOf?_eq_some_iff_append_eq.mpr rfl
    rwa [List.drop_left, List.take_left, begins, Option.all_some] at here

instance (name text : Text) : Decidable (JoinsWords name text) :=
  decidable_of_iff _ ((everyOccurrenceIff name text fun front behind => endsWord front || beginsWord behind).symm.trans
    (by simp only [JoinsWords, Bool.or_eq_true]))

theorem edgeBefore {name front : Text} (begins : beginsWord name = true) (behind : Text)
    (edge : atEdge front (name ++ behind) = true) : endsWord front = false := by
  cases name with
  | nil => cases begins
  | cons c rest =>
    have first : isWordChar c = true := begins
    simpa [atEdge, isEdge, endsWord, first] using edge

theorem edgeBehind {name behind : Text} (ends : endsWord name = true) (front : Text)
    (edge : atEdge (front ++ name) behind = true) : beginsWord behind = false := by
  have some : name ≠ [] := by rintro rfl; cases ends
  rw [atEdgeBehind some, atEdge, isEdge, ← endsWord, ends] at edge
  simpa [beginsWord] using edge

theorem quoteNotWord {c : Char} (quote : isQuote c = true) : isWordChar c = false := by
  simp only [isQuote, Bool.or_eq_true, decide_eq_true_eq] at quote
  rcases quote with (rfl | rfl) | rfl <;> decide

theorem classNameBegins {name : Text} (named : isClassName name = true) : beginsWord name = true := by
  cases name with
  | nil => cases named
  | cons c rest =>
    have begins : beginsName c = true := (Bool.and_eq_true_iff.mp named).1
    rw [beginsName, Bool.or_eq_true, decide_eq_true_eq] at begins
    rcases begins with alpha | rfl
    · exact isWordCharOfAlphanum c (by simp [Char.isAlphanum, alpha])
    · exact (by decide : isWordChar '_' = true)

section
variable {name : Text} (begins : beginsWord name = true) (ends : endsWord name = true)
include begins ends

theorem phraseApart {phrase : Text} (form : IsQuotedPhrase name phrase) (front behind : Text) :
    ¬ JoinsWords name (front ++ (phrase ++ behind)) := by
  obtain ⟨opening, before, after, closing, rfl, -, -, -, -, start, stop⟩ := form
  have first : endsWord (opening :: before) = false := edgeBefore begins _ start
  have last : beginsWord (after ++ [closing]) = false := edgeBehind ends (opening :: before) stop
  intro joins
  rcases joins (front ++ opening :: before) (after ++ [closing] ++ behind) (by simp) with word | word
  · rw [endsWord, List.getLast?_append_of_ne_nil front (by simp), ← endsWord, first] at word
    cases word
  · rw [beginsWord, List.head?_append_of_ne_nil _ (by simp), ← beginsWord, last] at word
    cases word

theorem refersApart {script : Text} (refers : Refers name script) : ¬ JoinsWords name script := by
  intro joins
  cases refers with
  | @quoted front _ behind cut form =>
    obtain ⟨opening, closing, rfl, opens, closes⟩ := form
    rcases joins (front ++ [opening]) (closing :: behind) (by simp [cut]) with word | word
    · simp [endsWord, quoteNotWord opens] at word
    · simp [beginsWord, quoteNotWord closes] at word
  | @phrase front start phrase behind cut _ form =>
    refine phraseApart begins ends form (front ++ start) behind ?_
    rwa [cut, ← List.append_assoc] at joins
  | @braces front start _ behind cut _ form =>
    obtain ⟨before, phrase, after, rfl, form, -, -⟩ := form
    refine phraseApart begins ends form (front ++ (start ++ '{' :: before)) (after ++ '}' :: behind) ?_
    rw [cut] at joins
    simpa using joins
  | @member front behind cut edge =>
    rcases joins (front ++ "styles.".toList) behind (by simp [cut]) with word | word
    · rw [endsWord, List.getLast?_append] at word
      cases word
    · rw [edgeBehind ends _ edge] at word
      cases word

end

theorem joinedUnread {name : Text} (begins : beginsWord name = true) (ends : endsWord name = true)
    {script : Text} (joins : JoinsWords name script) : refersTo script name = false :=
  Bool.eq_false_iff.mpr fun refers => refersApart begins ends ((refersIff name script).mp refers) joins

theorem joinedNameUnused {line name : Text} (captured : ruleClass? line = some name)
    (ends : endsWord name = true) {files : List Text} {known : List (Text × Text)} {read : Reader}
    (told : ∀ path ∈ files, ∀ cause, read path ≠ .error (.escape cause))
    (joins : ∀ path ∈ files, ∀ text, readKnown known read path = .ok text → JoinsWords name text)
    (earlier : List Text) :
    (((Checker.ofFiles files known).asked read earlier).2.isUsed read name).1 = .ok false := by
  obtain ⟨rule, -, rfl⟩ := ruleLineOf captured
  have begins := classNameBegins rule.named
  have silent : usedIn (readKnown known read) files rule.name = false := by
    refine Bool.eq_false_iff.mpr fun used => ?_
    obtain ⟨path, listed, text, available, refers⟩ := (usedInIff _ _ _).mp used
    have shown : refersTo text rule.name = true := List.any_eq_true.mpr refers
    rw [joinedUnread begins ends (joins path listed text available)] at shown
    cases shown
  rw [askedVerdict told, silent]

def longerNames : Reader := fun path =>
  .ok (if path = "a.js".toList then "el.className = 'discard nav-cards'".toList else "styles.card_2".toList)

theorem longerNamesUnread :
    ruleClass? ".card \x7b".toList = some "card".toList ∧ endsWord "card".toList = true ∧
    (∀ path ∈ ["a.js".toList, "b.js".toList], ∀ cause, longerNames path ≠ .error (.escape cause)) ∧
    (∀ path ∈ ["a.js".toList, "b.js".toList], ∀ text, readKnown [] longerNames path = .ok text →
      JoinsWords "card".toList text) ∧
    (((Checker.ofFiles ["a.js".toList, "b.js".toList] []).asked longerNames ["nav-cards".toList]).2.isUsed
      longerNames "card".toList).1 = .ok false := by
  have captured : ruleClass? ".card \x7b".toList = some "card".toList := by decide +kernel
  have ends : endsWord "card".toList = true := by decide +kernel
  have told : ∀ path ∈ ["a.js".toList, "b.js".toList], ∀ cause, longerNames path ≠ .error (.escape cause) :=
    fun _ _ _ escaped => by cases escaped
  have joins : ∀ path ∈ ["a.js".toList, "b.js".toList], ∀ text, readKnown [] longerNames path = .ok text →
      JoinsWords "card".toList text := by
    intro path _ text available
    obtain rfl := Except.ok.inj available
    split <;> decide +kernel
  exact ⟨captured, ends, told, joins, joinedNameUnused captured ends told joins _⟩

end SourceSweep.Usage
