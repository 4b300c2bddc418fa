import SourceSweep.Proofs.Usage.Matched
import SourceSweep.Proofs.Usage.Verdict

/-! What it means that a script refers to a class: one of four forms of text stands in it. The pattern of
an index and that of a class list hold a quoted name, so that they never decide. -/
namespace SourceSweep.Usage
open Text

def IsQuotedName (name text : Text) : Prop := ∃ opening closing,
  text = opening :: (name ++ [closing]) ∧ isQuote opening = true ∧ isQuote closing = true

/-- A text in quotes and without further ones, in which the name stands between two edges of words. -/
def IsQuotedPhrase (name text : Text) : Prop := ∃ opening front behind closing,
  text = opening :: (front ++ (name ++ (behind ++ [closing]))) ∧
    isQuote opening = true ∧ isQuote closing = true ∧
    front.all (!isQuote ·) = true ∧ behind.all (!isQuote ·) = true ∧
    atEdge (opening :: front) (name ++ (behind ++ [closing])) = true ∧
    atEdge (opening :: (front ++ name)) (behind ++ [closing]) = true

def IsAttributeStart (text : Text) : Prop := ∃ gap gap',
  text = "className".toList ++ (gap ++ '=' :: gap') ∧ allBlank gap = true ∧ allBlank gap' = true

/-- A phrase in braces. None closes before the phrase, nor behind it but at the end. -/
def IsPhraseInBraces (name text : Text) : Prop := ∃ front phrase behind,
  text = '{' :: (front ++ (phrase ++ (behind ++ ['}']))) ∧ IsQuotedPhrase name phrase ∧
    front.all (!isCloseBrace ·) = true ∧ behind.all (!isCloseBrace ·) = true

inductive Refers (name script : Text) : Prop where
  | quoted {front quoted behind : Text} (cut : script = front ++ (quoted ++ behind))
      (form : IsQuotedName name quoted)
  | phrase {front start phrase behind : Text} (cut : script = front ++ (start ++ (phrase ++ behind)))
      (begins : IsAttributeStart start) (form : IsQuotedPhrase name phrase)
  | braces {front start braces behind : Text} (cut : script = front ++ (start ++ (braces ++ behind)))
      (begins : IsAttributeStart start) (form : IsPhraseInBraces name braces)
  | member {front behind : Text} (cut : script = front ++ ("styles.".toList ++ (name ++ behind)))
      (ends : atEdge ("styles.".toList ++ name) behind = true)

theorem atEdgeBehind {near : Text} (some : near ≠ []) (far rest : Text) :
    atEdge (far ++ near) rest = atEdge near rest := by
  rw [atEdge, List.getLast?_append_of_ne_nil far some, ← atEdge]

theorem atEdgeAhead {near : Text} (some : near ≠ []) (front far : Text) :
    atEdge front (near ++ far) = atEdge front near := by
  rw [atEdge, List.head?_append_of_ne_nil near some, ← atEdge]

section
variable {name front matched behind : Text}

theorem quotedNameMatches : Matches (quotedName name) front matched behind ↔ IsQuotedName name matched := by
  constructor
  · rintro ⟨_, _, rfl, ⟨opening, rfl, opens⟩, _, _, rfl, among, _, _, rfl, ⟨closing, rfl, closes⟩, rfl⟩
    obtain rfl := List.mem_singleton.mp among
    exact ⟨opening, closing, rfl, opens, closes⟩
  · rintro ⟨opening, closing, rfl, opens, closes⟩
    exact ⟨[opening], _, rfl, ⟨opening, rfl, opens⟩, name, _, rfl, List.mem_singleton_self name,
      [closing], [], rfl, ⟨closing, rfl, closes⟩, rfl⟩

theorem phraseEdges (name front behind before after : Text) (opening closing : Char) :
    atEdge (front ++ [opening] ++ before) (name ++ (after ++ [closing]) ++ behind) =
        atEdge (opening :: before) (name ++ (after ++ [closing])) ∧
      atEdge (front ++ [opening] ++ before ++ name) (after ++ [closing] ++ behind) =
        atEdge (opening :: (before ++ name)) (after ++ [closing]) := by
  constructor
  · rw [atEdgeAhead (by simp), List.append_assoc, atEdgeBehind (by simp)]
    rfl
  · rw [atEdgeAhead (by simp), List.append_assoc, List.append_assoc, atEdgeBehind (by simp)]
    rfl

theorem quotedPhraseMatches :
    Matches (quotedPhrase name) front matched behind ↔ IsQuotedPhrase name matched := by
  constructor
  · rintro ⟨_, _, rfl, ⟨opening, rfl, opens⟩, before, _, rfl, plain, _, _, rfl, ⟨rfl, start⟩, _, _, rfl, among,
      _, _, rfl, ⟨rfl, stop⟩, after, _, rfl, plain', _, _, rfl, ⟨closing, rfl, closes⟩, rfl⟩
    obtain rfl := (List.mem_singleton.mp among).symm
    obtain ⟨first, last⟩ := phraseEdges name front behind before after opening closing
    exact ⟨opening, before, after, closing, by simp, opens, closes, plain, plain',
      first ▸ by simpa using start, last ▸ by simpa using stop⟩
  · rintro ⟨opening, before, after, closing, rfl, opens, closes, plain, plain', start, stop⟩
    obtain ⟨first, last⟩ := phraseEdges name front behind before after opening closing
    exact ⟨[opening], _, rfl, ⟨opening, rfl, opens⟩, before, _, rfl, plain,
      [], _, rfl, ⟨rfl, by simpa using first.trans start⟩, name, _, rfl, List.mem_singleton_self name,
      [], _, rfl, ⟨rfl, by simpa using last.trans stop⟩, after, _, rfl, plain',
      [closing], [], rfl, ⟨closing, rfl, closes⟩, rfl⟩

theorem attributeStartMatches : Matches classAttribute front matched behind ↔ IsAttributeStart matched := by
  constructor
  · rintro ⟨_, _, rfl, token, gap, _, rfl, blank, _, _, rfl, sign, gap', _, rfl, blank', rfl⟩
    obtain rfl := List.mem_singleton.mp token
    obtain rfl := List.mem_singleton.mp sign
    exact ⟨gap, gap', by simp, blank, blank'⟩
  · rintro ⟨gap, gap', rfl, blank, blank'⟩
    exact ⟨"className".toList, _, rfl, List.mem_singleton_self _, gap, _, rfl, blank,
      "=".toList, gap', rfl, List.mem_singleton_self _, gap', [], by simp, blank', rfl⟩

theorem bracesMatch : Matches ([.one isOpenBrace, .many (!isCloseBrace ·)] ++ (quotedPhrase name ++
    [.many (!isCloseBrace ·), .one isCloseBrace])) front matched behind ↔ IsPhraseInBraces name matched := by
  rw [matchesAppend]
  constructor
  · rintro ⟨_, _, rfl, ⟨_, _, rfl, ⟨_, rfl, opens⟩, before, _, rfl, inside, rfl⟩, rest⟩
    obtain ⟨phrase, _, rfl, form, after, _, rfl, inside', _, _, rfl, ⟨_, rfl, closes⟩, rfl⟩ :=
      (matchesAppend _ _ _ _ _).mp rest
    obtain rfl := of_decide_eq_true opens
    obtain rfl := of_decide_eq_true closes
    exact ⟨before, phrase, after, by simp, quotedPhraseMatches.mp form, inside, inside'⟩
  · rintro ⟨before, phrase, after, rfl, form, inside, inside'⟩
    refine ⟨'{' :: before, phrase ++ (after ++ ['}']), by simp,
      ⟨['{'], before, rfl, ⟨'{', rfl, rfl⟩, before, [], by simp, inside, rfl⟩, (matchesAppend _ _ _ _ _).mpr ?_⟩
    exact ⟨phrase, after ++ ['}'], rfl, quotedPhraseMatches.mpr form,
      after, ['}'], rfl, inside', ['}'], [], rfl, ⟨'}', rfl, rfl⟩, rfl⟩

end

section
variable (name script : Text)

theorem quotedNameFound : found (quotedName name) script = true ↔
    ∃ front quoted behind, script = front ++ (quoted ++ behind) ∧ IsQuotedName name quoted := by
  simp only [foundIff, quotedNameMatches]

theorem attributeTextFound : found (attributeText name) script = true ↔
    ∃ front start phrase behind, script = front ++ (start ++ (phrase ++ behind)) ∧
      IsAttributeStart start ∧ IsQuotedPhrase name phrase := by
  simp only [attributeText, foundAppend, attributeStartMatches, quotedPhraseMatches]

theorem attributeExpressionFound : found (attributeExpression name) script = true ↔
    ∃ front start braces behind, script = front ++ (start ++ (braces ++ behind)) ∧
      IsAttributeStart start ∧ IsPhraseInBraces name braces := by
  rw [attributeExpression, List.append_assoc, List.append_assoc]
  simp only [foundAppend classAttribute, attributeStartMatches, bracesMatch]

theorem moduleMemberFound : found (moduleMember name) script = true ↔
    ∃ front behind, script = front ++ ("styles.".toList ++ (name ++ behind)) ∧
      atEdge ("styles.".toList ++ name) behind = true := by
  have some : "styles.".toList ++ name ≠ [] := List.append_ne_nil_of_left_ne_nil (by decide) name
  rw [foundIff]
  constructor
  · rintro ⟨front, _, behind, rfl, _, _, rfl, token, _, _, rfl, among, _, _, rfl, ⟨rfl, ends⟩, rfl⟩
    obtain rfl := List.mem_singleton.mp token
    obtain rfl := List.mem_singleton.mp among
    refine ⟨front, behind, by simp, ?_⟩
    rwa [List.append_assoc, atEdgeBehind some] at ends
  · rintro ⟨front, behind, rfl, ends⟩
    rw [← atEdgeBehind some front, ← List.append_assoc] at ends
    exact ⟨front, "styles.".toList ++ name, behind, by simp, "styles.".toList, name, rfl,
      List.mem_singleton_self _, name, [], by simp, List.mem_singleton_self _, [], [], rfl,
      ⟨rfl, ends⟩, rfl⟩

theorem moduleIndexQuoted (within : found (moduleIndex name) script = true) :
    found (quotedName name) script = true := by
  rw [moduleIndex, List.append_assoc] at within
  exact foundInside within

theorem classListQuoted (within : found (classListCall name) script = true) :
    found (quotedName name) script = true := by
  rw [classListCall, List.append_assoc] at within
  exact foundInside within

end

theorem refersByFour (name script : Text) : refersTo script name =
    [quotedName name, attributeText name, attributeExpression name, moduleMember name].any (found · script) := by
  rw [Bool.eq_iff_iff]
  simp only [refersTo, references, List.any_cons, List.any_nil, Bool.or_false, Bool.or_eq_true]
  constructor
  · rintro (quoted | text | expression | member | index | call)
    · exact .inl quoted
    · exact .inr (.inl text)
    · exact .inr (.inr (.inl expression))
    · exact .inr (.inr (.inr member))
    · exact .inl (moduleIndexQuoted name script index)
    · exact .inl (classListQuoted name script call)
  · rintro (quoted | text | expression | member)
    · exact .inl quoted
    · exact .inr (.inl text)
    · exact .inr (.inr (.inl expression))
    · exact .inr (.inr (.inr (.inl member)))

theorem refersIff (name script : Text) : refersTo script name = true ↔ Refers name script := by
  simp only [refersByFour, List.any_cons, List.any_nil, Bool.or_false, Bool.or_eq_true, quotedNameFound,
    attributeTextFound, attributeExpressionFound, moduleMemberFound]
  constructor
  · rintro (⟨_, _, _, cut, form⟩ | ⟨_, _, _, _, cut, begins, form⟩ | ⟨_, _, _, _, cut, begins, form⟩ | ⟨_, _, cut, ends⟩)
    · exact .quoted cut form
    · exact .phrase cut begins form
    · exact .braces cut begins form
    · exact .member cut ends
  · rintro (⟨cut, form⟩ | ⟨cut, begins, form⟩ | ⟨cut, begins, form⟩ | ⟨cut, ends⟩)
    · exact .inl ⟨_, _, _, cut, form⟩
    · exact .inr (.inl ⟨_, _, _, _, cut, begins, form⟩)
    · exact .inr (.inr (.inl ⟨_, _, _, _, cut, begins, form⟩))
    · exact .inr (.inr (.inr ⟨_, _, cut, ends⟩))

theorem loneScriptVerdict (path name script : Text) :
    ((Checker.ofFiles [path] []).isUsed (fun _ => .ok script) name).1 = .ok (refersTo script name) := by
  have faithful := Checker.faithfulStart [path] [] fun _ => .ok script
  rw [(Checker.isUsedFaithful faithful name).1]
  change (if refersTo script name then _ else _) = _
  cases refersTo script name <;> rfl

theorem searchMeaning (path name script : Text) :
    ((Checker.ofFiles [path] []).isUsed (fun _ => .ok script) name).1 = .ok (refersTo script name) ∧
    (refersTo script name = true ↔ Refers name script) ∧
    refersTo script name =
      [quotedName name, attributeText name, attributeExpression name, moduleMember name].any (found · script) ∧
    (references name).map (fun pattern => (firstMatch? pattern 0 none script).isSome) =
      (references name).map (found · script) :=
  ⟨loneScriptVerdict path name script, refersIff name script, refersByFour name script,
    List.map_congr_left fun pattern _ => firstMatchFound pattern 0 none script⟩

end SourceSweep.Usage
