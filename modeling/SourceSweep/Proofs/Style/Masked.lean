import SourceSweep.Proofs.Style.Stays
import SourceSweep.Text.Quoted

/-! A stylesheet read as code, comments and string literals, beside the same stylesheet with letters in
place of what its comments and literals hold. -/
namespace SourceSweep.Style
open Text

inductive Mark where
  | single
  | double
  deriving DecidableEq, Repr

def Mark.char : Mark → Char
  | single => apostrophe
  | double => quoteMark

/-- What has been read of a stylesheet. A slash and a star may be half of what opens or closes a comment. -/
inductive Zone where
  | code
  | slash
  | escape
  | comment
  | star
  | literal (mark : Mark)
  | literalEscape (mark : Mark)
  deriving DecidableEq, Repr

namespace Zone

def isCode : Zone → Bool
  | code | slash | escape => true
  | _ => false

def fromCode (c : Char) : Zone :=
  if c = '/' then slash
  else if c = backslash then escape
  else if c = apostrophe then literal .single
  else if c = quoteMark then literal .double
  else code

def after (zone : Zone) (c : Char) : Zone :=
  match zone with
  | code => fromCode c
  | slash => if c = '*' then comment else fromCode c
  | escape => code
  | comment => if c = '*' then star else comment
  | star => if c = '/' then code else if c = '*' then star else comment
  | literal mark =>
    if c = backslash then literalEscape mark else if c = mark.char then code else literal mark
  | literalEscape mark => literal mark

def behindLine (zone : Zone) (line : Text) : Zone := (line.foldl after zone).after '\n'

def hides (zone : Zone) (c : Char) (next : Option Char) : Bool :=
  match zone with
  | comment => !(c = '*' && next = some '/')
  | star => c ≠ '/' && !(c = '*' && next = some '/')
  | literal mark => c ≠ mark.char
  | literalEscape _ => true
  | _ => false

end Zone

def endsLine (c : Char) : Bool := c = '\n' || c = '\r' || c = '\x0c'

/-- Whether the second text is the first with letters for the characters inside its comments and
literals. Line breaks stay. -/
def isMasked : Zone → Text → Text → Bool
  | _, [], [] => true
  | zone, c :: rest, d :: rest' =>
    (if zone.hides c rest.head? && !endsLine c then isWordChar d else d = c) &&
      isMasked (zone.after c) rest rest'
  | _, _, _ => false

namespace Zone

theorem hidesNotCode {zone : Zone} {c : Char} {next : Option Char} (hidden : zone.hides c next = true) :
    zone.isCode = false ∧ (zone.after c).isCode = false := by
  cases zone with
  | comment =>
    simp only [after]
    split <;> exact ⟨rfl, rfl⟩
  | star =>
    have other : c ≠ '/' := by
      simp only [hides, Bool.and_eq_true, decide_eq_true_eq] at hidden
      exact hidden.1
    simp only [after, if_neg other]
    split <;> exact ⟨rfl, rfl⟩
  | literal mark =>
    have other : c ≠ mark.char := by simpa [hides] using hidden
    simp only [after, if_neg other]
    split <;> exact ⟨rfl, rfl⟩
  | literalEscape mark => exact ⟨rfl, rfl⟩
  | _ => cases hidden

theorem hidesAtEnd (zone : Zone) (c : Char) : zone.hides c (some '\n') = zone.hides c none := by
  cases zone <;> simp [hides]

end Zone

def staysCode (c : Char) : Bool :=
  c ≠ '/' && c ≠ '*' && c ≠ backslash && c ≠ apostrophe && c ≠ quoteMark

theorem afterStaysCode {zone : Zone} (inCode : zone.isCode = true) {c : Char}
    (stays : staysCode c = true) : zone.after c = .code := by
  simp only [staysCode, Bool.and_eq_true, decide_eq_true_eq] at stays
  obtain ⟨⟨⟨⟨slash, star⟩, backslash⟩, single⟩, double⟩ := stays
  cases zone <;> simp_all [Zone.isCode, Zone.after, Zone.fromCode]

theorem blankStaysCode {c : Char} (blank : isBlank c = true) : staysCode c = true := by
  have differ : ∀ d : Char, isBlank d = false → c ≠ d := fun d ink same =>
    absurd (ink.symm.trans (same ▸ blank)) (by decide)
  simp [staysCode, differ '/' (by decide), differ '*' (by decide), differ backslash (by decide),
    differ apostrophe (by decide), differ quoteMark (by decide)]

theorem blankKeepsZone (zone : Zone) {c : Char} (blank : isBlank c = true) :
    (zone.after c).isCode = zone.isCode := by
  cases inCode : zone.isCode with
  | true => rw [afterStaysCode inCode (blankStaysCode blank)]; rfl
  | false =>
    have differ : ∀ d : Char, isBlank d = false → c ≠ d := fun d ink same =>
      absurd (ink.symm.trans (same ▸ blank)) (by decide)
    cases zone with
    | comment => simp [Zone.after, Zone.isCode, differ '*' (by decide)]
    | star => simp [Zone.after, Zone.isCode, differ '*' (by decide), differ '/' (by decide)]
    | literal mark =>
      have other : c ≠ mark.char := differ _ (by cases mark <;> decide)
      simp [Zone.after, Zone.isCode, differ backslash (by decide), other]
    | literalEscape mark => rfl
    | _ => cases inCode

theorem blanksKeepZone (zone : Zone) {gap : Text} (blank : allBlank gap = true) :
    (gap.foldl Zone.after zone).isCode = zone.isCode := by
  induction gap generalizing zone with
  | nil => rfl
  | cons c gap ih =>
    obtain ⟨here, later⟩ := Bool.and_eq_true_iff.mp blank
    rw [List.foldl_cons, ih _ later, blankKeepsZone zone here]

theorem hidesPlain (zone : Zone) {c : Char} (stays : staysCode c = true) (next : Option Char) :
    zone.hides c next = !zone.isCode := by
  simp only [staysCode, Bool.and_eq_true, decide_eq_true_eq] at stays
  obtain ⟨⟨⟨⟨slash, star⟩, _⟩, single⟩, double⟩ := stays
  cases zone with
  | literal mark => cases mark <;> simp [Zone.hides, Zone.isCode, Mark.char, single, double]
  | _ => simp [Zone.hides, Zone.isCode, slash, star]

inductive MaskedChar (zone : Zone) (next : Option Char) (c : Char) : Char → Prop where
  | stays (seen : zone.hides c next = false ∨ endsLine c = true) : MaskedChar zone next c c
  | letter {d} (hidden : zone.hides c next = true) (within : endsLine c = false)
      (word : isWordChar d = true) : MaskedChar zone next c d

theorem maskedCons {zone : Zone} {c : Char} {rest masked : Text}
    (mask : isMasked zone (c :: rest) masked = true) : ∃ d rest', masked = d :: rest' ∧
      MaskedChar zone rest.head? c d ∧ isMasked (zone.after c) rest rest' = true := by
  cases masked with
  | nil => cases mask
  | cons d rest' =>
    obtain ⟨here, later⟩ := Bool.and_eq_true_iff.mp mask
    refine ⟨d, rest', rfl, ?_, later⟩
    split at here
    · rename_i hidden
      simp only [Bool.and_eq_true, Bool.not_eq_true'] at hidden
      exact .letter hidden.1 hidden.2 here
    · rename_i seen
      obtain rfl : d = c := by simpa using here
      refine .stays ?_
      cases hides : zone.hides d rest.head? with
      | false => exact .inl rfl
      | true => exact .inr (by simpa [hides] using seen)

theorem MaskedChar.inCode {zone : Zone} {next : Option Char} {c d : Char}
    (here : MaskedChar zone next c d) (inCode : zone.isCode = true) : d = c := by
  cases here with
  | stays => rfl
  | letter hidden => exact absurd (inCode.symm.trans (Zone.hidesNotCode hidden).1) (by decide)

section
variable {zone : Zone} (inCode : zone.isCode = true)
include inCode

theorem maskedFront {front rest masked : Text} (stays : front.all staysCode = true)
    (mask : isMasked zone (front ++ rest) masked = true) : ∃ rest', masked = front ++ rest' ∧
      isMasked (front.foldl Zone.after zone) rest rest' = true := by
  induction front generalizing zone masked with
  | nil => exact ⟨masked, rfl, mask⟩
  | cons c front ih =>
    obtain ⟨here, later⟩ := Bool.and_eq_true_iff.mp stays
    obtain ⟨d, masked, rfl, same, onward⟩ := maskedCons mask
    obtain rfl := same.inCode inCode
    obtain ⟨rest', rfl, ends⟩ := ih (by rw [afterStaysCode inCode here]; rfl) later onward
    exact ⟨rest', rfl, ends⟩

theorem maskedFrontBack {front rest' text : Text} (stays : front.all staysCode = true)
    (mask : isMasked zone text (front ++ rest') = true) : ∃ rest, text = front ++ rest ∧
      isMasked (front.foldl Zone.after zone) rest rest' = true := by
  induction front generalizing zone text with
  | nil => exact ⟨text, rfl, mask⟩
  | cons d front ih =>
    obtain ⟨here, later⟩ := Bool.and_eq_true_iff.mp stays
    cases text with
    | nil => cases mask
    | cons c text =>
      obtain ⟨_, _, split, same, onward⟩ := maskedCons mask
      cases split
      obtain rfl := same.inCode inCode
      obtain ⟨rest, rfl, ends⟩ := ih (by rw [afterStaysCode inCode here]; rfl) later onward
      exact ⟨rest, rfl, ends⟩

theorem maskedBlank {rest rest' : Text} (mask : isMasked zone rest rest' = true) :
    allBlank rest' = allBlank rest := by
  have spread : ∀ {text : Text}, allBlank text = true → text.all staysCode = true := fun blank =>
    List.all_eq_true.mpr fun c mem => blankStaysCode (List.all_eq_true.mp blank c mem)
  refine Bool.eq_iff_iff.mpr ⟨fun blank => ?_, fun blank => ?_⟩
  · obtain ⟨text, rfl, ends⟩ := maskedFrontBack inCode (spread blank) ((List.append_nil rest').symm ▸ mask)
    cases text with
    | nil => rwa [List.append_nil]
    | cons c text => cases ends
  · obtain ⟨text, rfl, ends⟩ := maskedFront inCode (spread blank) ((List.append_nil rest).symm ▸ mask)
    cases text with
    | nil => rwa [List.append_nil]
    | cons c text => cases ends

end

theorem maskedCount {zone : Zone} {text masked : Text} (mask : isMasked zone text masked = true)
    {c : Char} (apart : isWordChar c = false) : masked.count c ≤ text.count c := by
  induction text generalizing zone masked with
  | nil =>
    cases masked with
    | nil => exact Nat.le_refl 0
    | cons d masked => cases mask
  | cons first rest ih =>
    obtain ⟨d, masked, rfl, here, later⟩ := maskedCons mask
    have bound := ih later
    cases here with
    | stays => simpa [List.count_cons] using bound
    | letter hidden within word =>
      have other : d ≠ c := fun same => absurd (apart.symm.trans (same ▸ word)) (by decide)
      rw [List.count_cons_of_ne other]
      exact Nat.le_trans bound (List.count_le_count_cons)

theorem isBodyEndCons (c : Char) (rest : Text) : isBodyEnd (c :: rest) =
    if c = '{' then false else if c = '}' then allBlank rest else isBodyEnd rest := by
  unfold isBodyEnd
  by_cases opens : c = '{'
  · simp [opens, notBrace]
  · by_cases closes : c = '}'
    · simp [closes, notBrace]
    · simp [opens, closes, notBrace]

theorem maskedBodyEnd {zone : Zone} {text masked : Text} (mask : isMasked zone text masked = true)
    (opens : masked.count '{' = text.count '{') (closes : masked.count '}' = text.count '}') :
    isBodyEnd masked = isBodyEnd text := by
  induction text generalizing zone masked with
  | nil =>
    cases masked with
    | nil => rfl
    | cons d masked => cases mask
  | cons c rest ih =>
    obtain ⟨d, masked, rfl, here, later⟩ := maskedCons mask
    rw [isBodyEndCons, isBodyEndCons]
    cases here with
    | stays seen =>
      rw [List.count_cons, List.count_cons, Nat.add_right_cancel_iff] at opens closes
      rw [ih later opens closes]
      by_cases brace : c = '}'
      · subst brace
        -- A brace that was not masked stands in code, and so do the blanks behind it.
        have shown : zone.hides '}' rest.head? = false := seen.resolve_right (by decide)
        have inCode : zone.isCode = true := by
          rw [hidesPlain zone (by decide)] at shown
          simpa using shown
        have behind : (zone.after '}').isCode = true := by
          rw [afterStaysCode inCode (by decide)]
          rfl
        simp [maskedBlank behind later]
      · simp [brace]
    | letter hidden within word =>
      have notOpen : d ≠ '{' := fun same => absurd (same ▸ word) (by decide)
      have notClose : d ≠ '}' := fun same => absurd (same ▸ word) (by decide)
      have fewerOpen := maskedCount later (show isWordChar '{' = false by decide)
      have fewerClose := maskedCount later (show isWordChar '}' = false by decide)
      have stillNotOpen : c ≠ '{' := by
        rintro rfl
        rw [List.count_cons_of_ne notOpen, List.count_cons_self] at opens
        omega
      have stillNotClose : c ≠ '}' := by
        rintro rfl
        rw [List.count_cons_of_ne notClose, List.count_cons_self] at closes
        omega
      rw [List.count_cons_of_ne notOpen, List.count_cons_of_ne stillNotOpen] at opens
      rw [List.count_cons_of_ne notClose, List.count_cons_of_ne stillNotClose] at closes
      simp [notOpen, notClose, stillNotOpen, stillNotClose, ih later opens closes]

theorem braceCounts {line line' : Text} (even : braceBalance line' = braceBalance line)
    (opens : line'.count '{' = line.count '{') : line'.count '}' = line.count '}' := by
  unfold braceBalance at even
  omega

theorem selectorStaysCode (rule : RuleLine) : (rule.selector ++ ['{']).all staysCode = true := by
  refine List.all_eq_true.mpr fun c mem => ?_
  have differ : ∀ d : Char, isBlank d = false → d ≠ '.' → continuesName d = false → d ≠ '{' → c ≠ d := by
    rintro d ink dot name brace rfl
    rcases List.mem_append.mp mem with mem | mem
    · exact rule.selectorLacks ink dot name mem
    · exact brace (List.mem_singleton.mp mem)
  simp [staysCode, differ '/' (by decide) (by decide) (by decide) (by decide),
    differ '*' (by decide) (by decide) (by decide) (by decide),
    differ backslash (by decide) (by decide) (by decide) (by decide),
    differ apostrophe (by decide) (by decide) (by decide) (by decide),
    differ quoteMark (by decide) (by decide) (by decide) (by decide)]

end SourceSweep.Style
