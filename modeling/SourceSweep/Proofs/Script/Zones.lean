import SourceSweep.Script.Strip
import SourceSweep.Text.Quoted

/-! A script read as code, literals and comments. What has been read tells the zone in which the next
character stands; parentheses that stand in code are the ones that open and close groups. -/
namespace SourceSweep.Script
open Text

def backtick : Char := '\x60'

/-- A slash and a star may be half of what opens or closes a comment. -/
inductive Zone where
  | code
  | slash
  | literal (quote : Char)
  | escape (quote : Char)
  | lineComment
  | blockComment
  | star
  deriving DecidableEq, Repr

namespace Zone

def isCode : Zone → Bool
  | code | slash => true
  | _ => false

def endsLine (c : Char) : Bool :=
  c = '\n' || c = '\r' || c.toNat = 0x2028 || c.toNat = 0x2029

def fromCode (c : Char) : Zone :=
  if c = apostrophe || c = quoteMark || c = backtick then literal c
  else if c = '/' then slash
  else code

def after (zone : Zone) (c : Char) : Zone :=
  match zone with
  | code => fromCode c
  | slash => if c = '/' then lineComment else if c = '*' then blockComment else fromCode c
  | literal quote => if c = backslash then escape quote else if c = quote then code else literal quote
  | escape quote => literal quote
  | lineComment => if endsLine c then code else lineComment
  | blockComment => if c = '*' then star else blockComment
  | star => if c = '/' then code else if c = '*' then star else blockComment

end Zone

def zoneBehind (text : Text) : Zone := text.foldl Zone.after .code

def closeLength? : Zone → (depth : Nat) → Text → Option Nat
  | _, _, [] => none
  | zone, depth, c :: rest =>
    if zone.isCode && c = '(' then (closeLength? (zone.after c) (depth + 1) rest).map (· + 1)
    else if zone.isCode && c = ')' then
      if depth ≤ 1 then some 1 else (closeLength? (zone.after c) (depth - 1) rest).map (· + 1)
    else (closeLength? (zone.after c) depth rest).map (· + 1)

def openedAfter? (zone : Zone) (opened : Nat) (c : Char) : Option Nat :=
  if zone.isCode then
    if opened = 0 then some 0 else none
  else if c = '(' then some (opened + 1)
  else if c = ')' then
    match opened with
    | 0 => none
    | opened + 1 => some opened
  else some opened

/-- Whether every literal and every comment closes the parentheses that it opens, and no others. -/
def isEven : Zone → (opened : Nat) → Text → Bool
  | _, _, [] => true
  | zone, opened, c :: rest =>
    match openedAfter? zone opened c with
    | some opened => isEven (zone.after c) opened rest
    | none => false

theorem isEvenCons {zone : Zone} {opened : Nat} {c : Char} {rest : Text}
    (even : isEven zone opened (c :: rest) = true) :
    ∃ opened', openedAfter? zone opened c = some opened' ∧ isEven (zone.after c) opened' rest = true := by
  rw [isEven] at even
  split at even
  · rename_i opened' here
    exact ⟨opened', here, even⟩
  · cases even

theorem isEvenFront {zone : Zone} {opened : Nat} {front rest : Text}
    (even : isEven zone opened (front ++ rest) = true) : isEven zone opened front = true := by
  induction front generalizing zone opened with
  | nil => rfl
  | cons c front ih =>
    obtain ⟨opened', here, later⟩ := isEvenCons even
    rw [isEven, here]
    exact ih later

def staysCode (c : Char) : Bool := Zone.slash.after c = .code

theorem afterStaysCode {zone : Zone} (inCode : zone.isCode = true) {c : Char}
    (stays : staysCode c = true) : zone.after c = .code := by
  have behindSlash : Zone.slash.after c = .code := by simpa [staysCode] using stays
  cases zone with
  | slash => exact behindSlash
  | code =>
    simp only [Zone.after] at behindSlash ⊢
    split at behindSlash
    · cases behindSlash
    · split at behindSlash
      · cases behindSlash
      · exact behindSlash
  | _ => cases inCode

theorem blankStaysCode {c : Char} (blank : isBlank c = true) : staysCode c = true := by
  have differ : ∀ d : Char, isBlank d = false → c ≠ d := fun d ink same =>
    absurd (ink.symm.trans (same ▸ blank)) (by decide)
  simp [staysCode, Zone.after, Zone.fromCode, differ '/' (by decide), differ '*' (by decide),
    differ apostrophe (by decide), differ quoteMark (by decide), differ backtick (by decide)]

theorem isEvenBehindCode {zone : Zone} (inCode : zone.isCode = true) {front rest : Text}
    (even : isEven zone 0 (front ++ rest) = true) (stays : front.all staysCode = true) :
    isEven (front.foldl Zone.after zone) 0 rest = true := by
  induction front generalizing zone with
  | nil => exact even
  | cons c front ih =>
    obtain ⟨here, later⟩ := Bool.and_eq_true_iff.mp stays
    have next : isEven (zone.after c) 0 (front ++ rest) = true := by
      simpa [isEven, openedAfter?, inCode] using even
    rw [List.foldl_cons]
    exact ih (by rw [afterStaysCode inCode here]; rfl) next later

def levelAfter (depth : Nat) (c : Char) : Nat :=
  if c = '(' then depth + 1 else if c = ')' then depth - 1 else depth

def Zone.levelAfter (zone : Zone) (depth : Nat) (c : Char) : Nat :=
  if zone.isCode then Script.levelAfter depth c else depth

theorem groupLengthCons {depth length : Nat} {c : Char} {rest : Text}
    (ends : groupLength? depth (c :: rest) = some length) :
    (c = ')' ∧ depth ≤ 1 ∧ length = 1) ∨ ∃ inner, length = inner + 1 ∧ (c = ')' → 1 < depth) ∧
      groupLength? (levelAfter depth c) rest = some inner := by
  rw [groupLength?] at ends
  unfold levelAfter
  by_cases opens : c = '('
  · have other : c ≠ ')' := by rw [opens]; decide
    rw [if_pos opens] at ends ⊢
    split at ends
    · obtain ⟨inner, found, rfl⟩ := Option.map_eq_some_iff.mp ends
      exact .inr ⟨inner, rfl, fun closes => absurd closes other, found⟩
    · cases ends
  · rw [if_neg opens] at ends ⊢
    by_cases closes : c = ')'
    · rw [if_pos closes] at ends ⊢
      split at ends
      · rename_i last
        exact .inl ⟨closes, last, (Option.some.inj ends).symm⟩
      · rename_i more
        obtain ⟨inner, found, rfl⟩ := Option.map_eq_some_iff.mp ends
        exact .inr ⟨inner, rfl, fun _ => Nat.not_le.mp more, found⟩
    · rw [if_neg closes] at ends ⊢
      obtain ⟨inner, found, rfl⟩ := Option.map_eq_some_iff.mp ends
      exact .inr ⟨inner, rfl, fun same => absurd same closes, found⟩

theorem groupLengthLe {depth length : Nat} {text : Text} (ends : groupLength? depth text = some length) :
    length ≤ text.length := by
  induction text generalizing depth length with
  | nil => cases ends
  | cons c rest ih =>
    rcases groupLengthCons ends with ⟨_, _, rfl⟩ | ⟨inner, rfl, _, found⟩
    · exact Nat.succ_le_succ (Nat.zero_le _)
    · exact Nat.succ_le_succ (ih found)

theorem closeLengthCons {zone : Zone} {depth : Nat} {c : Char}
    (more : zone.isCode = true → c = ')' → 1 < depth) (rest : Text) :
    closeLength? zone depth (c :: rest) =
      (closeLength? (zone.after c) (zone.levelAfter depth c) rest).map (· + 1) := by
  unfold Zone.levelAfter levelAfter
  cases inCode : zone.isCode with
  | false => simp [closeLength?, inCode]
  | true =>
    by_cases closes : c = ')'
    · have deeper := more inCode closes
      simp [closeLength?, inCode, closes, Nat.not_le.mpr deeper]
    · simp only [closeLength?, inCode, closes, Bool.true_and, decide_eq_true_eq, if_true, if_false]
      split <;> rfl

/- The depth that is counted is the one in code and, within a literal or comment, what that has
opened itself. -/
theorem levelsAgree {zone : Zone} {depth opened opened' : Nat} {c : Char} (inside : 1 ≤ depth)
    (more : c = ')' → 1 < depth + opened) (here : openedAfter? zone opened c = some opened') :
    (zone.isCode = true → c = ')' → 1 < depth) ∧ 1 ≤ zone.levelAfter depth c ∧
      levelAfter (depth + opened) c = zone.levelAfter depth c + opened' := by
  unfold Zone.levelAfter levelAfter
  cases inCode : zone.isCode with
  | true =>
    obtain ⟨rfl, rfl⟩ : opened = 0 ∧ 0 = opened' := by simpa [openedAfter?, inCode] using here
    refine ⟨fun _ => more, ?_, rfl⟩
    simp only [if_true]
    split
    · omega
    · split
      · rename_i closes
        have := more closes
        omega
      · exact inside
  | false =>
    refine ⟨fun code => absurd code (by decide), inside, ?_⟩
    simp only [openedAfter?, inCode, Bool.false_eq_true, if_false] at here ⊢
    by_cases opens : c = '('
    · rw [if_pos opens] at here ⊢
      cases here
      rfl
    · rw [if_neg opens] at here ⊢
      by_cases closes : c = ')'
      · rw [if_pos closes] at here ⊢
        cases opened with
        | zero => cases here
        | succ opened =>
          cases here
          rfl
      · rw [if_neg closes] at here ⊢
        cases here
        rfl

theorem groupCloses {zone : Zone} {depth opened length : Nat} {text : Text} (inside : 1 ≤ depth)
    (ends : groupLength? (depth + opened) text = some length)
    (even : isEven zone opened (text.take length) = true) : closeLength? zone depth text = some length := by
  induction text generalizing zone depth opened length with
  | nil => cases ends
  | cons c rest ih =>
    rcases groupLengthCons ends with ⟨rfl, last, rfl⟩ | ⟨inner, rfl, more, found⟩
    · obtain ⟨opened', here, _⟩ := isEvenCons even
      have none : opened = 0 := by omega
      have close : depth ≤ 1 := by omega
      cases inCode : zone.isCode with
      | true => simp [closeLength?, inCode, close]
      | false => simp [openedAfter?, inCode, none] at here
    · obtain ⟨opened', here, later⟩ := isEvenCons even
      obtain ⟨deeper, still, levels⟩ := levelsAgree inside more here
      rw [levels] at found
      rw [closeLengthCons deeper, ih still found later]
      rfl

end SourceSweep.Script
