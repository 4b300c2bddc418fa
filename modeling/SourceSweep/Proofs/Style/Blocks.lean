import SourceSweep.Proofs.Style.RuleLine
import SourceSweep.Proofs.Text.Lines
import SourceSweep.Proofs.Text.Trim

/-! A stylesheet read character by character: its blocks, matched brace by brace, and the rules that
stand outside all blocks. -/
namespace SourceSweep.Style
open Text

/-- How many blocks are open behind a text, if it closes none but those open before and its own. -/
def openBehind? : (before : Nat) → Text → Option Nat
  | before, [] => some before
  | before, c :: rest =>
    if c = '{' then openBehind? (before + 1) rest
    else if c = '}' then
      match before with
      | 0 => none
      | before + 1 => openBehind? before rest
    else openBehind? before rest

def isBalanced (text : Text) : Bool := openBehind? 0 text = some 0

/-- A top-level rule of a stylesheet: the text since the last top-level block or semicolon, and the
block that follows. -/
structure TopRule (css : Text) where
  before : Text
  prelude : Text
  inner : Text
  behind : Text
  whole : css = before ++ (prelude ++ ('{' :: inner ++ ['}']) ++ behind)
  outside : isBalanced before = true
  fresh : before.getLast?.all (fun c => c = '}' || c = ';') = true
  simple : prelude.all (fun c => notBrace c && c ≠ ';') = true
  matched : isBalanced inner = true

namespace TopRule
variable {css : Text} (rule : TopRule css)

def block : Text := '{' :: rule.inner ++ ['}']

def selector : Text := skipBlanks rule.prelude

def text : Text := rule.selector ++ rule.block

def front : Text := rule.before ++ rule.prelude.takeWhile isBlank

end TopRule

theorem openBehindAppend (before : Nat) (front rest : Text) :
    openBehind? before (front ++ rest) = (openBehind? before front).bind (openBehind? · rest) := by
  induction front generalizing before with
  | nil => rfl
  | cons c front ih =>
    simp only [List.cons_append, openBehind?]
    split
    · exact ih (before + 1)
    · split
      · cases before with
        | zero => rfl
        | succ before => exact ih before
      · exact ih before

theorem openBehindPlain {text : Text} (plain : text.all notBrace = true) (before : Nat) :
    openBehind? before text = some before := by
  induction text with
  | nil => rfl
  | cons c rest ih =>
    obtain ⟨here, later⟩ := Bool.and_eq_true_iff.mp plain
    obtain ⟨notOpen, notClose⟩ : c ≠ '{' ∧ c ≠ '}' := by simpa [notBrace] using here
    simpa only [openBehind?, if_neg notOpen, if_neg notClose] using ih later

theorem balancedPlain {text : Text} (plain : text.all notBrace = true) : isBalanced text = true := by
  simp [isBalanced, openBehindPlain plain]

theorem openBehindShift {before after : Nat} {text : Text} (ends : openBehind? before text = some after)
    (more : Nat) : openBehind? (before + more) text = some (after + more) := by
  induction text generalizing before with
  | nil => cases ends; rfl
  | cons c rest ih =>
    simp only [openBehind?] at ends ⊢
    split
    · rename_i opens
      rw [if_pos opens] at ends
      simpa only [Nat.add_right_comm] using ih ends
    · rename_i notOpen
      rw [if_neg notOpen] at ends
      split
      · rename_i closes
        rw [if_pos closes] at ends
        cases before with
        | zero => cases ends
        | succ before => simpa only [Nat.add_right_comm] using ih ends
      · rename_i notClose
        rw [if_neg notClose] at ends
        exact ih ends

theorem openBehindBalance {before after : Nat} {text : Text}
    (ends : openBehind? before text = some after) :
    (after : Int) = before + braceBalance text := by
  induction text generalizing before with
  | nil => cases ends; simp [braceBalance]
  | cons c rest ih =>
    rw [show c :: rest = [c] ++ rest from rfl, braceBalanceAppend]
    simp only [openBehind?] at ends
    split at ends
    · rename_i opens
      have step : braceBalance [c] = 1 := by rw [opens]; rfl
      have := ih ends
      omega
    · rename_i notOpen
      split at ends
      · rename_i closes
        have step : braceBalance [c] = -1 := by rw [closes]; rfl
        cases before with
        | zero => cases ends
        | succ before => have := ih ends; omega
      · rename_i notClose
        have step : braceBalance [c] = 0 := braceBalanceFree (by simp [notBrace, notOpen, notClose])
        have := ih ends
        omega

theorem balancedAppend {front rest : Text} (first : isBalanced front = true) :
    isBalanced (front ++ rest) = isBalanced rest := by
  have ends : openBehind? 0 front = some 0 := by simpa [isBalanced] using first
  simp [isBalanced, openBehindAppend, ends]

theorem openWithinBlock {inner first last : Text} (matched : isBalanced inner = true)
    (cut : '{' :: inner ++ ['}'] = first ++ last) (some : first ≠ []) (more : last ≠ []) :
    ∃ depth, openBehind? 0 first = Option.some depth ∧ 0 < depth := by
  obtain ⟨c, first, rfl⟩ := List.exists_cons_of_ne_nil some
  obtain ⟨last, d, rfl⟩ := (List.eq_nil_or_concat last).resolve_left more
  obtain ⟨rfl, within⟩ : '{' = c ∧ inner ++ ['}'] = (first ++ last) ++ [d] := by simpa using cut
  obtain ⟨rfl, _⟩ := List.append_inj' within rfl
  have ends : openBehind? 0 (first ++ last) = Option.some 0 := by simpa [isBalanced] using matched
  rw [openBehindAppend] at ends
  obtain ⟨depth, behind, _⟩ := Option.bind_eq_some_iff.mp ends
  exact ⟨depth + 1, by simpa [openBehind?] using openBehindShift behind 1, Nat.succ_pos depth⟩

end SourceSweep.Style
