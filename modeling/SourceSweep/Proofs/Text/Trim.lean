import Mathlib.Data.List.DropRight
import SourceSweep.Text.Basic
import SourceSweep.Text.Word

/-! Texts without the blanks at their ends. What a trimmed text ends in is the last character of the
whole that is not blank. -/
namespace SourceSweep.Text

def trim (text : Text) : Text := trimEnd (skipBlanks text)

def inked (text : Text) : Text := text.filter (!isBlank ·)

theorem inkedCons {c : Char} (ink : isBlank c = false) (rest : Text) : inked (c :: rest) = c :: inked rest := by
  simp [inked, ink]

theorem inkedBlankCons {c : Char} (blank : isBlank c = true) (rest : Text) : inked (c :: rest) = inked rest := by
  simp [inked, blank]

theorem blankNotWord {c : Char} (blank : isBlank c = true) : isWordChar c = false := by
  have apart : ∀ span ∈ blankSpans, ∀ k < span.2 + 1 - span.1,
      isWordChar (Char.ofNat (span.1 + k)) = false := by decide +kernel
  obtain ⟨span, mem, within⟩ := List.any_eq_true.mp blank
  obtain ⟨low, high⟩ : span.1 ≤ c.toNat ∧ c.toNat ≤ span.2 := by simpa using within
  have here := apart span mem (c.toNat - span.1) (by omega)
  rwa [Nat.add_sub_cancel' low, Char.ofNat_toNat] at here

theorem headDropBlanks (text : Text) : (text.dropWhile isBlank).head? = (inked text).head? := by
  induction text with
  | nil => rfl
  | cons c rest ih =>
    cases blank : isBlank c with
    | true => simpa [inkedBlankCons blank, blank] using ih
    | false => simp [inkedCons blank, blank]

theorem trimEndLast (text : Text) : (trimEnd text).getLast? = (inked text).getLast? := by
  rw [trimEnd, List.getLast?_reverse, headDropBlanks, inked, List.filter_reverse, List.head?_reverse]
  rfl

theorem inkedBlank {text : Text} (blank : allBlank text = true) : inked text = [] := by
  rw [inked, List.filter_eq_nil_iff]
  intro c mem
  simpa using List.all_eq_true.mp blank c mem

theorem inkedAppend (front rest : Text) : inked (front ++ rest) = inked front ++ inked rest :=
  List.filter_append ..

theorem inkedSplit {text : Text} (some : inked text ≠ []) :
    ∃ front c rest, text = front ++ c :: rest ∧ isBlank c = false := by
  obtain ⟨c, mem⟩ := List.exists_mem_of_ne_nil _ some
  obtain ⟨within, ink⟩ := List.mem_filter.mp mem
  obtain ⟨front, rest, split⟩ := List.append_of_mem within
  exact ⟨front, c, rest, split, by simpa using ink⟩

theorem skipBlanksBehind {gap : Text} (blank : allBlank gap = true) (rest : Text) :
    skipBlanks (gap ++ rest) = skipBlanks rest :=
  List.dropWhile_append_of_pos (List.all_eq_true.mp blank)

theorem skipBlanksTwice (text : Text) : skipBlanks (skipBlanks text) = skipBlanks text :=
  List.dropWhile_idempotent ..

theorem skipBlanksHead {text rest : Text} {c : Char} (ahead : skipBlanks text = c :: rest) :
    isBlank c = false := by
  have cut : text.dropWhile isBlank = c :: rest := ahead
  have some : text.dropWhile isBlank ≠ [] := by rw [cut]; exact List.cons_ne_nil c rest
  simpa [cut] using List.head_dropWhile_not isBlank some

theorem trimEndBefore {gap : Text} (blank : allBlank gap = true) {text : Text}
    (solid : text.getLast?.all (!isBlank ·) = true) : trimEnd (text ++ gap) = text := by
  have gone : gap.reverse.dropWhile isBlank = [] := by
    simpa [List.dropWhile_eq_nil_iff] using List.all_eq_true.mp blank
  rw [trimEnd, List.reverse_append, List.dropWhile_append, gone, List.isEmpty_nil, if_pos rfl]
  cases back : text.reverse with
  | nil => simpa using back.symm
  | cons c front =>
    have whole : text = front.reverse ++ [c] := by simpa using congrArg List.reverse back
    have ink : isBlank c = false := by simpa [whole] using solid
    simp [ink, whole]

end SourceSweep.Text
