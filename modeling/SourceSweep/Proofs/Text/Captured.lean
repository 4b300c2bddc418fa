import SourceSweep.Proofs.Text.Form

/-! Forms told by the texts that they take, and matches of which a part is captured. For what a form takes
at all the order in which its ways are tried does not count. -/
namespace SourceSweep.Text
open Usage (Spot)

structure Capture where
  text : Text
  length : Nat

namespace Form

/-- The matches of three forms in a row, of which the second one is captured, in the order in which they are
tried. -/
def captures (lead group tail : Form) (spot : Spot) : List Capture :=
  (lead.ways spot).flatMap fun skipped =>
    let opening := onward spot skipped
    (group.ways opening).flatMap fun taken =>
      (tail.ways (onward opening taken)).map fun more => ⟨opening.rest.take taken, skipped + taken + more⟩

/-- What is captured by the first match at each place, from left to right, when `pending` characters of the
match found last are still to be passed over. -/
def capturedAfter (found : Spot → List Capture) : (pending : Nat) → (before : Option Char) → Text → List Text
  | _, _, [] => []
  | pending + 1, _, c :: rest => capturedAfter found pending (some c) rest
  | 0, before, c :: rest =>
    match (found ⟨before, c :: rest⟩).head? with
    | some ⟨taken, length + 1⟩ => taken :: capturedAfter found length (some c) rest
    | _ => capturedAfter found 0 (some c) rest

/-- A form that takes the texts of a language and no others, whatever stands around them. -/
def Reads (form : Form) (language : Text → Prop) : Prop :=
  ∀ before taken behind, taken.length ∈ form.ways ⟨before, taken ++ behind⟩ ↔ language taken

theorem onwardBehind (before : Option Char) (taken behind : Text) :
    onward ⟨before, taken ++ behind⟩ taken.length = ⟨taken.getLast?.or before, behind⟩ := by
  simp [onward, Usage.Spot.past]

theorem Reads.ways {form : Form} {language : Text → Prop} (reads : form.Reads language) {before : Option Char}
    {text : Text} {length : Nat} : length ∈ form.ways ⟨before, text⟩ ↔
      ∃ taken behind, text = taken ++ behind ∧ taken.length = length ∧ language taken := by
  constructor
  · intro mem
    have size : (text.take length).length = length :=
      List.length_take_of_le (waysWithin form ⟨before, text⟩ length mem)
    refine ⟨text.take length, text.drop length, (List.take_append_drop length text).symm, size, ?_⟩
    rwa [← reads before _ (text.drop length), List.take_append_drop, size]
  · rintro ⟨taken, behind, rfl, rfl, fits⟩
    exact (reads before taken behind).mpr fits

theorem Reads.congr {form : Form} {language other : Text → Prop} (reads : form.Reads language)
    (same : ∀ taken, language taken ↔ other taken) : form.Reads other :=
  fun before taken behind => (reads before taken behind).trans (same taken)

theorem readsOne (fits : Char → Bool) : (one fits).Reads fun taken => ∃ c, taken = [c] ∧ fits c = true := by
  intro before taken behind
  rw [waysOne]
  cases taken with
  | nil =>
    split <;> simp
  | cons c rest => cases fit : fits c <;> cases rest <;> simp [fit]

theorem readsText (literal : Text) : (text literal).Reads (· = literal) := by
  intro before taken behind
  rw [waysText]
  constructor
  · intro mem
    split at mem
    · rename_i begins
      obtain ⟨rest, whole⟩ := List.isPrefixOf_iff_prefix.mp begins
      exact List.append_inj_left whole.symm (List.mem_singleton.mp mem)
    · cases mem
  · rintro rfl
    simp

theorem readsBoth {first second : Form} {language other : Text → Prop} (ahead : first.Reads language)
    (behind : second.Reads other) : (both first second).Reads fun taken =>
      ∃ front back, taken = front ++ back ∧ language front ∧ other back := by
  intro before taken rest
  rw [waysBoth]
  constructor
  · intro mem
    obtain ⟨_, here, later⟩ := List.mem_flatMap.mp mem
    obtain ⟨front, tail, cut, rfl, fits⟩ := ahead.ways.mp here
    obtain ⟨_, among, size⟩ := List.mem_map.mp later
    rw [cut, onwardBehind] at among
    obtain ⟨back, left, rfl, rfl, fits'⟩ := behind.ways.mp among
    refine ⟨front, back, ?_, fits, fits'⟩
    rw [← List.append_assoc] at cut
    exact List.append_inj_left cut (by simpa using size.symm)
  · rintro ⟨front, back, rfl, fits, fits'⟩
    rw [List.append_assoc]
    refine List.mem_flatMap.mpr ⟨front.length, (ahead before front (back ++ rest)).mpr fits, ?_⟩
    rw [onwardBehind]
    exact List.mem_map.mpr ⟨back.length, (behind _ back rest).mpr fits', List.length_append.symm⟩

theorem readsMaybe {form : Form} {language : Text → Prop} (reads : form.Reads language) :
    (maybe form).Reads fun taken => taken = [] ∨ language taken := by
  intro before taken behind
  rw [waysMaybe, List.mem_append, List.mem_singleton, reads before taken behind, List.length_eq_zero_iff, or_comm]

theorem readsRun (fits : Char → Bool) : (many (one fits)).Reads fun taken => taken.all fits = true := by
  intro before taken behind
  induction taken generalizing before with
  | nil =>
    rw [manyWays]
    simp
  | cons c rest ih =>
    rw [manyWays, List.cons_append]
    cases fit : fits c with
    | false => simp [oneMissed fit, fit]
    | true =>
      rw [oneFits fit, List.flatMap_singleton, onwardOne]
      simp [fit, ← ih (some c), Nat.add_comm 1]

theorem dropCapture (front middle back rest : Text) :
    (front ++ (middle ++ (back ++ rest))).drop (front.length + middle.length + back.length) = rest := by
  rw [← List.append_assoc, ← List.append_assoc, ← List.length_append, ← List.length_append, List.drop_left]

theorem memCaptures {lead group tail : Form} {before : Option Char} {text : Text} {capture : Capture}
    {ahead within behind : Text → Prop} (leads : lead.Reads ahead) (groups : group.Reads within)
    (tails : tail.Reads behind) : capture ∈ captures lead group tail ⟨before, text⟩ ↔
      ∃ front middle back rest, text = front ++ (middle ++ (back ++ rest)) ∧ ahead front ∧ within middle ∧
        behind back ∧ capture = ⟨middle, front.length + middle.length + back.length⟩ := by
  simp only [captures, List.mem_flatMap, List.mem_map]
  constructor
  · rintro ⟨_, skipped, _, taken, _, more, rfl⟩
    obtain ⟨front, text, rfl, rfl, fits⟩ := leads.ways.mp skipped
    rw [onwardBehind] at taken more ⊢
    obtain ⟨middle, text, rfl, rfl, fits'⟩ := groups.ways.mp taken
    rw [onwardBehind] at more
    obtain ⟨back, rest, rfl, rfl, fits''⟩ := tails.ways.mp more
    exact ⟨front, middle, back, rest, rfl, fits, fits', fits'', by rw [List.take_left]⟩
  · rintro ⟨front, middle, back, rest, rfl, fits, fits', fits'', rfl⟩
    refine ⟨front.length, (leads _ _ _).mpr fits, middle.length, ?_, back.length, ?_, ?_⟩
    · rw [onwardBehind]
      exact (groups _ _ _).mpr fits'
    · rw [onwardBehind, onwardBehind]
      exact (tails _ _ _).mpr fits''
    · rw [onwardBehind, List.take_left]

end Form
end SourceSweep.Text
