import Mathlib.Data.List.Basic
import SourceSweep.Proofs.Script.BlankRuns
import SourceSweep.Script.Strip

/-! Whether a text holds a call. Dropping calls changes exactly the texts that hold one and always
shortens them; what collapsing does to the blanks of a text neither makes a call nor breaks one. -/
namespace SourceSweep.Script
open Text

def isCall (text : Text) : Bool := (callLength? text).isSome

def holdsCall : Text → Bool
  | [] => false
  | c :: rest => isCall (c :: rest) || holdsCall rest

theorem isCallIff (text : Text) : isCall text = true ↔
    ∃ rest group, text = logToken ++ rest ∧ skipBlanks rest = '(' :: group ∧
      (groupLength? 1 group).isSome = true := by
  unfold isCall callLength?
  constructor
  · intro call
    cases read : logToken.isPrefixOf? text with
    | none => simp [read] at call
    | some rest =>
      simp only [read, Option.bind_eq_bind, Option.bind_some] at call
      split at call
      · rename_i group opens
        cases inner : groupLength? 1 group with
        | none => simp [inner] at call
        | some length =>
          exact ⟨rest, group, (List.isPrefixOf?_eq_some_iff_append_eq.mp read).symm, opens, by simp [inner]⟩
      · cases call
  · intro parts
    obtain ⟨rest, group, rfl, opens, closes⟩ := parts
    obtain ⟨length, inner⟩ := Option.isSome_iff_exists.mp closes
    simp [List.isPrefixOf?_eq_some_iff_append_eq.mpr rfl, opens, inner]

theorem noCallOfNoToken {text : Text} (free : tokenCount text = 0) : holdsCall text = false := by
  induction text with
  | nil => rfl
  | cons c rest ih =>
    simp only [tokenCount, Nat.add_eq_zero_iff] at free
    rw [holdsCall, ih free.2, Bool.or_false]
    refine Bool.eq_false_iff.mpr fun call => ?_
    obtain ⟨rest', group, same, _⟩ := (isCallIff _).mp call
    simp [same] at free

theorem dropCallsLengthLe (pending : Nat) (text : Text) :
    (dropCallsAfter pending text).length ≤ text.length := by
  induction text generalizing pending with
  | nil => cases pending <;> exact Nat.le_refl 0
  | cons c rest ih =>
    cases pending with
    | succ pending => exact Nat.le_succ_of_le (ih pending)
    | zero =>
      rw [dropCallsAfter]
      split
      · exact Nat.le_succ_of_le (ih _)
      · exact Nat.succ_le_succ (ih 0)

theorem dropCallsOfNoCall {text : Text} (free : holdsCall text = false) : dropCalls text = text := by
  unfold dropCalls
  induction text with
  | nil => rfl
  | cons c rest ih =>
    obtain ⟨here, later⟩ := Bool.or_eq_false_iff.mp free
    have missed : callLength? (c :: rest) = none := by simpa [isCall] using here
    simp only [dropCallsAfter, missed, ih later]

theorem dropCallsShortens {text : Text} (holds : holdsCall text = true) :
    (dropCalls text).length < text.length := by
  unfold dropCalls
  induction text with
  | nil => cases holds
  | cons c rest ih =>
    rw [dropCallsAfter]
    split
    · exact Nat.lt_succ_of_le (dropCallsLengthLe _ rest)
    · rename_i missed
      have later : holdsCall rest = true := by simpa [holdsCall, isCall, missed] using holds
      exact Nat.succ_lt_succ (ih later)

namespace Narrowed

theorem skipBlanks {text other : Text} (narrowed : Narrowed text other) :
    Narrowed (Text.skipBlanks text) (Text.skipBlanks other) := by
  induction narrowed with
  | nil => exact .nil
  | @keep c text other rest ih =>
    cases blank : isBlank c with
    | true => simpa [Text.skipBlanks, List.dropWhile_cons, blank] using ih
    | false => simpa [Text.skipBlanks, List.dropWhile_cons, blank] using rest.keep c
  | drop gone stays rest ih => simpa [Text.skipBlanks, List.dropWhile_cons, gone, stays] using ih

theorem afterFront (front : Text) {text other : Text} (solid : ∀ c ∈ front, isBlank c = false)
    (narrowed : Narrowed (front ++ text) other) :
    ∃ rest, other = front ++ rest ∧ Narrowed text rest := by
  induction front generalizing other with
  | nil => exact ⟨other, rfl, narrowed⟩
  | cons c front ih =>
    cases narrowed with
    | keep _ rest =>
      obtain ⟨rest', same, narrowed⟩ := ih (fun d mem => solid d (List.mem_cons_of_mem c mem)) rest
      exact ⟨rest', congrArg (c :: ·) same, narrowed⟩
    | drop gone stays rest => simp [solid c List.mem_cons_self] at gone

theorem beforeFront (front : Text) {text other : Text} (solid : ∀ c ∈ front, isBlank c = false)
    (narrowed : Narrowed text (front ++ other)) :
    ∃ rest, text = front ++ rest ∧ Narrowed rest other := by
  induction front generalizing text with
  | nil => exact ⟨text, rfl, narrowed⟩
  | cons c front ih =>
    cases narrowed with
    | keep _ rest =>
      obtain ⟨rest', same, narrowed⟩ := ih (fun d mem => solid d (List.mem_cons_of_mem c mem)) rest
      exact ⟨rest', congrArg (c :: ·) same, narrowed⟩
    | drop gone stays rest => simp [solid c List.mem_cons_self] at stays

theorem groupLength {text other : Text} (narrowed : Narrowed text other) (depth : Nat) :
    (groupLength? depth text).isSome = (groupLength? depth other).isSome := by
  induction narrowed generalizing depth with
  | nil => rfl
  | keep c rest ih =>
    simp only [groupLength?]
    split
    · split
      · simpa using ih (depth + 1)
      · rfl
    · split
      · split
        · rfl
        · simpa using ih (depth - 1)
      · simpa using ih depth
  | @drop c d text other gone stays rest ih =>
    have notOpen : c ≠ '(' := fun same => absurd (same ▸ gone) (by decide)
    have notClose : c ≠ ')' := fun same => absurd (same ▸ gone) (by decide)
    simpa [groupLength?, notOpen, notClose] using ih depth

theorem isCall {text other : Text} (narrowed : Narrowed text other) :
    Script.isCall text = Script.isCall other := by
  have token : ∀ c ∈ logToken, isBlank c = false := by
    have solid : logToken.all (!isBlank ·) = true := by decide
    simpa using solid
  have opening : ∀ c ∈ ['('], isBlank c = false := by
    simp only [List.mem_singleton, forall_eq]
    decide
  refine Bool.eq_iff_iff.mpr ⟨fun call => ?_, fun call => ?_⟩
  · obtain ⟨rest, group, rfl, opens, closes⟩ := (isCallIff text).mp call
    obtain ⟨rest', same, narrowed⟩ := narrowed.afterFront logToken token
    have behind := narrowed.skipBlanks
    rw [opens] at behind
    obtain ⟨group', opens', narrowed⟩ := behind.afterFront ['('] opening
    exact (isCallIff other).mpr ⟨rest', group', same, opens', narrowed.groupLength 1 ▸ closes⟩
  · obtain ⟨rest, group, rfl, opens, closes⟩ := (isCallIff other).mp call
    obtain ⟨rest', same, narrowed⟩ := narrowed.beforeFront logToken token
    have behind := narrowed.skipBlanks
    rw [opens] at behind
    obtain ⟨group', opens', narrowed⟩ := behind.beforeFront ['('] opening
    exact (isCallIff text).mpr ⟨rest', group', same, opens', narrowed.groupLength 1 ▸ closes⟩

theorem notCallOfBlank {c : Char} (blank : isBlank c = true) (rest : Text) :
    Script.isCall (c :: rest) = false := by
  refine Bool.eq_false_iff.mpr fun call => ?_
  obtain ⟨rest', group, same, _⟩ := (isCallIff _).mp call
  have first : c = 'c' := (List.cons.inj same).1
  exact absurd (first ▸ blank) (by decide)

theorem holdsCall {text other : Text} (narrowed : Narrowed text other) :
    Script.holdsCall text = Script.holdsCall other := by
  induction narrowed with
  | nil => rfl
  | keep c rest ih => rw [Script.holdsCall, Script.holdsCall, (rest.keep c).isCall, ih]
  | drop gone stays rest ih => rw [Script.holdsCall, notCallOfBlank gone, Bool.false_or, ih]

end Narrowed

theorem holdsCallCollapsed (text : Text) : holdsCall (collapseBlankRuns text) = holdsCall text :=
  (collapseNarrows text).holdsCall.symm

end SourceSweep.Script
