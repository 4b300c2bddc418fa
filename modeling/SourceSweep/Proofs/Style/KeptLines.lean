import SourceSweep.Proofs.Style.Chunks

/-! Which lines of a stylesheet stay, told by their places in it. The more classes are used the more
lines stay: a line that stays under some verdicts stays when further classes count as used. -/
namespace SourceSweep.Style
open Text

def Pruning.keeps (used : Text → Bool) (state : Pruning) (line : Text) : Bool :=
  (state.step used line).kept = line :: state.kept

def keptFlags (used : Text → Bool) : Pruning → List Text → List Bool
  | _, [] => []
  | state, line :: rest => state.keeps used line :: keptFlags used (state.step used line) rest

def staysAt (used : Text → Bool) (css : Text) (place : Nat) : Bool :=
  (keptFlags used .start (lines css))[place]? = some true

def flagged : List Bool → List Text → List Text
  | flag :: flags, line :: rest => if flag then line :: flagged flags rest else flagged flags rest
  | _, _ => []

theorem keepsEq (used : Text → Bool) (state : Pruning) (line : Text) :
    state.keeps used line = !state.drops used line := by
  unfold Pruning.keeps
  rw [stepEq]
  cases state.drops used line with
  | false => simp
  | true =>
    have differ : state.kept ≠ line :: state.kept := fun same =>
      absurd (congrArg List.length same) (by simp)
    simp [differ]

theorem foldFlagged (used : Text → Bool) (state : Pruning) (rest : List Text) :
    (rest.foldl (Pruning.step used) state).kept.reverse =
      state.kept.reverse ++ flagged (keptFlags used state rest) rest := by
  induction rest generalizing state with
  | nil => simp [keptFlags, flagged]
  | cons line rest ih =>
    rw [List.foldl_cons, ih, keptFlags, flagged, keepsEq, stepEq]
    cases state.drops used line <;> simp

theorem pruneFlagged (used : Text → Bool) (css : Text) :
    prune used css = unlines (flagged (keptFlags used .start (lines css)) (lines css)) := by
  rw [prune, Pruning.text, foldFlagged]
  rfl

/-- Two prunings of one stylesheet that have come to the same line; the second keeps what the first
one keeps. While the first is dropping a block, no selector list goes on before it. -/
structure Ahead (few more : Pruning) : Prop where
  places : ∃ depth dropping dropping', few.place = .at depth dropping ∧ more.place = .at depth dropping' ∧
    (dropping' = true → dropping = true) ∧ (dropping = true → continuesList few.kept = false)
  lists : continuesList few.kept = true → continuesList more.kept = true

theorem aheadStart : Ahead .start .start where
  places := ⟨0, false, false, rfl, rfl, id, fun false => absurd false (by decide)⟩
  lists := id

theorem Ahead.question {few more : Pruning} (ahead : Ahead few more) {line name : Text}
    (asks : more.question? line = some name) : few.question? line = some name := by
  obtain ⟨depth, dropping, dropping', fewPlace, morePlace, _, _⟩ := ahead.places
  unfold Pruning.question? at asks ⊢
  rw [morePlace] at asks
  rw [fewPlace]
  by_cases outside : depth = 0
  · subst outside
    have ended : continuesList few.kept = false := Bool.eq_false_iff.mpr fun goesOn => by
      simp [Place.at, ahead.lists goesOn] at asks
    simp only [Place.at, if_true, ended, Bool.false_eq_true, if_false, Option.ite_none_left_eq_some] at asks ⊢
    exact asks.2
  · simp [Place.at, outside] at asks

theorem continuesListCons (line : Text) (kept : List Text) :
    continuesList (line :: kept) =
      if allBlank line then continuesList kept else decide ((trimEnd line).getLast? = some ',') := by
  cases blank : allBlank line <;> simp [continuesList, blank]

section
variable {used used' : Text → Bool} (grows : ∀ name, used name = true → used' name = true)
include grows

theorem asksUnusedLess {line : Text} (unused : asksUnused used' line = true) :
    asksUnused used line = true := by
  unfold asksUnused at unused ⊢
  cases asks : ruleClass? line with
  | none => simp [asks] at unused
  | some name =>
    have other : used' name = false := by simpa [asks] using unused
    have here : used name = false := Bool.eq_false_iff.mpr fun used =>
      absurd (other.symm.trans (grows name used)) (by decide)
    simp [here]

theorem Ahead.drops {few more : Pruning} (ahead : Ahead few more) {line : Text}
    (drops : more.drops used' line = true) : few.drops used line = true := by
  obtain ⟨depth, dropping, dropping', fewPlace, morePlace, less, _⟩ := ahead.places
  rw [dropsAt morePlace] at drops
  rw [dropsAt fewPlace]
  by_cases outside : depth = 0
  · simp only [if_pos outside, Bool.and_eq_true, Bool.not_eq_true'] at drops
    have ended : continuesList few.kept = false := Bool.eq_false_iff.mpr fun goesOn =>
      absurd (drops.2.symm.trans (ahead.lists goesOn)) (by decide)
    simp [outside, asksUnusedLess grows drops.1, ended]
  · rw [if_neg outside] at drops ⊢
    exact less drops

theorem Ahead.step {few more : Pruning} (ahead : Ahead few more) (line : Text) :
    Ahead (few.step used line) (more.step used' line) := by
  have less : more.drops used' line = true → few.drops used line = true := ahead.drops grows
  obtain ⟨depth, dropping, dropping', fewPlace, morePlace, _, ended⟩ := ahead.places
  have quiet : few.drops used line = true → continuesList few.kept = false := by
    rw [dropsAt fewPlace]
    by_cases outside : depth = 0
    · simp [outside]
    · rwa [if_neg outside]
  rw [stepEq, stepEq, fewPlace, morePlace, placeAtDepth, placeAtDepth]
  refine ⟨⟨depthAfter depth line, _, _, rfl, rfl, less, fun drops => ?_⟩, fun goesOn => ?_⟩
  · simpa [drops] using quiet drops
  · cases drops : few.drops used line with
    | true => simp [drops, quiet drops] at goesOn
    | false =>
      have keeps : more.drops used' line = false := Bool.eq_false_iff.mpr fun drops' =>
        absurd (drops.symm.trans (less drops')) (by decide)
      simp only [drops, keeps, Bool.false_eq_true, if_false, continuesListCons] at goesOn ⊢
      cases blank : allBlank line with
      | true => exact ahead.lists (by simpa [blank] using goesOn)
      | false => simpa [blank] using goesOn

theorem Ahead.flags {few more : Pruning} (ahead : Ahead few more) {rest : List Text} {place : Nat}
    (stays : (keptFlags used few rest)[place]? = some true) :
    (keptFlags used' more rest)[place]? = some true := by
  induction rest generalizing few more place with
  | nil => cases stays
  | cons line rest ih =>
    rw [keptFlags] at stays ⊢
    cases place with
    | zero =>
      simp only [List.getElem?_cons_zero, Option.some.injEq, keepsEq, Bool.not_eq_true'] at stays ⊢
      exact Bool.eq_false_iff.mpr fun drops =>
        absurd (stays.symm.trans (ahead.drops grows drops)) (by decide)
    | succ place => exact ih (ahead.step grows line) stays

theorem staysAtMore {css : Text} {place : Nat} (stays : staysAt used css place = true) :
    staysAt used' css place = true := by
  simp only [staysAt, decide_eq_true_eq] at stays ⊢
  exact aheadStart.flags grows stays

end

end SourceSweep.Style
