import SourceSweep.Proofs.Style.KeptLines
import SourceSweep.Proofs.Usage.Verdict

/-! Further scripts to look up classes in. Those that can be read can only show more classes used,
so no line of a stylesheet is lost by them; nor does a pruning fail that came to an end without. -/
namespace SourceSweep.Usage
open Text Style

/-- The scripts of the second list are those of the first, with readable ones anywhere between. -/
inductive Enlarged (read : Reader) : List Text → List Text → Prop where
  | none : Enlarged read [] []
  | same (path : Text) {scripts more : List Text} (rest : Enlarged read scripts more) :
      Enlarged read (path :: scripts) (path :: more)
  | add {path text : Text} (found : read path = .ok text) {scripts more : List Text}
      (rest : Enlarged read scripts more) : Enlarged read scripts (path :: more)

theorem verdictEnlarged {read : Reader} {scripts more : List Text}
    (enlarged : Enlarged read scripts more) {name : Text} {used : Bool}
    (answered : verdict read name scripts = .ok used) :
    ∃ used', verdict read name more = .ok used' := by
  induction enlarged with
  | none => exact ⟨used, answered⟩
  | same path rest ih =>
    unfold verdict at answered ⊢
    split at answered
    · split at answered
      · rename_i refers
        exact ⟨true, if_pos refers⟩
      · rename_i silent
        rw [if_neg silent]
        exact ih answered
    · exact ih answered
    · cases answered
  | @add path text found scripts more rest ih =>
    rw [verdict, found]
    by_cases refers : refersTo text name = true
    · exact ⟨true, if_pos refers⟩
    · obtain ⟨used', later⟩ := ih answered
      exact ⟨used', (if_neg refers).trans later⟩

theorem usedInEnlarged {read : Reader} {scripts more : List Text}
    (enlarged : Enlarged read scripts more) {name : Text} (used : usedIn read scripts name = true) :
    usedIn read more name = true := by
  unfold usedIn at used ⊢
  induction enlarged with
  | none => exact used
  | same path rest ih =>
    rw [List.any_cons, Bool.or_eq_true] at used ⊢
    exact used.imp_right ih
  | add found rest ih =>
    rw [List.any_cons, Bool.or_eq_true]
    exact .inr (ih used)

theorem askingStep {ε : Type} {ask : Text → Except ε Bool} {used : Text → Bool}
    (agrees : ∀ name answer, ask name = .ok answer → used name = answer) {state result : Pruning}
    {line : Text} {rest : List Text}
    (done : (pruneAsking (fun (_ : Unit) name => (ask name, ())) () state (line :: rest)).1 = .ok result) :
    (∀ name, state.question? line = some name → ∃ answer, ask name = .ok answer) ∧
      (pruneAsking (fun (_ : Unit) name => (ask name, ())) () (state.step used line) rest).1 = .ok result := by
  rw [pruneAsking] at done
  rw [Pruning.step]
  cases asked : state.question? line with
  | none =>
    simp only [asked] at done
    exact ⟨fun name asks => absurd asks (by simp), done⟩
  | some name =>
    simp only [asked] at done
    cases answered : ask name with
    | ok answer =>
      simp only [answered] at done
      refine ⟨fun other same => ⟨answer, Option.some.inj same ▸ answered⟩, ?_⟩
      simpa only [agrees name answer answered] using done
    | error failure => simp [answered] at done

/- The second pruning asks no question that the first does not ask on the same line. -/
theorem askingAhead {ε : Type} {ask ask' : Text → Except ε Bool} {used used' : Text → Bool}
    (agrees : ∀ name answer, ask name = .ok answer → used name = answer)
    (answers : ∀ name answer, ask name = .ok answer → ask' name = .ok (used' name))
    (grows : ∀ name, used name = true → used' name = true) {few more result : Pruning}
    (ahead : Ahead few more) {rest : List Text}
    (done : (pruneAsking (fun (_ : Unit) name => (ask name, ())) () few rest).1 = .ok result) :
    (pruneAsking (fun (_ : Unit) name => (ask' name, ())) () more rest).1 =
      .ok (rest.foldl (Pruning.step used') more) := by
  induction rest generalizing few more with
  | nil => rfl
  | cons line rest ih =>
    obtain ⟨answered, done⟩ := askingStep agrees done
    have later := ih (ahead.step grows line) done
    rw [pruneAsking, List.foldl_cons]
    rw [Pruning.step] at later ⊢
    cases asked : more.question? line with
    | none => simpa only [asked] using later
    | some name =>
      obtain ⟨answer, here⟩ := answered name (ahead.question asked)
      simpa only [asked, answers name answer here] using later

theorem pruneByEnlarged {read : Reader} {scripts more : List Text}
    (enlarged : Enlarged read scripts more) {css pruned : Text}
    (done : pruneBy read scripts css = .ok pruned) :
    pruneBy read more css = .ok (prune (usedIn read more) css) := by
  unfold pruneBy at done ⊢
  generalize asked : (pruneAsking _ () Pruning.start (lines css)).1 = outcome at done
  cases outcome with
  | error cause => cases done
  | ok result =>
    have answers : ∀ name answer, verdict read name scripts = .ok answer →
        verdict read name more = .ok (usedIn read more name) := by
      intro name answer here
      obtain ⟨used', later⟩ := verdictEnlarged enlarged here
      rw [later, verdictUsed later]
    rw [askingAhead (fun _ _ => verdictUsed) answers (fun _ => usedInEnlarged enlarged) aheadStart asked]
    rfl

theorem furtherUseKeepsLines :
    (∀ used css, prune used css = unlines (flagged (keptFlags used .start (lines css)) (lines css))) ∧
    (∀ (used used' : Text → Bool), (∀ name, used name = true → used' name = true) →
      ∀ css place, staysAt used css place = true → staysAt used' css place = true) ∧
    (∀ (known : List (Text × Text)) (read : Reader) (scripts more : List Text) (css pruned : Text),
      Enlarged (readKnown known read) scripts more →
      ((Checker.ofFiles scripts known).prune read css).1 = .ok pruned →
      pruned = prune (usedIn (readKnown known read) scripts) css ∧
      ((Checker.ofFiles more known).prune read css).1 =
        .ok (prune (usedIn (readKnown known read) more) css) ∧
      ∀ place, staysAt (usedIn (readKnown known read) scripts) css place = true →
        staysAt (usedIn (readKnown known read) more) css place = true) := by
  refine ⟨pruneFlagged, fun used used' grows css place => staysAtMore grows, ?_⟩
  intro known read scripts more css pruned enlarged done
  rw [checkerPrunes] at done ⊢
  exact ⟨(pruneByOk done).symm, pruneByEnlarged enlarged done,
    fun place => staysAtMore fun name => usedInEnlarged enlarged⟩

def cardThenMenu : Reader := fun path =>
  .ok (if path = "a.js".toList then "\"card\"".toList else "\"menu\"".toList)

def cardAndMenu : Text := ".card \x7b \x7d\n.menu \x7b\n\x7d".toList

theorem menuScriptKeepsCard :
    (∀ name, decide (name = "card".toList) = true → decide (name ≠ "menu".toList) = true) ∧
    staysAt (fun name => name = "card".toList) cardAndMenu 0 = true ∧
    staysAt (fun name => name ≠ "menu".toList) cardAndMenu 0 = true ∧
    Enlarged (readKnown [] cardThenMenu) ["a.js".toList] ["b.js".toList, "a.js".toList] ∧
    ((Checker.ofFiles ["a.js".toList] []).prune cardThenMenu cardAndMenu).1 =
      .ok ".card \x7b \x7d".toList ∧
    ((Checker.ofFiles ["b.js".toList, "a.js".toList] []).prune cardThenMenu cardAndMenu).1 =
      .ok cardAndMenu := by
  have grows : ∀ name, decide (name = "card".toList) = true → decide (name ≠ "menu".toList) = true := by
    simp only [decide_eq_true_eq]
    rintro name rfl
    decide
  have stays : staysAt (fun name => name = "card".toList) cardAndMenu 0 = true := by decide +kernel
  have found : readKnown [] cardThenMenu "b.js".toList = .ok "\"menu\"".toList := by rfl
  have enlarged := Enlarged.add found (.same "a.js".toList .none)
  have done : ((Checker.ofFiles ["a.js".toList] []).prune cardThenMenu cardAndMenu).1 =
      .ok ".card \x7b \x7d".toList := by
    rw [checkerPrunes]
    rfl
  have lines := furtherUseKeepsLines.2.1 _ _ grows cardAndMenu 0 stays
  have later := (furtherUseKeepsLines.2.2 [] cardThenMenu _ _ cardAndMenu _ enlarged done).2.1
  have whole : prune (usedIn (readKnown [] cardThenMenu) ["b.js".toList, "a.js".toList]) cardAndMenu =
      cardAndMenu := by decide +kernel
  exact ⟨grows, stays, lines, enlarged, done, whole ▸ later⟩

end SourceSweep.Usage
