import SourceSweep.Passes

/-! What a checker answers, said without what it keeps. The texts it was given come before those it
can read; what it has read, could not read and has answered so far never changes an answer. -/
namespace SourceSweep.Usage
open Text Style

def readKnown (known : List (Text × Text)) (read : Reader) : Reader := fun path =>
  match known.lookup path with
  | some text => .ok text
  | none => read path

def verdict (read : Reader) (name : Text) : List Text → Except Files.Escape Bool
  | [] => .ok false
  | path :: rest =>
    match read path with
    | .ok text => if refersTo text name then .ok true else verdict read name rest
    | .error (.problem _) => verdict read name rest
    | .error (.escape cause) => .error cause

def usedIn (read : Reader) (scripts : List Text) (name : Text) : Bool :=
  scripts.any fun path =>
    match read path with
    | .ok text => refersTo text name
    | .error _ => false

def pruneBy (read : Reader) (scripts : List Text) (css : Text) : Except Files.Escape Text :=
  (pruneAsking (fun (_ : Unit) name => (verdict read name scripts, ())) () .start (lines css)).1.map
    Pruning.text

theorem verdictUsed {read : Reader} {name : Text} {scripts : List Text} {used : Bool}
    (answered : verdict read name scripts = .ok used) : usedIn read scripts name = used := by
  unfold usedIn
  induction scripts with
  | nil => cases answered; rfl
  | cons path rest ih =>
    unfold verdict at answered
    rw [List.any_cons]
    split at answered
    · rename_i text found
      split at answered
      · rename_i refers
        cases answered
        simp [found, refers]
      · rename_i silent
        simp [found, silent, ih answered]
    · rename_i cause refused
      simp [refused, ih answered]
    · cases answered

theorem verdictCongr {read other : Reader} {scripts : List Text}
    (same : ∀ path ∈ scripts, read path = other path) (name : Text) :
    verdict read name scripts = verdict other name scripts := by
  induction scripts with
  | nil => rfl
  | cons path rest ih =>
    have later := ih fun path mem => same path (List.mem_cons_of_mem _ mem)
    rw [verdict, verdict, same path List.mem_cons_self, later]

theorem pruneByCongr {read other : Reader} {scripts : List Text}
    (same : ∀ path ∈ scripts, read path = other path) (css : Text) :
    pruneBy read scripts css = pruneBy other scripts css := by
  have answers : (fun (_ : Unit) name => (verdict read name scripts, ())) =
      fun _ name => (verdict other name scripts, ()) := by
    funext _ name
    rw [verdictCongr same]
  rw [pruneBy, pruneBy, answers]

theorem verdictTold {read : Reader} {scripts : List Text}
    (told : ∀ path ∈ scripts, ∀ cause, read path ≠ .error (.escape cause)) (name : Text) :
    verdict read name scripts = .ok (usedIn read scripts name) := by
  induction scripts with
  | nil => rfl
  | cons path rest ih =>
    rw [List.forall_mem_cons] at told
    obtain ⟨here, later⟩ := told
    unfold verdict
    split
    · rename_i text found
      cases refers : refersTo text name with
      | true => simp [usedIn, found, refers]
      | false => simpa [usedIn, found, refers] using ih later
    · rename_i cause refused
      simpa [usedIn, refused] using ih later
    · rename_i cause escaped
      exact absurd escaped (here cause)

theorem pruneByPerm {read : Reader} {scripts scripts' : List Text} (perm : scripts'.Perm scripts)
    (told : ∀ path ∈ scripts, ∀ cause, read path ≠ .error (.escape cause)) :
    pruneBy read scripts' = pruneBy read scripts := by
  have told' : ∀ path ∈ scripts', ∀ cause, read path ≠ .error (.escape cause) := fun path mem =>
    told path (perm.mem_iff.mp mem)
  have answers : (fun (_ : Unit) name => (verdict read name scripts', ())) =
      fun _ name => (verdict read name scripts, ()) := by
    funext _ name
    rw [verdictTold told, verdictTold told', usedIn, perm.any_eq, ← usedIn]
  funext css
  rw [pruneBy, pruneBy, answers]

theorem pruneAskingOk {ε : Type} {ask : Text → Except ε Bool} {used : Text → Bool}
    (agrees : ∀ name answer, ask name = .ok answer → used name = answer) {state result : Pruning}
    {rest : List Text}
    (pruned : (pruneAsking (fun (_ : Unit) name => (ask name, ())) () state rest).1 = .ok result) :
    rest.foldl (Pruning.step used) state = result := by
  induction rest generalizing state with
  | nil => exact Except.ok.inj pruned
  | cons line rest ih =>
    simp only [pruneAsking, List.foldl_cons, Pruning.step] at pruned ⊢
    split at pruned
    · exact ih pruned
    · rename_i name _
      cases answered : ask name with
      | ok answer =>
        simp only [answered] at pruned
        rw [agrees name answer answered]
        exact ih pruned
      | error failure => simp [answered] at pruned

theorem pruneByOk {read : Reader} {scripts : List Text} {css pruned : Text}
    (done : pruneBy read scripts css = .ok pruned) : prune (usedIn read scripts) css = pruned := by
  unfold pruneBy at done
  generalize asked : (pruneAsking _ () Pruning.start (lines css)).1 = outcome at done
  cases outcome with
  | error cause => cases done
  | ok result =>
    cases done
    rw [prune, pruneAskingOk (fun name answer answered => verdictUsed answered) asked]

theorem pruneAskingTold {ε : Type} {ask : Text → Except ε Bool} {used : Text → Bool}
    (told : ∀ name, ask name = .ok (used name)) (state : Pruning) (rest : List Text) :
    (pruneAsking (fun (_ : Unit) name => (ask name, ())) () state rest).1 =
      .ok (rest.foldl (Pruning.step used) state) := by
  obtain rfl : ask = fun name => .ok (used name) := funext told
  rw [pruneAskingFixed]

theorem pruneByTold {read : Reader} {scripts : List Text}
    (told : ∀ path ∈ scripts, ∀ cause, read path ≠ .error (.escape cause)) (css : Text) :
    pruneBy read scripts css = .ok (prune (usedIn read scripts) css) := by
  simp only [pruneBy, pruneAskingTold (verdictTold told), Except.map]
  rfl

namespace Checker

structure Faithful (known : List (Text × Text)) (read : Reader) (checker : Checker) : Prop where
  kept : ∀ path text, known.lookup path = some text → checker.cache.lookup path = some text
  cached : ∀ path text, checker.cache.lookup path = some text → readKnown known read path = .ok text
  unreadable : ∀ path ∈ checker.unreadable, ∃ cause, readKnown known read path = .error (.problem cause)
  answered : ∀ name used, checker.verdicts.lookup name = some used →
    verdict (readKnown known read) name checker.files = .ok used

theorem faithfulStart (files : List Text) (known : List (Text × Text)) (read : Reader) :
    Faithful known read (ofFiles files known) where
  kept _ _ found := found
  cached path text found := by
    have given : known.lookup path = some text := found
    simp [readKnown, given]
  unreadable _ mem := absurd mem List.not_mem_nil
  answered name used found := by cases found

def shown : Except Failure Text → Except Files.Escape (Option Text)
  | .ok text => .ok (some text)
  | .error (.problem _) => .ok none
  | .error (.escape cause) => .error cause

section
variable {known : List (Text × Text)} {read : Reader} {checker : Checker}
  (faithful : Faithful known read checker)
include faithful

theorem readKnownUncached {path : Text} (missing : checker.cache.lookup path = none) :
    readKnown known read path = read path := by
  unfold readKnown
  split
  · rename_i text found
    rw [faithful.kept path text found] at missing
    cases missing
  · rfl

theorem Faithful.ofParts {other : Checker} (files : other.files = checker.files)
    (cache : other.cache = checker.cache) (unreadable : other.unreadable = checker.unreadable)
    (verdicts : other.verdicts = checker.verdicts) : Faithful known read other := by
  obtain ⟨kept, cached, unread, answered⟩ := faithful
  exact ⟨cache ▸ kept, cache ▸ cached, unreadable ▸ unread, by rw [verdicts, files]; exact answered⟩

theorem Faithful.keepText {path text : Text} (missing : checker.cache.lookup path = none)
    (found : read path = .ok text) :
    Faithful known read { checker with cache := checker.cache ++ [(path, text)] } where
  kept path' text' given := by simp [List.lookup_append, faithful.kept path' text' given]
  cached path' text' held := by
    rw [List.lookup_append, Option.or_eq_some_iff] at held
    rcases held with held | ⟨_, held⟩
    · exact faithful.cached path' text' held
    · rw [List.lookup_cons] at held
      split at held
      · rename_i same
        cases held
        rw [eq_of_beq same, readKnownUncached faithful missing, found]
      · cases held
  unreadable := faithful.unreadable
  answered := faithful.answered

theorem Faithful.keepUnreadable {path : Text} {cause : Problem}
    (missing : checker.cache.lookup path = none) (refused : read path = .error (.problem cause)) :
    Faithful known read { checker with unreadable := path :: checker.unreadable } where
  kept := faithful.kept
  cached := faithful.cached
  unreadable path' mem := by
    rcases List.mem_cons.mp mem with rfl | mem
    · exact ⟨cause, by rw [readKnownUncached faithful missing, refused]⟩
    · exact faithful.unreadable path' mem
  answered := faithful.answered

theorem Faithful.keepVerdict {name : Text} {used : Bool}
    (found : verdict (readKnown known read) name checker.files = .ok used) :
    Faithful known read { checker with verdicts := checker.verdicts ++ [(name, used)] } where
  kept := faithful.kept
  cached := faithful.cached
  unreadable := faithful.unreadable
  answered name' used' held := by
    rw [List.lookup_append, Option.or_eq_some_iff] at held
    rcases held with held | ⟨_, held⟩
    · exact faithful.answered name' used' held
    · rw [List.lookup_cons] at held
      split at held
      · rename_i same
        cases held
        rw [eq_of_beq same]
        exact found
      · cases held

theorem textFaithful (path : Text) :
    (checker.text? read path).1 = shown (readKnown known read path) ∧
      (checker.text? read path).2.files = checker.files ∧
      Faithful known read (checker.text? read path).2 := by
  unfold text?
  split
  · rename_i text found
    exact ⟨by rw [faithful.cached path text found]; rfl, rfl, faithful⟩
  · rename_i missing
    split
    · rename_i listed
      obtain ⟨cause, refused⟩ := faithful.unreadable path (List.contains_iff_mem.mp listed)
      exact ⟨by rw [refused]; rfl, rfl, faithful⟩
    · rw [readKnownUncached faithful missing]
      have opened : Faithful known read { checker with opened := path :: checker.opened } :=
        faithful.ofParts rfl rfl rfl rfl
      split
      · rename_i text found
        exact ⟨by rw [found]; rfl, rfl, opened.keepText missing found⟩
      · rename_i cause refused
        have skipped := opened.keepUnreadable missing refused
        exact ⟨by rw [refused]; rfl, rfl, skipped.ofParts rfl rfl rfl rfl⟩
      · rename_i cause refused
        exact ⟨by rw [refused]; rfl, rfl, opened⟩

end

theorem searchFaithful {known : List (Text × Text)} {read : Reader} {checker : Checker}
    (faithful : Faithful known read checker) (name : Text) (paths : List Text) :
    (checker.search read name paths).1 = verdict (readKnown known read) name paths ∧
      (checker.search read name paths).2.files = checker.files ∧
      Faithful known read (checker.search read name paths).2 := by
  induction paths generalizing checker with
  | nil => exact ⟨rfl, rfl, faithful⟩
  | cons path rest ih =>
    obtain ⟨answer, files, later⟩ := textFaithful faithful path
    unfold search verdict
    generalize checker.text? read path = step at answer files later ⊢
    obtain ⟨result, next⟩ := step
    simp only at answer files later
    subst answer
    cases readKnown known read path with
    | ok text =>
      simp only [shown]
      split
      · exact ⟨rfl, files, later⟩
      · obtain ⟨found, same, last⟩ := ih later
        exact ⟨found, same.trans files, last⟩
    | error failure =>
      cases failure with
      | problem cause =>
        obtain ⟨found, same, last⟩ := ih later
        exact ⟨found, same.trans files, last⟩
      | escape cause => exact ⟨rfl, files, later⟩

theorem isUsedFaithful {known : List (Text × Text)} {read : Reader} {checker : Checker}
    (faithful : Faithful known read checker) (name : Text) :
    (checker.isUsed read name).1 = verdict (readKnown known read) name checker.files ∧
      (checker.isUsed read name).2.files = checker.files ∧
      Faithful known read (checker.isUsed read name).2 := by
  unfold isUsed
  split
  · rename_i used found
    exact ⟨(faithful.answered name used found).symm, rfl, faithful⟩
  · obtain ⟨answer, files, later⟩ := searchFaithful faithful name checker.files
    generalize checker.search read name checker.files = step at answer files later ⊢
    obtain ⟨result, next⟩ := step
    simp only at answer files later
    cases result with
    | ok used => exact ⟨answer, files, later.keepVerdict (by rw [files]; exact answer.symm)⟩
    | error cause => exact ⟨answer, files, later⟩

theorem judgeFaithful {known : List (Text × Text)} {read : Reader} {checker : Checker}
    (faithful : Faithful known read checker) (name : Text) :
    (checker.judge read name).1 = verdict (readKnown known read) name checker.files ∧
      (checker.judge read name).2.files = checker.files ∧
      Faithful known read (checker.judge read name).2 := by
  obtain ⟨answer, files, later⟩ := isUsedFaithful faithful name
  unfold judge
  generalize checker.isUsed read name = step at answer files later ⊢
  obtain ⟨result, next⟩ := step
  simp only at answer files later
  split
  · rename_i same
    cases same
    exact ⟨answer, files, later.ofParts rfl rfl rfl rfl⟩
  · rename_i same
    cases same
    exact ⟨answer, files, later⟩

end Checker

/- A pruning asks what is asked in a state of its own as if there were none, if the state keeps
an invariant under which the answers are always the same. -/
theorem pruneAskingPure {σ ε : Type} {ask : σ → Text → Except ε Bool × σ}
    (answers : Text → Except ε Bool) (invariant : σ → Prop)
    (keeps : ∀ asked name, invariant asked →
      (ask asked name).1 = answers name ∧ invariant (ask asked name).2)
    {asked : σ} (holds : invariant asked) (state : Pruning) (rest : List Text) :
    (pruneAsking ask asked state rest).1 =
      (pruneAsking (fun (_ : Unit) name => (answers name, ())) () state rest).1 := by
  induction rest generalizing asked state with
  | nil => rfl
  | cons line rest ih =>
    unfold pruneAsking
    split
    · exact ih holds _
    · rename_i name _
      obtain ⟨answer, later⟩ := keeps asked name holds
      generalize ask asked name = step at answer later ⊢
      obtain ⟨result, next⟩ := step
      simp only at answer later
      rw [← answer]
      cases result with
      | ok used => exact ih later _
      | error failure => rfl

theorem checkerPrunes (scripts : List Text) (known : List (Text × Text)) (read : Reader)
    (css : Text) :
    ((Checker.ofFiles scripts known).prune read css).1 = pruneBy (readKnown known read) scripts css := by
  have asks := pruneAskingPure
    (fun name => verdict (readKnown known read) name scripts)
    (fun checker => checker.files = scripts ∧ Checker.Faithful known read checker)
    (fun checker name holds => by
      obtain ⟨answer, files, later⟩ := Checker.judgeFaithful holds.2 name
      exact ⟨holds.1 ▸ answer, files.trans holds.1, later⟩)
    ⟨rfl, Checker.faithfulStart scripts known read⟩ .start (lines css)
  unfold Checker.prune pruneBy
  rw [← asks]
  generalize pruneAsking (Checker.judge read) (Checker.ofFiles scripts known) .start (lines css) = step
  obtain ⟨result, checker⟩ := step
  cases result <;> rfl

end SourceSweep.Usage
