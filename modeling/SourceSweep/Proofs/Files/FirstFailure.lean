import SourceSweep.Files.Content
import SourceSweep.Proofs.Files.TempPath
import SourceSweep.Proofs.Files.Visited

/-! What the caller of a read or a write hears when calls fail. A write tells of the first of its calls
that fails, and of no later one but the removal of its temporary file. -/
namespace SourceSweep
open Files

def Failure.Names (failure : Failure) (error : OsError) (code : Code) : Prop :=
  ∃ problem, failure = .problem problem ∧
    problem.code = if error.isDenied then .permissionDenied else code

namespace Files
open Text

theorem notDenied {error : OsError} {number : Errno} (numbered : error.number? = some number)
    (other : number ≠ Errno.accessDenied) (other' : number ≠ Errno.notPermitted) :
    error.isDenied = false := by
  simp [OsError.isDenied, numbered, other, other']

theorem readFailureNames (path : Text) (error : OsError) :
    (readFailure path (.system error)).Names error .fileReadError := by
  refine ⟨_, rfl, ?_⟩
  by_cases absent : error.isAbsent = true
  · have other := notDenied (of_decide_eq_true absent) (by decide) (by decide)
    simp [absent, other, Problem.code]
  · by_cases denied : error.isDenied = true
    · simp [absent, denied, Problem.code]
    · by_cases dir : error.number? = some Errno.isDirectory <;> simp [absent, denied, dir, Problem.code]

theorem writeFailureNames (path : Text) (error : OsError) :
    (writeFailure path (.system error)).Names error .fileWriteError := by
  refine ⟨_, rfl, ?_⟩
  by_cases denied : error.isDenied = true
  · simp [denied, Problem.code]
  · simp only [denied, Bool.false_eq_true, if_false]
    split_ifs <;> rfl

namespace Host
open Store

def Refuses (host : Host) (store : Store) (target : Text) : Prop :=
  (store.node? host.workDir target).isSome ∧ (host.trouble? .access target).isSome

def filled (store : Store) (temp : Temp) (content : Text) : Store :=
  (store.put temp.place (.file privateMode [])).put temp.place (.file privateMode (Utf8.encode content))

/-- The first call of a write that fails: the temporary file that is there by then, and the cause. -/
inductive FirstFailure (host : Host) (store : Store) (target content : Text) :
    Option Temp → Escape → Prop where
  | makeTemp {cause} (failed : host.makeTemp store target = .error cause) :
      FirstFailure host store target content none cause
  | openTemp {temp trouble} (made : host.makeTemp store target = .ok temp)
      (failed : host.trouble? .openTemp target = some trouble) :
      FirstFailure host store target content (some temp) (trouble.escape [temp.path])
  | writeTemp {temp trouble} (made : host.makeTemp store target = .ok temp)
      (opened : host.trouble? .openTemp target = none)
      (failed : host.trouble? .writeTemp target = some trouble) :
      FirstFailure host store target content (some temp) (trouble.escape [])
  | copyMode {temp cause} (made : host.makeTemp store target = .ok temp)
      (opened : host.trouble? .openTemp target = none)
      (written : host.trouble? .writeTemp target = none)
      (failed : host.copyMode (filled store temp content) temp target = .error cause) :
      FirstFailure host store target content (some temp) cause
  | replace {temp copied cause} (made : host.makeTemp store target = .ok temp)
      (opened : host.trouble? .openTemp target = none)
      (written : host.trouble? .writeTemp target = none)
      (moded : host.copyMode (filled store temp content) temp target = .ok copied)
      (failed : host.replace copied temp target = .error cause) :
      FirstFailure host store target content (some temp) cause

def reported (host : Host) (target : Text) (made : Option Temp) (cause : Escape) : Failure :=
  match made, host.trouble? .removeTemp target with
  | some temp, some trouble => .escape (trouble.escape [temp.path])
  | _, _ => writeFailure target cause

theorem reportedStays {host : Host} {target : Text} {trouble : Trouble}
    (stays : host.trouble? .removeTemp target = some trouble) (temp : Temp) (cause : Escape) :
    host.reported target (some temp) cause = .escape (trouble.escape [temp.path]) := by
  simp [reported, stays]

theorem reportedGone {host : Host} {target : Text} (goes : host.trouble? .removeTemp target = none)
    (made : Option Temp) (cause : Escape) : host.reported target made cause = writeFailure target cause := by
  cases made <;> simp [reported, goes]

section
variable {host : Host} {store : Store} {target content : Text}

theorem installFails {temp : Temp} (made : host.makeTemp store target = .ok temp) (cause : Escape) :
    (host.install (store.put temp.place (.file privateMode [])) temp target content).1 = .error cause ↔
      FirstFailure host store target content (some temp) cause := by
  have filling : (store.put temp.place (.file privateMode [])).put temp.place
      (.file privateMode (Utf8.encode content)) = filled store temp content := rfl
  unfold install fill
  constructor
  · intro fails
    cases opened : host.trouble? .openTemp target with
    | some trouble =>
      simp only [opened, Except.error.injEq] at fails
      exact fails ▸ .openTemp made opened
    | none =>
      cases written : host.trouble? .writeTemp target with
      | some trouble =>
        simp only [opened, written, Except.error.injEq] at fails
        exact fails ▸ .writeTemp made opened written
      | none =>
        simp only [opened, written, filling] at fails
        cases moded : host.copyMode (filled store temp content) temp target with
        | error escape =>
          simp only [moded, Except.error.injEq] at fails
          exact fails ▸ .copyMode made opened written moded
        | ok copied =>
          cases replaced : host.replace copied temp target with
          | error escape =>
            simp only [moded, replaced, Except.error.injEq] at fails
            exact fails ▸ .replace made opened written moded replaced
          | ok after => simp [moded, replaced] at fails
  · intro first
    cases first with
    | openTemp made' failed =>
      cases made.symm.trans made'
      simp [failed]
    | writeTemp made' opened failed =>
      cases made.symm.trans made'
      simp [opened, failed]
    | copyMode made' opened written failed =>
      cases made.symm.trans made'
      simp [opened, written, filling, failed]
    | replace made' opened written moded failed =>
      cases made.symm.trans made'
      simp [opened, written, filling, moded, failed]

theorem FirstFailure.unmade {escape cause : Escape} {made : Option Temp}
    (failed : host.makeTemp store target = .error escape)
    (first : FirstFailure host store target content made cause) : made = none ∧ cause = escape := by
  cases first with
  | makeTemp failed' =>
    cases failed.symm.trans failed'
    exact ⟨rfl, rfl⟩
  | openTemp made' | writeTemp made' | copyMode made' | replace made' => cases failed.symm.trans made'

theorem FirstFailure.madeBy {temp : Temp} {cause : Escape} {made : Option Temp}
    (makes : host.makeTemp store target = .ok temp)
    (first : FirstFailure host store target content made cause) : made = some temp := by
  cases first with
  | makeTemp failed => cases makes.symm.trans failed
  | openTemp made' | writeTemp made' | copyMode made' | replace made' =>
    cases makes.symm.trans made'
    rfl

theorem discardReports (later : Store) (temp : Temp) (cause : Escape) :
    (host.discard later temp target (writeFailure target cause)).1 =
      host.reported target (some temp) cause := by
  unfold discard reported
  cases host.trouble? .removeTemp target <;> rfl

theorem writeFailsIff {failure : Failure} : (host.write store target content).1 = .error failure ↔
    Refuses host store target ∧ failure = .problem (.writeDenied target) ∨
    ¬ Refuses host store target ∧ ∃ made cause, FirstFailure host store target content made cause ∧
      failure = host.reported target made cause := by
  have asked : ((store.node? host.workDir target).isSome && (host.trouble? .access target).isSome) = true ↔
      Refuses host store target := Bool.and_eq_true_iff
  rw [write]
  split_ifs with refused
  · simp [asked.mp refused, eq_comm]
  · rw [asked] at refused
    simp only [refused, false_and, not_false_eq_true, true_and, false_or]
    cases makes : host.makeTemp store target with
    | error escape =>
      constructor
      · intro fails
        cases fails
        exact ⟨none, escape, .makeTemp makes, rfl⟩
      · rintro ⟨made, cause, first, rfl⟩
        obtain ⟨rfl, rfl⟩ := first.unmade makes
        rfl
    | ok temp =>
      have installs : ∀ cause, _ ↔ FirstFailure host store target content (some temp) cause :=
        installFails makes
      dsimp only
      generalize host.install (store.put temp.place (.file privateMode [])) temp target content = step
        at installs ⊢
      obtain ⟨result, later⟩ := step
      cases result with
      | ok =>
        simp only [reduceCtorEq, false_iff] at installs ⊢
        rintro ⟨made, cause, first, _⟩
        cases first.madeBy makes
        exact installs cause first
      | error escape =>
        simp only [discardReports, Except.error.injEq]
        constructor
        · rintro rfl
          exact ⟨some temp, escape, (installs escape).mp rfl, rfl⟩
        · rintro ⟨made, cause, first, rfl⟩
          cases first.madeBy makes
          cases (installs cause).mpr first
          rfl

end

theorem writeOkIff {host : Host} {store : Store} {target content : Text} :
    (∃ after, host.write store target content = (.ok (), after)) ↔ ¬ Refuses host store target ∧
      ∀ made cause, ¬ FirstFailure host store target content made cause := by
  have fails : ∀ failure, (host.write store target content).1 = .error failure ↔ _ := fun _ =>
    writeFailsIff
  generalize host.write store target content = step at fails
  obtain ⟨result, after⟩ := step
  cases result with
  | ok =>
    simp only [reduceCtorEq, false_iff, not_or, not_and] at fails
    refine ⟨fun _ => ?_, fun _ => ⟨after, rfl⟩⟩
    have allowed : ¬ Refuses host store target := fun refused => (fails _).1 refused rfl
    exact ⟨allowed, fun made cause first => (fails _).2 allowed ⟨made, cause, first, rfl⟩⟩
  | error failure =>
    refine ⟨fun ⟨_, same⟩ => (by cases same), fun ⟨allowed, passes⟩ => ?_⟩
    rcases (fails failure).mp rfl with ⟨refused, _⟩ | ⟨_, made, cause, first, _⟩
    · exact absurd refused allowed
    · exact absurd first (passes made cause)

section
variable {host : Host} (system : host.OnlySystem)
include system

theorem openFails {store : Store} {path : Text} (clean : hasNull path = false) {cause : Escape}
    (fails : host.open? store path = .error cause) : ∃ error, cause = .system error := by
  unfold open? at fails
  cases sought : host.seek store .openRead path with
  | error escape =>
    rw [sought] at fails
    cases fails
    exact (seekFails system sought).resolve_left fun null =>
      absurd (clean.symm.trans null.2) Bool.false_ne_true
  | ok place =>
    simp only [sought, bind, Except.bind] at fails
    split at fails <;> cases fails
    exact ⟨_, rfl⟩

theorem readFails {store : Store} {path : Text} (clean : hasNull path = false) {failure : Failure}
    (fails : host.read store path = .error failure) :
    (∃ bytes defect, host.open? store path = .ok bytes ∧ Utf8.decode bytes = .error defect ∧
      failure = .problem (.readUndecodable path defect)) ∨
    ∃ error, host.open? store path = .error (.system error) ∧ failure.Names error .fileReadError := by
  unfold read at fails
  cases opened : host.open? store path with
  | error escape =>
    obtain ⟨error, rfl⟩ := openFails system clean opened
    rw [opened] at fails
    cases fails
    exact .inr ⟨error, rfl, readFailureNames path error⟩
  | ok bytes =>
    cases decoded : Utf8.decode bytes with
    | ok text => simp [opened, decoded] at fails
    | error defect =>
      simp only [opened, decoded, Except.error.injEq] at fails
      exact .inl ⟨bytes, defect, rfl, decoded, fails.symm⟩

variable (free : host.NullFree) {store : Store} {target : Text} (clean : hasNull target = false)
include free clean

theorem makeTempFails {cause : Escape} (fails : host.makeTemp store target = .error cause) :
    ∃ error, cause = .system error := by
  unfold makeTemp at fails
  split at fails
  · rename_i trouble found
    cases fails
    exact troubleSystem system found _
  · have solid : ∀ path ∈ host.tempPaths target, hasNull path = false := fun path =>
      tempNoNull free clean
    generalize host.tempPaths target = paths at fails solid
    induction paths with
    | nil =>
      cases fails
      exact ⟨_, rfl⟩
    | cons path rest ih =>
      obtain ⟨here, later⟩ := List.forall_mem_cons.mp solid
      unfold firstFree at fails
      simp only [here, Bool.false_eq_true, if_false] at fails
      split at fails
      · cases fails
        exact ⟨_, rfl⟩
      · split at fails
        · exact ih fails later
        · cases fails

theorem firstFailureSystem {content : Text} {made : Option Temp} {cause : Escape}
    (first : FirstFailure host store target content made cause) : ∃ error, cause = .system error := by
  cases first with
  | makeTemp failed => exact makeTempFails system free clean failed
  | openTemp _ failed | writeTemp _ _ failed => exact troubleSystem system failed _
  | copyMode _ _ _ failed =>
    unfold copyMode at failed
    split at failed
    · split at failed
      · rename_i trouble found
        cases failed
        exact troubleSystem system found _
      · cases failed
    · cases failed
  | replace _ _ _ _ failed =>
    unfold replace at failed
    simp only [clean, Bool.false_eq_true, if_false] at failed
    split at failed
    · rename_i trouble found
      cases failed
      exact troubleSystem system found _
    · split at failed
      · cases failed
      · cases failed
        exact ⟨_, rfl⟩

theorem writeFails {content : Text} {failure : Failure}
    (fails : (host.write store target content).1 = .error failure) :
    Refuses host store target ∧ failure = .problem (.writeDenied target) ∨
    ¬ Refuses host store target ∧ ∃ made error,
      FirstFailure host store target content made (.system error) ∧
      if made.isSome ∧ (host.trouble? .removeTemp target).isSome
      then ∃ removal, failure = .escape (.system removal)
      else failure.Names error .fileWriteError := by
  refine (writeFailsIff.mp fails).imp_right fun ⟨allowed, made, cause, first, told⟩ => ?_
  obtain ⟨error, rfl⟩ := firstFailureSystem system free clean first
  refine ⟨allowed, made, error, first, ?_⟩
  cases made with
  | none => simpa [told, reported] using writeFailureNames target error
  | some temp =>
    cases removal : host.trouble? .removeTemp target with
    | none => simpa [told, reportedGone removal] using writeFailureNames target error
    | some trouble =>
      obtain ⟨error', named⟩ := troubleSystem system removal [temp.path]
      simpa [told, reportedStays removal] using ⟨error', named⟩

end
end Host
end Files
end SourceSweep
