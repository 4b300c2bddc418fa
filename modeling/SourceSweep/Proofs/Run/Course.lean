import Mathlib.Data.List.Chain
import SourceSweep.Proofs.Run.Pointwise
import SourceSweep.Proofs.Run.Staged
import SourceSweep.Proofs.Style.ClassTokens

/-! The sweeps that a run goes through, one behind each file. As pruning adds no class name to a stylesheet, the
classes that a run counts as removed never become fewer on the way. -/
namespace SourceSweep.Run
open Text Files

namespace Sweep

def fileSteps (host : Host) (choice : Choice) (scripts styles : List Text) : List (Sweep → Sweep) :=
  (if choice.stripCalls then scripts.map fun path sweep => sweep.stripFile host choice path else []) ++
    if choice.pruneRules then styles.map fun path sweep => sweep.pruneFile host choice scripts path else []

def course (host : Host) (choice : Choice) (scripts styles : List Text) (sweep : Sweep) : List Sweep :=
  (fileSteps host choice scripts styles).scanl (fun sweep step => step sweep) sweep

def classesRemoved (sweep : Sweep) : Int := sweep.stats.classesRemoved

theorem courseLast (host : Host) (choice : Choice) (scripts styles : List Text) (sweep : Sweep) :
    (sweep.course host choice scripts styles).getLast? = some (sweep.passes host choice scripts styles) := by
  rw [course, List.getLast?_scanl, fileSteps, List.foldl_append, passes]
  cases choice.stripCalls <;> cases choice.pruneRules <;> simp [List.foldl_map]

section
variable {host : Host} {choice : Choice}

theorem saveRises (sweep : Sweep) (path content : Text) {count : Sweep → Sweep}
    (rises : ∀ sweep : Sweep, sweep.classesRemoved ≤ (count sweep).classesRemoved) :
    sweep.classesRemoved ≤ (sweep.save host path content count).classesRemoved := by
  unfold save
  generalize host.write sweep.store path content = step
  obtain ⟨result, store⟩ := step
  cases result with
  | ok => exact rises { sweep with store }
  | error failure => exact Int.le_refl _

theorem stripFileRises (sweep : Sweep) (path : Text) :
    sweep.classesRemoved ≤ (sweep.stripFile host choice path).classesRemoved := by
  have counted : ∀ (sweep : Sweep) calls, sweep.classesRemoved ≤ (sweep.countCalls path calls).classesRemoved :=
    fun sweep calls => by simp [classesRemoved, countCalls, note, Stats.count]
  unfold stripFile
  cases host.read sweep.store path with
  | error failure => exact Int.le_refl _
  | ok script =>
    dsimp only
    split_ifs
    · exact Int.le_refl _
    · exact counted { sweep with pending := _ } _
    · exact saveRises sweep path _ fun sweep => counted sweep _

theorem pruneFileRises (scripts : List Text) (sweep : Sweep) (path : Text) :
    sweep.classesRemoved ≤ (sweep.pruneFile host choice scripts path).classesRemoved := by
  unfold pruneFile
  cases host.read sweep.store path with
  | error failure => exact Int.le_refl _
  | ok css =>
    have asked := Usage.checkerPrunes scripts sweep.pending (host.read sweep.store) css
    dsimp only
    generalize (Usage.Checker.ofFiles scripts sweep.pending).prune (host.read sweep.store) css = step at asked ⊢
    obtain ⟨pruned, checker⟩ := step
    cases pruned with
    | error escape => exact Int.le_refl _
    | ok pruned =>
      have fewer : Style.classCount pruned ≤ Style.classCount css := by
        rw [← Usage.pruneByOk asked.symm]
        exact Style.prunedCount _ css
      have counted : ∀ sweep : Sweep, sweep.classesRemoved ≤
          (sweep.countClasses path (Style.classCount css - Style.classCount pruned)).classesRemoved := by
        intro sweep
        simp only [classesRemoved, countClasses, note, Stats.count]
        omega
      dsimp only
      split_ifs
      · exact Int.le_refl _
      · exact counted { sweep with journal := _ }
      · exact saveRises { sweep with journal := checker.journal ++ sweep.journal } path pruned counted

theorem fileStepRises {scripts styles : List Text} {step : Sweep → Sweep}
    (mem : step ∈ fileSteps host choice scripts styles) (sweep : Sweep) :
    sweep.classesRemoved ≤ (step sweep).classesRemoved := by
  rcases List.mem_append.mp mem with strips | prunes
  · split at strips
    · obtain ⟨path, _, rfl⟩ := List.mem_map.mp strips
      exact stripFileRises sweep path
    · cases strips
  · split at prunes
    · obtain ⟨path, _, rfl⟩ := List.mem_map.mp prunes
      exact pruneFileRises scripts sweep path
    · cases prunes

end

theorem scanRises {steps : List (Sweep → Sweep)} {counter : Sweep → Int}
    (rises : ∀ step ∈ steps, ∀ sweep, counter sweep ≤ counter (step sweep)) (sweep : Sweep) :
    ((steps.scanl (fun sweep step => step sweep) sweep).map counter).IsChain (· ≤ ·) := by
  induction steps generalizing sweep with
  | nil => exact .singleton _
  | cons step rest ih =>
    obtain ⟨here, later⟩ := List.forall_mem_cons.mp rises
    rw [List.scanl_cons, List.map_cons]
    refine List.isChain_cons.mpr ⟨fun first mem => ?_, ih later (step sweep)⟩
    rw [List.head?_map, List.head?_scanl] at mem
    cases mem
    exact here sweep

theorem courseRises (host : Host) (choice : Choice) (scripts styles : List Text) (sweep : Sweep) :
    ((sweep.course host choice scripts styles).map classesRemoved).Pairwise (· ≤ ·) :=
  List.isChain_iff_pairwise.mp (scanRises (fun _ mem sweep => fileStepRises mem sweep) sweep)

end Sweep

/-- The class names of a stylesheet, which are what the pattern captures, are those of its lines, and pruning adds
none to them. So the count of removed classes never goes down from file to file of a run, and a run that comes to
no files counts none. -/
theorem classCountRises :
    (∀ css, Form.capturedAfter Style.classCaptures 0 none css = Style.classTokens css) ∧
    (∀ css name, name ∈ Style.classNames css ↔ ∃ line ∈ lines css, name ∈ Style.classNames line) ∧
    (∀ used css, Style.classNames (Style.prune used css) ⊆ Style.classNames css) ∧
    (∀ host store root choice place scripts styles, Ready host store root choice place scripts styles →
      ∃ last : Sweep, run host store root choice = .ok last.finish ∧
        ((begun store place scripts styles).course host choice scripts.files styles.files).getLast? = some last ∧
        (((begun store place scripts styles).course host choice scripts.files styles.files).map
          Sweep.classesRemoved).Pairwise (· ≤ ·)) ∧
    ∀ host store root choice sweep, run host store root choice = .ok sweep →
      (∀ place scripts styles, ¬ Ready host store root choice place scripts styles) → sweep.classesRemoved = 0 :=
  ⟨Style.capturedTokens 0 none, Style.classNamesLines, Style.prunedNames,
    fun host _ _ choice _ scripts styles ready =>
      ⟨_, readyRun ready, Sweep.courseLast host choice scripts.files styles.files _,
        Sweep.courseRises host choice scripts.files styles.files _⟩,
    fun _ _ _ _ _ ran unready => (runBarren ran unready).2.2.1⟩

def dryCourse : List Sweep :=
  (begun scriptAndStyle "/p".toList ⟨["/p/src/a.js".toList], []⟩ ⟨["/p/src/b.css".toList], []⟩).course
    faultlessHost ⟨true, true, true⟩ ["/p/src/a.js".toList] ["/p/src/b.css".toList]

/- A dry run counts the class that it would remove behind the stylesheet, to which it comes last. Without a root
there is nothing to count. -/
theorem dryRunCounts :
    (Ready faultlessHost scriptAndStyle (.text "/p".toList) ⟨true, true, true⟩ "/p".toList
      ⟨["/p/src/a.js".toList], []⟩ ⟨["/p/src/b.css".toList], []⟩ ∧
    dryCourse.map Sweep.classesRemoved = [0, 0, 1] ∧ (dryCourse.map Sweep.classesRemoved).Pairwise (· ≤ ·) ∧
    ∃ last : Sweep, run faultlessHost scriptAndStyle (.text "/p".toList) ⟨true, true, true⟩ = .ok last.finish ∧
      dryCourse.getLast? = some last) ∧
    (∀ place scripts styles, ¬ Ready faultlessHost scriptAndStyle (.text []) ⟨true, true, true⟩ place scripts styles) ∧
    ∃ sweep : Sweep, run faultlessHost scriptAndStyle (.text []) ⟨true, true, true⟩ = .ok sweep ∧
      sweep.classesRemoved = 0 := by
  have ready : Ready faultlessHost scriptAndStyle (.text "/p".toList) ⟨true, true, true⟩ "/p".toList
      ⟨["/p/src/a.js".toList], []⟩ ⟨["/p/src/b.css".toList], []⟩ := by
    constructor <;> rfl
  have rootless : ∀ place scripts styles,
      ¬ Ready faultlessHost scriptAndStyle (.text []) ⟨true, true, true⟩ place scripts styles :=
    fun _ _ _ ready => nomatch ready.valid
  have counted : dryCourse.map Sweep.classesRemoved = [0, 0, 1] := by decide +kernel
  obtain ⟨-, -, -, rises, idle⟩ := classCountRises
  obtain ⟨last, ran, ends, counts⟩ := rises _ _ _ _ _ _ _ ready
  exact ⟨⟨ready, counted, counts, last, ran, ends⟩, rootless, _, rfl, idle _ _ _ _ _ rfl rootless⟩

end SourceSweep.Run
