import Mathlib.Algebra.BigOperators.Group.List.Basic
import Mathlib.Algebra.Ring.Int.Defs
import Mathlib.Algebra.Ring.Nat
import SourceSweep.Proofs.Run.Composition
import SourceSweep.Proofs.Run.Staged

/-! The counters of a run as sums over its files. What a run reports to have removed is what its files hold
less of than before, and the files that it reports to have changed are those that hold other bytes. -/
namespace SourceSweep.Run
open Text Files Store

section
variable {Amount : Type} [AddMonoid Amount] {counter : Stats → Amount}
  (additive : ∀ stats more, counter (stats.plus more) = counter stats + counter more)
include additive

theorem talliesSum {pass : Pass} (adds : pass.Adds) (outcome : Site → Except Failure (Text × Text))
    (sites : List Site) (stats : Stats) :
    counter (sites.foldl (fun stats site => pass.tally stats site.path (outcome site)) stats) =
      counter stats + (sites.map fun site => counter (pass.tally .start site.path (outcome site))).sum := by
  induction sites generalizing stats with
  | nil => simp
  | cons site rest ih =>
    rw [List.foldl_cons, ih, tallyPlus adds, additive, List.map_cons, List.sum_cons, add_assoc]

theorem Passed.sum {host : Host} {pass : Pass} (adds : pass.Adds) {sites : List Site} {before after : Sweep}
    (passed : Passed host pass sites before after) : counter after.stats = counter before.stats +
      (sites.map fun site =>
        counter (pass.tally .start site.path (host.rewrite pass.edit before.store site.path).1)).sum := by
  rw [passed.stats]
  exact talliesSum additive adds (fun site => (host.rewrite pass.edit before.store site.path).1) sites _

end

def weight (host : Host) (store : Store) (measure : Text → Int) (path : Text) : Int :=
  match host.read store path with
  | .ok text => measure text
  | .error _ => 0

def total (host : Host) (store : Store) (measure : Text → Int) (paths : List Text) : Int :=
  (paths.map (weight host store measure)).sum

def tokens (script : Text) : Int := Script.tokenCount script

def classes (css : Text) : Int := Style.classCount css

theorem totalCongr {host : Host} {store later : Store} {paths : List Text}
    (same : ∀ path ∈ paths, host.read later path = host.read store path) (measure : Text → Int) :
    total host later measure paths = total host store measure paths := by
  unfold total weight
  exact congrArg List.sum (List.map_congr_left fun path mem => by rw [same path mem])

structure Counts (pass : Pass) (counter : Stats → Int) (measure : Text → Int) : Prop where
  additive : ∀ stats more, counter (stats.plus more) = counter stats + counter more
  idle : ∀ stats : Stats, stats.callsRemoved = 0 → stats.classesRemoved = 0 → counter stats = 0
  drops : ∀ old new, pass.edit old = .ok new →
    counter (pass.count old new .start) = measure old - measure new

theorem strippingCounts : Counts stripping Stats.callsRemoved tokens where
  additive _ _ := rfl
  idle _ none _ := none
  drops old new edited := by
    cases edited
    simp [stripping, Stats.count, Stats.start, Script.strippedCount, tokens]

theorem pruningCounts (read : Usage.Reader) (scripts : List Text) :
    Counts (pruning read scripts) Stats.classesRemoved classes where
  additive _ _ := rfl
  idle _ _ none := none
  drops old new _ := by simp [pruning, Stats.count, Stats.start, classes]

section
variable {host : Host} {pass : Pass} {sites : List Site} {before after : Sweep}
  (passed : Passed host pass sites before after) (standing : ∀ site ∈ sites, Standing before.store site)
include passed standing

theorem Passed.weight {counter : Stats → Int} {measure : Text → Int} (counts : Counts pass counter measure)
    {site : Site} (mem : site ∈ sites) : weight host before.store measure site.path =
      weight host after.store measure site.path +
        counter (pass.tally .start site.path (host.rewrite pass.edit before.store site.path).1) := by
  have here := standing site mem
  have read := readSettled here (here.grown passed.swept.grown) (passed.swept.held site mem)
  unfold Run.weight
  cases outcome : (host.rewrite pass.edit before.store site.path).1 with
  | error failure =>
    rw [outcome] at read
    rw [read, Pass.tally, counts.idle _ rfl rfl]
    simp [changeOf]
  | ok texts =>
    obtain ⟨old, new⟩ := texts
    obtain ⟨found, edited⟩ := rewriteOk outcome
    rw [outcome, changeOf] at read
    by_cases same : new = old
    · rw [if_pos same] at read
      rw [read, Pass.tally, if_pos same, counts.idle .start rfl rfl, Int.add_zero]
    · rw [if_neg same] at read
      rw [read, found, Pass.tally, if_neg same, counts.drops old new edited]
      simp only []
      omega

theorem Passed.conserves {counter : Stats → Int} {measure : Text → Int} (adds : pass.Adds)
    (counts : Counts pass counter measure) :
    total host before.store measure (sites.map Site.path) + counter before.stats =
      total host after.store measure (sites.map Site.path) + counter after.stats := by
  have weights : total host before.store measure (sites.map Site.path) = (sites.map fun site =>
      Run.weight host after.store measure site.path + counter
        (pass.tally .start site.path (host.rewrite pass.edit before.store site.path).1)).sum := by
    rw [total, List.map_map]
    exact congrArg List.sum (List.map_congr_left fun site mem => passed.weight standing counts mem)
  rw [weights, List.sum_map_add, passed.sum counts.additive adds, total, List.map_map]
  simp only [Function.comp_def]
  omega

theorem Passed.idle {counter : Stats → Int} (adds : pass.Adds) (counts : Counts pass counter fun _ => 0) :
    counter after.stats = counter before.stats := by
  have kept := passed.conserves standing adds counts
  have nothing : ∀ store, total host store (fun _ => 0) (sites.map Site.path) = 0 := fun store => by
    unfold total Run.weight
    refine List.sum_eq_zero fun amount mem => ?_
    obtain ⟨path, _, rfl⟩ := List.mem_map.mp mem
    cases host.read store path <;> rfl
  rw [nothing, nothing] at kept
  omega

end

def bytesAt (host : Host) (store : Store) (path : Text) : Option Utf8.Bytes :=
  match store.node? host.workDir path with
  | some (.file _ bytes) => some bytes
  | _ => none

def altered (host : Host) (before after : Store) (path : Text) : Bool :=
  bytesAt host after path ≠ bytesAt host before path

theorem bytesSame {host : Host} {store later : Store} {path : Text}
    (same : later.node? host.workDir path = store.node? host.workDir path) :
    bytesAt host later path = bytesAt host store path := by
  rw [bytesAt, bytesAt, same]

theorem alteredOfNode {host : Host} {before after : Store} {path : Text}
    (same : after.node? host.workDir path = before.node? host.workDir path) :
    altered host before after path = false := by
  simp [altered, bytesSame same]

theorem Edited.altered {host : Host} {before after : Store} {edited : Text → Text} {path : Text}
    {outcome : Except Failure (Text × Text)} (result : Edited host before after edited path outcome) :
    Run.altered host before after path = (changeOf outcome).isSome := by
  cases result with
  | failed stays => exact alteredOfNode stays
  | @made old new mode bytes same stood text stands =>
    simp only [Run.altered, bytesAt, stood, stands, changeOf]
    by_cases kept : new = old
    · simp [kept]
    · -- The bytes of another text are others, as both can be read.
      have differ : Utf8.encode new ≠ bytes := fun alike => by
        rw [← alike, Utf8.decodeEncode] at text
        exact kept (Except.ok.inj text)
      simp [kept, differ]

theorem sumOnes {α : Type} (p : α → Bool) (items : List α) :
    (items.map fun item => if p item then 1 else 0).sum = items.countP p := by
  induction items with
  | nil => rfl
  | cons item rest ih => rw [List.map_cons, List.sum_cons, ih, List.countP_cons, Nat.add_comm]

theorem Passed.files {host : Host} {pass : Pass} {sites : List Site} {before after : Sweep}
    (passed : Passed host pass sites before after) (standing : ∀ site ∈ sites, Standing before.store site)
    (adds : pass.Adds) {edited : Text → Text} (edits : ∀ old new, pass.edit old = .ok new → edited old = new)
    (ones : ∀ old new, (pass.count old new .start).filesProcessed = 1) :
    after.stats.filesProcessed = before.stats.filesProcessed +
      (sites.map Site.path).countP (altered host before.store after.store) := by
  rw [@Passed.sum Nat _ Stats.filesProcessed (fun _ _ => rfl) host pass adds sites before after passed,
    List.countP_map, ← sumOnes]
  refine congrArg _ (congrArg List.sum (List.map_congr_left fun site mem => ?_))
  have here := standing site mem
  have result := editedOf here (here.grown passed.swept.grown) edits (passed.swept.held site mem)
  rw [Function.comp_apply, result.altered]
  cases (host.rewrite pass.edit before.store site.path).1 with
  | error failure => rfl
  | ok texts =>
    obtain ⟨old, new⟩ := texts
    by_cases same : new = old
    · simp [Pass.tally, changeOf, same, Stats.start]
    · simp [Pass.tally, changeOf, same, ones]

section
variable {host : Host} {choice : Choice} {scripts styles : Scan} {first second : List Site}
  {start middle ended : Sweep} (staged : Staged host choice scripts styles first second start middle ended)
include staged

theorem Staged.tokens : total host start.store tokens scripts.files + start.stats.callsRemoved =
    total host ended.store tokens scripts.files + ended.stats.callsRemoved := by
  have counts : Counts (pruning (host.read middle.store) scripts.files) Stats.callsRemoved fun _ => 0 :=
    ⟨fun _ _ => rfl, fun _ none _ => none, fun _ _ _ => rfl⟩
  rw [staged.prunes.idle (fun site mem => staged.later.style mem) (pruningAdds _ _) counts,
    totalCongr staged.scriptsRead]
  have kept := staged.strips.conserves (staged.found.passing choice) strippingAdds strippingCounts
  cases strip : choice.stripCalls with
  | true => rwa [strip, if_pos rfl, ← staged.found.scripts] at kept
  | false =>
    rw [totalCongr (staged.unstrippedRead strip)]
    simpa [strip, total] using kept

theorem Staged.classes : total host start.store classes styles.files + start.stats.classesRemoved =
    total host ended.store classes styles.files + ended.stats.classesRemoved := by
  have counts : Counts stripping Stats.classesRemoved fun _ => 0 :=
    ⟨fun _ _ => rfl, fun _ _ none => none, fun _ _ _ => rfl⟩
  have kept := staged.prunes.conserves (fun site mem => staged.later.style mem) (pruningAdds _ _)
    (pruningCounts _ _)
  rwa [← staged.found.styles, totalCongr staged.stylesRead,
    staged.strips.idle (staged.found.passing choice) strippingAdds counts] at kept

theorem Staged.scriptsAltered : scripts.files.countP (altered host start.store ended.store) =
    ((if choice.stripCalls then first else []).map Site.path).countP
      (altered host start.store middle.store) := by
  have same : ∀ site ∈ first, altered host start.store ended.store site.path =
      altered host start.store middle.store site.path := fun site mem => by
    have node := nodeSame (staged.later.script mem) (staged.last.script mem) (staged.scriptsStay mem)
    rw [altered, altered, bytesSame (node host.workDir)]
  rw [staged.found.scripts, List.countP_map, List.countP_map]
  cases strip : choice.stripCalls with
  | true => exact List.countP_congr fun site mem => by simp [same site mem]
  | false =>
    refine List.countP_eq_zero.mpr fun site mem => ?_
    rw [Function.comp_apply, same site mem, alteredOfNode]
    · exact Bool.false_ne_true
    · exact nodeSame (staged.found.script mem) (staged.later.script mem) (staged.unstripped strip mem) _

theorem Staged.stylesAltered : styles.files.countP (altered host start.store ended.store) =
    (second.map Site.path).countP (altered host middle.store ended.store) := by
  rw [staged.found.styles, List.countP_map, List.countP_map]
  refine List.countP_congr fun site mem => ?_
  have node := nodeSame (staged.found.style mem) (staged.later.style mem) (staged.stylesStay mem)
  simp only [Function.comp_apply, altered, bytesSame (node host.workDir)]

theorem Staged.files : ended.stats.filesProcessed = start.stats.filesProcessed +
    (scripts.files ++ styles.files).countP (altered host start.store ended.store) := by
  rw [staged.prunes.files (fun site mem => staged.later.style mem) (pruningAdds _ _)
      (fun _ _ => Usage.pruneByOk) fun _ _ => rfl,
    staged.strips.files (staged.found.passing choice) strippingAdds (fun _ _ => Except.ok.inj) fun _ _ => rfl,
    List.countP_append, staged.scriptsAltered, staged.stylesAltered, Nat.add_assoc]

end

/-- What a run that writes reports is what the disk shows: the calls and classes that its files have fewer of,
and how many of them hold other bytes. Files that cannot be read count for nothing, before and after. -/
theorem countersConserved {host : Host} {store : Store} {root : Datum} {choice : Choice} {sweep : Sweep}
    (tree : store.Tree) (plain : host.PlainTags) (real : choice.dryRun = false)
    (ran : run host store root choice = .ok sweep) :
    (∀ place scripts styles, Ready host store root choice place scripts styles →
      total host store tokens scripts.files =
        total host sweep.store tokens scripts.files + sweep.stats.callsRemoved ∧
      total host store classes styles.files =
        total host sweep.store classes styles.files + sweep.stats.classesRemoved ∧
      sweep.stats.filesProcessed =
        (scripts.files ++ styles.files).countP (altered host store sweep.store)) ∧
    ((∀ place scripts styles, ¬ Ready host store root choice place scripts styles) →
      sweep.store = store ∧ sweep.stats.callsRemoved = 0 ∧ sweep.stats.classesRemoved = 0 ∧
        sweep.stats.filesProcessed = 0) := by
  refine ⟨fun place scripts styles ready => ?_, runBarren ran⟩
  obtain ⟨first, second, middle, staged⟩ := ready.staged ran tree plain real
  have calls := staged.tokens
  have rules := staged.classes
  have files := staged.files
  rw [begunStats, (begunKeeps store place scripts styles).1] at calls rules files
  rw [Stats.start, Int.add_zero] at calls rules
  rw [Stats.start, Nat.zero_add] at files
  exact ⟨calls, rules, files⟩

theorem refusedScriptCounted : scriptAndStyle.Tree ∧ refusingHost.PlainTags ∧
    ∃ sweep, run refusingHost scriptAndStyle (.text "/p".toList) ⟨false, true, true⟩ = .ok sweep ∧
      sweep.stats.callsRemoved = 0 ∧ sweep.stats.classesRemoved = 1 ∧
      total refusingHost scriptAndStyle classes ["/p/src/b.css".toList] =
        total refusingHost sweep.store classes ["/p/src/b.css".toList] + sweep.stats.classesRemoved ∧
      sweep.stats.filesProcessed = ["/p/src/a.js".toList, "/p/src/b.css".toList].countP
        (altered refusingHost scriptAndStyle sweep.store) := by
  have tree : scriptAndStyle.Tree := by decide +kernel
  have plain : refusingHost.PlainTags := by decide
  have ready : Ready refusingHost scriptAndStyle (.text "/p".toList) ⟨false, true, true⟩ "/p".toList
      ⟨["/p/src/a.js".toList], []⟩ ⟨["/p/src/b.css".toList], []⟩ := by
    constructor <;> rfl
  have ran := readyRun ready
  generalize ended : (Sweep.passes refusingHost ⟨false, true, true⟩ _ _ _).finish = sweep at ran
  have told : sweep.stats.callsRemoved = 0 ∧ sweep.stats.classesRemoved = 1 := by
    rw [← ended]
    decide +kernel
  obtain ⟨_, rules, files⟩ := (countersConserved tree plain rfl ran).1 _ _ _ ready
  exact ⟨tree, plain, sweep, ran, told.1, told.2, rules, files⟩

end SourceSweep.Run
