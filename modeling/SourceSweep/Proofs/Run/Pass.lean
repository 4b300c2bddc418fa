import Mathlib.Data.List.Induction
import SourceSweep.Proofs.Files.Rewrite
import SourceSweep.Proofs.Usage.Verdict
import SourceSweep.Run.Sweep

/-! The two passes of a sweep, file by file. A pass edits a text and counts what it changed; what it
reports is a tally of what editing each file came to. -/
namespace SourceSweep.Run
open Text Files Store

structure Pass where
  edit : Edit
  count : Text → Text → Stats → Stats

def stripping : Pass where
  edit script := .ok (Script.strip script)
  count script _ stats := stats.count (Script.strippedCount script) 0

def pruning (read : Usage.Reader) (scripts : List Text) : Pass where
  edit := Usage.pruneBy read scripts
  count css pruned stats := stats.count 0 (Style.classCount css - Style.classCount pruned)

def Pass.tally (pass : Pass) (stats : Stats) (path : Text) :
    Except Failure (Text × Text) → Stats
  | .error failure => stats.fail (failure.toProblem path)
  | .ok (old, new) => if new = old then stats else pass.count old new stats

def problemOf (path : Text) : Except Failure (Text × Text) → Option Problem
  | .error failure => some (failure.toProblem path)
  | .ok _ => none

structure Follows (host : Host) (pass : Pass) (path : Text) (before after : Sweep) : Prop where
  store : after.store = (host.rewrite pass.edit before.store path).2
  stats : after.stats = pass.tally before.stats path (host.rewrite pass.edit before.store path).1
  pending : after.pending = before.pending

section
variable {host : Host} {pass : Pass} {path old new : Text} {sweep : Sweep}

theorem followsUnread {failure : Failure} (unread : host.read sweep.store path = .error failure) :
    Follows host pass path sweep (sweep.fail path failure) := by
  constructor <;> simp [Host.rewrite, unread, Pass.tally, Sweep.fail, Sweep.note]

variable (found : host.read sweep.store path = .ok old)
include found

theorem followsEscape {escape : Escape} (edited : pass.edit old = .error escape) :
    Follows host pass path sweep (sweep.fail path (.escape escape)) := by
  constructor <;> simp [Host.rewrite, found, edited, Pass.tally, Sweep.fail, Sweep.note]

theorem followsSame (edited : pass.edit old = .ok old) : Follows host pass path sweep sweep := by
  constructor <;> simp [Host.rewrite, found, edited, Pass.tally]

theorem followsSave (edited : pass.edit old = .ok new) (changed : new ≠ old) {count : Sweep → Sweep}
    (counts : ∀ sweep, (count sweep).store = sweep.store ∧ (count sweep).pending = sweep.pending ∧
      (count sweep).stats = pass.count old new sweep.stats) :
    Follows host pass path sweep (sweep.save host path new count) := by
  have outcome : host.rewrite pass.edit sweep.store path =
      ((host.write sweep.store path new).1.map fun _ => (old, new),
        (host.write sweep.store path new).2) := by
    simp only [Host.rewrite, found, edited, changed, if_false]
    generalize host.write sweep.store path new = step
    obtain ⟨result, after⟩ := step
    cases result <;> rfl
  unfold Sweep.save
  generalize host.write sweep.store path new = step at outcome ⊢
  obtain ⟨result, after⟩ := step
  cases result with
  | error failure => constructor <;> simp [outcome, Except.map, Pass.tally, Sweep.fail, Sweep.note]
  | ok =>
    obtain ⟨stores, waits, reports⟩ := counts { sweep with store := after }
    constructor
    · rw [outcome, stores]
    · rw [outcome, reports]
      simp [Except.map, Pass.tally, changed]
    · exact waits

end

section
variable {host : Host} {choice : Choice} (real : choice.dryRun = false) (sweep : Sweep) (path : Text)
include real

theorem stripFileFollows : Follows host stripping path sweep (sweep.stripFile host choice path) := by
  unfold Sweep.stripFile
  cases found : host.read sweep.store path with
  | error failure => exact followsUnread found
  | ok script =>
    dsimp only
    split_ifs with same dry
    · exact followsSame found (congrArg Except.ok same)
    · exact absurd (dry.symm.trans real) Bool.false_ne_true.symm
    · exact followsSave found rfl same fun sweep => ⟨rfl, rfl, rfl⟩

theorem pruneFileFollows (scripts : List Text) :
    Follows host (pruning (Usage.readKnown sweep.pending (host.read sweep.store)) scripts) path sweep
      (sweep.pruneFile host choice scripts path) := by
  generalize rules : pruning (Usage.readKnown sweep.pending (host.read sweep.store)) scripts = pass
  unfold Sweep.pruneFile
  cases found : host.read sweep.store path with
  | error failure => exact followsUnread found
  | ok css =>
    have asked : ((Usage.Checker.ofFiles scripts sweep.pending).prune (host.read sweep.store) css).1 =
        pass.edit css := by
      rw [← rules]
      exact Usage.checkerPrunes scripts sweep.pending (host.read sweep.store) css
    have counts : ∀ pruned stats, pass.count css pruned stats =
        stats.count 0 (Style.classCount css - Style.classCount pruned) := by
      rw [← rules]
      exact fun _ _ => rfl
    dsimp only
    generalize (Usage.Checker.ofFiles scripts sweep.pending).prune (host.read sweep.store) css =
      step at asked ⊢
    obtain ⟨pruned, checker⟩ := step
    -- What the checker reports changes nothing that the pass goes on from.
    suffices noted : Follows host pass path
        { sweep with journal := checker.journal ++ sweep.journal } _ from
      ⟨noted.store, noted.stats, noted.pending⟩
    have found : host.read { sweep with journal := checker.journal ++ sweep.journal }.store path =
        .ok css := found
    cases pruned with
    | error escape => exact followsEscape found asked.symm
    | ok pruned =>
      dsimp only
      split_ifs with same dry
      · exact followsSame found (same ▸ asked.symm)
      · exact absurd (dry.symm.trans real) Bool.false_ne_true.symm
      · exact followsSave found asked.symm same fun sweep => ⟨rfl, rfl, (counts _ _).symm⟩

end

structure Passed (host : Host) (pass : Pass) (sites : List Site) (before after : Sweep) : Prop where
  swept : Host.Swept host pass.edit before.store sites after.store
  stats : after.stats = sites.foldl (fun stats site =>
    pass.tally stats site.path (host.rewrite pass.edit before.store site.path).1) before.stats
  pending : after.pending = before.pending

theorem apartSplit {done rest : List Site} {site : Site}
    (apart : ((done ++ site :: rest).map Site.place).Nodup) : (done.map Site.place).Nodup ∧
      ∀ other ∈ done, site.place ≠ other.place := by
  rw [List.map_append, List.nodup_append] at apart
  obtain ⟨once, _, differ⟩ := apart
  exact ⟨once, fun other mem same =>
    differ other.place (List.mem_map_of_mem mem) site.place (by simp) same.symm⟩

theorem passedAll {host : Host} (plain : host.PlainTags) {pass : Pass} {sites : List Site}
    {before : Sweep} (standing : ∀ site ∈ sites, Standing before.store site)
    (apart : (sites.map Site.place).Nodup) {next : Sweep → Text → Sweep}
    (follows : ∀ done, (∀ site ∈ done, site ∈ sites) → ∀ sweep : Sweep,
      Host.Swept host pass.edit before.store done sweep.store → sweep.pending = before.pending →
      ∀ path, Follows host pass path sweep (next sweep path)) :
    Passed host pass sites before ((sites.map Site.path).foldl next before) := by
  induction sites using List.reverseRecOn with
  | nil => exact ⟨Host.sweptNone host pass.edit before.store, rfl, rfl⟩
  | append_singleton done site ih =>
    obtain ⟨once, away⟩ := apartSplit apart
    have inside : ∀ other ∈ done, other ∈ done ++ [site] := fun other mem =>
      List.mem_append_left [site] mem
    obtain ⟨swept, stats, pending⟩ := ih (fun other mem => standing other (inside other mem)) once
      fun earlier among => follows earlier fun other mem => inside other (among other mem)
    have here := standing site (List.mem_append_right done List.mem_cons_self)
    have earlier := fun other mem => standing other (inside other mem)
    have step := follows done inside _ swept pending site.path
    rw [List.map_append, List.foldl_append]
    refine ⟨?_, ?_, step.pending.trans pending⟩
    · have onward := swept.step earlier here away plain
      rwa [← step.store] at onward
    · refine step.stats.trans ?_
      rw [swept.rewrite earlier here away plain, stats, List.foldl_append]
      rfl

theorem tallyErrors (pass : Pass) (kept : ∀ old new stats, (pass.count old new stats).errors = stats.errors)
    (outcome : Text → Except Failure (Text × Text)) (sites : List Site) (stats : Stats) :
    (sites.foldl (fun stats site => pass.tally stats site.path (outcome site.path)) stats).errors =
      stats.errors ++ (sites.map Site.path).filterMap fun path => problemOf path (outcome path) := by
  induction sites generalizing stats with
  | nil => simp
  | cons site rest ih =>
    rw [List.foldl_cons, ih, List.map_cons, List.filterMap_cons]
    cases outcome site.path with
    | error failure => simp [Pass.tally, problemOf, Stats.fail]
    | ok texts =>
      obtain ⟨old, new⟩ := texts
      simp only [Pass.tally, problemOf]
      split_ifs
      · rfl
      · rw [kept]

end SourceSweep.Run
