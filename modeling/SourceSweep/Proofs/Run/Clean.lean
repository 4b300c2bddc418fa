import SourceSweep.Proofs.Run.Staged

/-! Runs that report no error. Every file of theirs was read, and reads afterwards as the text that its
pass made of it; the verdicts behind a stylesheet are those of the scripts as they are in the end. -/
namespace SourceSweep.Run
open Text Files Store

theorem ofNoProblem {path : Text} {outcome : Except Failure (Text × Text)}
    (none : problemOf path outcome = none) : ∃ old new, outcome = .ok (old, new) := by
  cases outcome with
  | error failure => cases none
  | ok texts => exact ⟨texts.1, texts.2, rfl⟩

structure Turned (host : Host) (before after : Store) (path old new : Text) : Prop where
  was : host.read before path = .ok old
  is : host.read after path = .ok new

theorem Passed.turned {host : Host} {pass : Pass} {sites : List Site} {before after : Sweep}
    (passed : Passed host pass sites before after) {site : Site} (mem : site ∈ sites)
    (standing : Standing before.store site) {old new : Text}
    (done : (host.rewrite pass.edit before.store site.path).1 = .ok (old, new)) :
    Turned host before.store after.store site.path old new := by
  obtain ⟨found, _⟩ := rewriteOk done
  have read := readSettled standing (standing.grown passed.swept.grown) (passed.swept.held site mem)
  refine ⟨found, ?_⟩
  rw [read, done, changeOf, found]
  split_ifs with same
  · rw [same]
  · rfl

structure Cleaned (host : Host) (choice : Choice) (before after : Store) (scripts styles : List Text) :
    Prop where
  script : choice.stripCalls = true → ∀ path ∈ scripts,
    ∃ old, Turned host before after path old (Script.strip old)
  style : ∀ path ∈ styles, ∃ css pruned, Turned host before after path css pruned ∧
    Usage.pruneBy (host.read after) scripts css = .ok pruned

section
variable {host : Host} {choice : Choice} {scripts styles : Scan} {first second : List Site}
  {start middle ended : Sweep} (staged : Staged host choice scripts styles first second start middle ended)
include staged

theorem scriptTurned (strip : choice.stripCalls = true) {site : Site} (mem : site ∈ first)
    (edited : problemOf site.path (host.rewrite stripping.edit start.store site.path).1 = none) :
    ∃ old, Turned host start.store ended.store site.path old (Script.strip old) := by
  obtain ⟨old, new, done⟩ := ofNoProblem edited
  obtain ⟨_, rfl⟩ : _ ∧ Script.strip old = new := (rewriteOk done).imp_right Except.ok.inj
  have turned := staged.strips.turned (by rwa [if_pos strip]) (staged.found.script mem) done
  refine ⟨old, turned.was, ?_⟩
  rw [staged.scriptsRead site.path (staged.found.scripts ▸ List.mem_map_of_mem mem)]
  exact turned.is

theorem styleTurned (plain : host.PlainTags) {site : Site} (mem : site ∈ second)
    (edited : problemOf site.path (host.rewrite (Usage.pruneBy (host.read middle.store) scripts.files)
      start.store site.path).1 = none) :
    ∃ css pruned, Turned host start.store ended.store site.path css pruned ∧
      Usage.pruneBy (host.read ended.store) scripts.files css = .ok pruned := by
  obtain ⟨css, pruned, done⟩ := ofNoProblem edited
  obtain ⟨was, rules⟩ := rewriteOk done
  have turned := staged.prunes.turned mem (staged.later.style mem)
    ((styleOutcome staged.found plain staged.strips _ mem).trans done)
  refine ⟨css, pruned, ⟨was, turned.is⟩, ?_⟩
  rwa [Usage.pruneByCongr staged.scriptsRead]

theorem Staged.cleaned (plain : host.PlainTags) (none : start.stats.errors = [])
    (clean : ended.stats.errors = []) :
    Cleaned host choice start.store ended.store scripts.files styles.files := by
  obtain ⟨found, strips, prunes⟩ := staged
  rw [styleErrors found plain strips prunes, List.append_eq_nil_iff, List.filterMap_eq_nil_iff] at clean
  obtain ⟨before, edited⟩ := clean
  rw [scriptErrors found strips none] at before
  constructor
  · intro strip path listed
    rw [if_pos strip, List.filterMap_eq_nil_iff] at before
    obtain ⟨site, mem, rfl⟩ := List.mem_map.mp (found.scripts ▸ listed)
    exact scriptTurned ⟨found, strips, prunes⟩ strip mem (before site.path listed)
  · intro path listed
    obtain ⟨site, mem, rfl⟩ := List.mem_map.mp (found.styles ▸ listed)
    exact styleTurned ⟨found, strips, prunes⟩ plain mem (edited site.path listed)

end

theorem Ready.cleaned {host : Host} {store : Store} {root : Datum} {choice : Choice} {place : Text}
    {scripts styles : Scan} (ready : Ready host store root choice place scripts styles) (tree : store.Tree)
    (plain : host.PlainTags) (real : choice.dryRun = false) {sweep : Sweep}
    (ran : run host store root choice = .ok sweep) (clean : sweep.stats.errors = []) :
    Cleaned host choice store sweep.store scripts.files styles.files := by
  obtain ⟨first, second, middle, staged⟩ := ready.staged ran tree plain real
  obtain ⟨same, _, none⟩ := begunKeeps store place scripts styles
  have done := staged.cleaned plain none clean
  rwa [same] at done

end SourceSweep.Run
