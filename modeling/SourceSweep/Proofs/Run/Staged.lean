import SourceSweep.Proofs.Run.Answered
import SourceSweep.Proofs.Run.Foresight

/-! A run that writes, told as its two passes over the files that its scans found. A run that does not come
to them leaves everything as it is. -/
namespace SourceSweep.Run
open Text Files Store

structure Staged (host : Host) (choice : Choice) (scripts styles : Scan) (first second : List Site)
    (start middle ended : Sweep) : Prop where
  found : Found start.store scripts styles first second
  strips : Passed host stripping (if choice.stripCalls then first else []) start middle
  prunes : Passed host (pruning (host.read middle.store) scripts.files) second middle ended

section
variable {host : Host} {store : Store} {root : Datum} {choice : Choice} {sweep : Sweep}
  (ran : run host store root choice = .ok sweep)
include ran

theorem Ready.staged {place : Text} {scripts styles : Scan}
    (ready : Ready host store root choice place scripts styles) (tree : store.Tree)
    (plain : host.PlainTags) (real : choice.dryRun = false) : ∃ first second middle,
      Staged host choice scripts styles first second (begun store place scripts styles) middle sweep := by
  obtain ⟨first, second, found⟩ := ready.found tree
  obtain ⟨same, waits, _⟩ := begunKeeps store place scripts styles
  rw [readyPasses ready] at ran
  cases ran
  have strips := scriptsPassed found plain real same
  have later := found.later (same ▸ strips.swept.grown)
  obtain ⟨swept, stats, pending⟩ := stylesPassed later plain real rfl (strips.pending.trans waits)
  exact ⟨first, second, _, same.symm ▸ found, strips, swept, stats, pending⟩

theorem runBarren (unready : ∀ place scripts styles, ¬ Ready host store root choice place scripts styles) :
    sweep.store = store ∧ sweep.stats.callsRemoved = 0 ∧ sweep.stats.classesRemoved = 0 ∧
      sweep.stats.filesProcessed = 0 := by
  by_cases refused : ∀ place, validateRoot host store root ≠ .ok place
  · obtain ⟨same, problem, stats⟩ := rootless refused ran
    rw [stats]
    exact ⟨same, rfl, rfl, rfl⟩
  · obtain ⟨place, valid⟩ : ∃ place, validateRoot host store root = .ok place := by simpa using refused
    obtain ⟨leads, source, comes⟩ := runFound valid ran
    cases leads with
    | true =>
      obtain ⟨scripts, styles, ready⟩ := comes rfl
      exact absurd ready (unready place scripts styles)
    | false =>
      obtain ⟨same, stats⟩ := sourceless valid source ran
      rw [stats]
      exact ⟨same, rfl, rfl, rfl⟩

end

section
variable {host : Host} {choice : Choice} {scripts styles : Scan} {first second : List Site}
  {start middle ended : Sweep} (staged : Staged host choice scripts styles first second start middle ended)
include staged

theorem Staged.later : Found middle.store scripts styles first second :=
  staged.found.later staged.strips.swept.grown

theorem Staged.last : Found ended.store scripts styles first second :=
  staged.later.later staged.prunes.swept.grown

theorem Staged.scriptsStay {site : Site} (mem : site ∈ first) :
    ended.store.get? site.place = middle.store.get? site.place :=
  staged.prunes.swept.untouched (staged.later.script mem).present
    fun _ mem' => staged.found.differ mem mem'

theorem Staged.stylesStay {site : Site} (mem : site ∈ second) :
    middle.store.get? site.place = start.store.get? site.place :=
  staged.strips.swept.untouched (staged.found.style mem).present (staged.found.differPassed choice mem)

theorem Staged.unstripped (keeps : choice.stripCalls = false) {site : Site} (mem : site ∈ first) :
    middle.store.get? site.place = start.store.get? site.place :=
  staged.strips.swept.untouched (staged.found.script mem).present (by simp [keeps])

theorem Staged.scriptsRead : ∀ path ∈ scripts.files,
    host.read ended.store path = host.read middle.store path := by
  rw [staged.found.scripts]
  exact Host.readsSame (fun _ mem => staged.later.script mem) staged.prunes.swept.grown
    fun _ mem => staged.scriptsStay mem

theorem Staged.stylesRead : ∀ path ∈ styles.files,
    host.read middle.store path = host.read start.store path := by
  rw [staged.found.styles]
  exact Host.readsSame (fun _ mem => staged.found.style mem) staged.strips.swept.grown
    fun _ mem => staged.stylesStay mem

theorem Staged.unstrippedRead (keeps : choice.stripCalls = false) : ∀ path ∈ scripts.files,
    host.read middle.store path = host.read start.store path := by
  rw [staged.found.scripts]
  exact Host.readsSame (fun _ mem => staged.found.script mem) staged.strips.swept.grown
    fun _ mem => staged.unstripped keeps mem

end

end SourceSweep.Run
