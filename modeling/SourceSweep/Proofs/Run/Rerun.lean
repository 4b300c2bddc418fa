import SourceSweep.Proofs.Run.Clean
import SourceSweep.Proofs.Run.Composition
import SourceSweep.Proofs.Usage.PruneTwice

/-! Running a second time. After a run that reported no error the files read as what the passes made of
them, so that a second run changes nothing, as long as no stripped script holds a call that can be stripped. -/
namespace SourceSweep.Run
open Text Files Store

structure Unmoved (before after : Sweep) : Prop where
  store : after.store = before.store
  stats : after.stats = before.stats
  pending : after.pending = before.pending

theorem unmovedSelf (sweep : Sweep) : Unmoved sweep sweep := ⟨rfl, rfl, rfl⟩

theorem Unmoved.trans {before now after : Sweep} (one : Unmoved before now) (two : Unmoved now after) :
    Unmoved before after :=
  ⟨two.store.trans one.store, two.stats.trans one.stats, two.pending.trans one.pending⟩

theorem unmovedAll {next : Sweep → Text → Sweep} {before now : Sweep} (here : Unmoved before now)
    {paths : List Text}
    (quiet : ∀ path ∈ paths, ∀ now, Unmoved before now → Unmoved now (next now path)) :
    Unmoved before (paths.foldl next now) := by
  induction paths generalizing now with
  | nil => exact here
  | cons path rest ih =>
    rw [List.forall_mem_cons] at quiet
    exact ih (here.trans (quiet.1 now here)) quiet.2

section
variable {host : Host} {choice : Choice} {sweep : Sweep} {path : Text}

theorem stripFileUnmoved {script : Text} (found : host.read sweep.store path = .ok script)
    (same : Script.strip script = script) : Unmoved sweep (sweep.stripFile host choice path) := by
  simp only [Sweep.stripFile, found, if_pos same]
  exact unmovedSelf sweep

theorem pruneFileUnmoved {scripts : List Text} {css : Text} (found : host.read sweep.store path = .ok css)
    (same : Usage.pruneBy (Usage.readKnown sweep.pending (host.read sweep.store)) scripts css = .ok css) :
    Unmoved sweep (sweep.pruneFile host choice scripts path) := by
  have asked := (Usage.checkerPrunes scripts sweep.pending (host.read sweep.store) css).trans same
  simp only [Sweep.pruneFile, found]
  generalize (Usage.Checker.ofFiles scripts sweep.pending).prune (host.read sweep.store) css = step at asked
  obtain ⟨pruned, checker⟩ := step
  cases asked
  simp only [if_true]
  exact ⟨rfl, rfl, rfl⟩

end

structure Settled (host : Host) (choice : Choice) (store : Store) (scripts styles : List Text) : Prop where
  script : choice.stripCalls = true → ∀ path ∈ scripts,
    ∃ script, host.read store path = .ok script ∧ Script.strip script = script
  style : ∀ path ∈ styles, ∃ css, host.read store path = .ok css ∧
    Usage.pruneBy (host.read store) scripts css = .ok css

theorem Settled.unmoved {host : Host} {choice : Choice} {scripts styles : List Text} {start : Sweep}
    (settled : Settled host choice start.store scripts styles) (waits : start.pending = []) :
    Unmoved start (styles.foldl (Sweep.pruneFile host choice scripts)
      (halfway host choice scripts start)) := by
  have stripped : Unmoved start (halfway host choice scripts start) := by
    unfold halfway
    split
    · rename_i strip
      refine unmovedAll (unmovedSelf start) fun path mem now here => ?_
      obtain ⟨script, found, same⟩ := settled.script strip path mem
      exact stripFileUnmoved (here.store.symm ▸ found) same
    · exact unmovedSelf start
  refine unmovedAll stripped fun path mem now here => ?_
  obtain ⟨css, found, same⟩ := settled.style path mem
  refine pruneFileUnmoved (here.store.symm ▸ found) ?_
  rw [here.store, here.pending, waits]
  exact same

theorem Cleaned.settled {host : Host} {choice : Choice} {before after : Store} {scripts styles : List Text}
    (cleaned : Cleaned host choice before after scripts styles)
    (stable : choice.stripCalls = true → ∀ path ∈ scripts, ∀ script, host.read before path = .ok script →
      Script.strip (Script.strip script) = Script.strip script) :
    Settled host choice after scripts styles := by
  refine ⟨fun strip path mem => ?_, fun path mem => ?_⟩
  · obtain ⟨old, turned⟩ := cleaned.script strip path mem
    exact ⟨_, turned.is, stable strip path mem old turned.was⟩
  · obtain ⟨css, pruned, turned, rules⟩ := cleaned.style path mem
    exact ⟨pruned, turned.is, Usage.pruneByTwice rules⟩

theorem Staged.strewn {host : Host} {choice : Choice} {scripts styles : Scan} {first second : List Site}
    {start middle ended : Sweep}
    (staged : Staged host choice scripts styles first second start middle ended) :
    Host.Strewn start.store ended.store := by
  have stripped := sweptStrewn staged.strips.swept (staged.found.passing choice)
  exact stripped.trans (sweptStrewn staged.prunes.swept fun site mem => staged.later.style mem)

/-- A second run after one without errors comes to the same files and changes none of them. -/
theorem rerunQuiet {host : Host} {store : Store} {root : Datum} {choice : Choice} {sweep : Sweep}
    (tree : store.Tree) (plain : host.PlainTags) (real : choice.dryRun = false)
    (ran : run host store root choice = .ok sweep) (clean : sweep.stats.errors = [])
    (stable : choice.stripCalls = true → ∀ place scripts styles,
      Ready host store root choice place scripts styles → ∀ path ∈ scripts.files, ∀ script,
        host.read store path = .ok script → Script.strip (Script.strip script) = Script.strip script) :
    ∃ again, run host sweep.store root choice = .ok again ∧ again.store = sweep.store ∧
      again.stats.callsRemoved = 0 ∧ again.stats.classesRemoved = 0 ∧ again.stats.filesProcessed = 0 ∧
      again.stats.errors = [] := by
  by_cases comes : ∃ place scripts styles, Ready host store root choice place scripts styles
  · obtain ⟨place, scripts, styles, ready⟩ := comes
    obtain ⟨first, second, middle, staged⟩ := ready.staged ran tree plain real
    have strewn := staged.strewn
    rw [(begunKeeps store place scripts styles).1] at strewn
    have settled := (ready.cleaned tree plain real ran clean).settled
      fun strip => stable strip place scripts styles ready
    obtain ⟨same, waits, _⟩ := begunKeeps sweep.store place scripts styles
    obtain ⟨kept, stats, _⟩ := Settled.unmoved (same.symm ▸ settled) waits
    refine ⟨_, readyPasses (ready.again tree strewn), kept.trans same, ?_⟩
    rw [Sweep.finish, Sweep.note, stats, begunStats]
    exact ⟨rfl, rfl, rfl, rfl⟩
  · obtain ⟨same, calls, classes, files⟩ := runBarren ran fun place scripts styles ready =>
      comes ⟨place, scripts, styles, ready⟩
    exact ⟨sweep, same.symm ▸ ran, rfl, calls, classes, files, clean⟩

theorem sweptProjectRests : scriptAndStyle.Tree ∧ faultlessHost.PlainTags ∧ ∃ sweep again,
    run faultlessHost scriptAndStyle (.text "/p".toList) ⟨false, true, true⟩ = .ok sweep ∧
    sweep.stats.filesProcessed = 2 ∧ sweep.stats.errors = [] ∧
    run faultlessHost sweep.store (.text "/p".toList) ⟨false, true, true⟩ = .ok again ∧
    again.store = sweep.store ∧ again.stats.filesProcessed = 0 := by
  have tree : scriptAndStyle.Tree := by decide +kernel
  have plain : faultlessHost.PlainTags := by decide
  have ready : Ready faultlessHost scriptAndStyle (.text "/p".toList) ⟨false, true, true⟩ "/p".toList
      ⟨["/p/src/a.js".toList], []⟩ ⟨["/p/src/b.css".toList], []⟩ := by
    constructor <;> rfl
  have ran := readyRun ready
  generalize ended : (Sweep.passes faultlessHost ⟨false, true, true⟩ _ _ _).finish = sweep at ran
  have told : sweep.stats.filesProcessed = 2 ∧ sweep.stats.errors.isEmpty := by
    rw [← ended]
    decide +kernel
  obtain ⟨files, clean⟩ := told
  have clean := List.isEmpty_iff.mp clean
  have opened : faultlessHost.open? scriptAndStyle "/p/src/a.js".toList =
      .ok (Utf8.encode "console.log(1);\n\"b\"".toList) := rfl
  have held : faultlessHost.read scriptAndStyle "/p/src/a.js".toList =
      .ok "console.log(1);\n\"b\"".toList := by simp only [Host.read, opened, Utf8.decodeEncode]
  obtain ⟨again, ranAgain, same, _, _, rests, _⟩ := rerunQuiet tree plain rfl ran clean (by
    intro _ place scripts styles comes path listed script found
    cases ready.valid.symm.trans comes.valid
    cases ready.scripts.symm.trans comes.scripts
    cases List.mem_singleton.mp listed
    cases held.symm.trans found
    decide +kernel)
  exact ⟨tree, plain, sweep, again, ran, files, clean, ranAgain, same, rests⟩

end SourceSweep.Run
