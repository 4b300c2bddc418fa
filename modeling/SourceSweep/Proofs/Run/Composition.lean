import SourceSweep.Cli.Program
import SourceSweep.Proofs.Files.Rescan
import SourceSweep.Proofs.Run.Answered

/-! Both passes in one run, or a run for each. The second run looks for files again, in a store that the
first one has changed, and comes to the same ones; what the two report adds up. -/
namespace SourceSweep.Run
open Text Files Store

def Stats.plus (stats more : Stats) : Stats where
  callsRemoved := stats.callsRemoved + more.callsRemoved
  classesRemoved := stats.classesRemoved + more.classesRemoved
  filesProcessed := stats.filesProcessed + more.filesProcessed
  errors := stats.errors ++ more.errors
  warnings := stats.warnings ++ more.warnings
  root := stats.root

theorem plusStart (stats : Stats) : stats.plus .start = stats := by simp [Stats.plus, Stats.start]

theorem plusPlus (stats more last : Stats) : (stats.plus more).plus last = stats.plus (more.plus last) := by
  simp [Stats.plus, Int.add_assoc, Nat.add_assoc]

def Pass.Adds (pass : Pass) : Prop :=
  ∀ old new stats, pass.count old new stats = stats.plus (pass.count old new .start)

theorem strippingAdds : stripping.Adds := fun _ _ stats => by
  simp [stripping, Stats.count, Stats.plus, Stats.start]

theorem pruningAdds (read : Usage.Reader) (scripts : List Text) : (pruning read scripts).Adds :=
  fun _ _ stats => by simp [pruning, Stats.count, Stats.plus, Stats.start]

section
variable {pass : Pass} (adds : pass.Adds)
include adds

theorem tallyPlus (stats : Stats) (path : Text) (outcome : Except Failure (Text × Text)) :
    pass.tally stats path outcome = stats.plus (pass.tally .start path outcome) := by
  cases outcome with
  | error failure => simp [Pass.tally, Stats.fail, Stats.plus, Stats.start]
  | ok texts =>
    obtain ⟨old, new⟩ := texts
    simp only [Pass.tally]
    split
    · exact (plusStart stats).symm
    · exact adds old new stats

theorem talliesPlus (outcome : Site → Except Failure (Text × Text)) (sites : List Site) (stats : Stats) :
    sites.foldl (fun stats site => pass.tally stats site.path (outcome site)) stats =
      stats.plus (sites.foldl (fun stats site => pass.tally stats site.path (outcome site)) .start) := by
  induction sites generalizing stats with
  | nil => exact (plusStart stats).symm
  | cons site rest ih =>
    rw [List.foldl_cons, List.foldl_cons, ih, ih (pass.tally .start site.path (outcome site)),
      ← plusPlus, ← tallyPlus adds]

end

/- Where a pass gets to depends on the store and on the texts that wait, not on what was reported. -/
theorem followStores {host : Host} {rules : Store → List (Text × Text) → Pass}
    {next other : Sweep → Text → Sweep}
    (follows : ∀ sweep path, Follows host (rules sweep.store sweep.pending) path sweep (next sweep path))
    (follows' : ∀ sweep path, Follows host (rules sweep.store sweep.pending) path sweep (other sweep path))
    (paths : List Text) {sweep sweep' : Sweep} (store : sweep.store = sweep'.store)
    (pending : sweep.pending = sweep'.pending) :
    (paths.foldl next sweep).store = (paths.foldl other sweep').store := by
  induction paths generalizing sweep sweep' with
  | nil => exact store
  | cons path rest ih =>
    have one := follows sweep path
    have two := follows' sweep' path
    refine ih ?_ ?_
    · rw [one.store, two.store, store, pending]
    · rw [one.pending, two.pending, pending]

theorem sweptStrewn {host : Host} {edit : Edit} {store now : Store} {done : List Site}
    (swept : Host.Swept host edit store done now)
    (standing : ∀ site ∈ done, Standing store site) : Host.Strewn store now := by
  refine ⟨swept.grown, fun dir name absent present => ?_⟩
  have apart : ∀ site ∈ done, name :: dir ≠ site.place := fun site mem same =>
    (standing site mem).present (same ▸ absent)
  obtain ⟨site, _, left⟩ := swept.others (name :: dir) apart (by rwa [absent])
  obtain ⟨tag, _, same⟩ := left.named
  cases same
  exact Host.tempNameLike _ tag

section
variable {host : Host} {store later : Store} (grown : store.Grown later)
include grown

theorem statDirGrown {path : Text} {mode : Nat}
    (stood : host.stat store path = .ok (some (.dir mode))) :
    host.stat later path = .ok (some (.dir mode)) := by
  obtain ⟨clean, spot, found, held⟩ := statFound stood
  have aged := grown spot
  rw [held] at aged
  generalize present : later.get? spot = node at aged
  cases aged
  unfold Host.stat Host.seek at stood ⊢
  cases trouble : host.trouble? .stat path with
  | some trouble => simp [trouble, Except.map] at stood
  | none => simp [clean, grown.find found, present, Except.map]

theorem validGrown {root : Datum} {place : Text} (valid : validateRoot host store root = .ok place) :
    validateRoot host later root = .ok place := by
  obtain ⟨path, mode, same, given, resolved, stood⟩ := validIff.mp valid
  exact validIff.mpr ⟨path, mode, same, given, (Host.resolveGrown host grown path).trans resolved,
    statDirGrown grown stood⟩

theorem sourceGrown {path : Text} (source : leadsToDirectory host store path = .ok true) :
    leadsToDirectory host later path = .ok true := by
  obtain ⟨mode, stood⟩ := leadsToDirectoryIff.mp source
  exact leadsToDirectoryIff.mpr ⟨mode, statDirGrown grown stood⟩

end

section
variable {host : Host} {store : Store} {root : Datum} {choice : Choice} {place : Text}
  (valid : validateRoot host store root = .ok place)
  (source : leadsToDirectory host store (join place "src".toList) = .ok true)
include valid source

theorem scriptsEscape {escape : Escape}
    (scripts : host.scan store scriptExtensions (join place "src".toList) = .error escape) :
    run host store root choice = .error escape := by
  unfold run
  simp only [valid, source, bind, Except.bind, if_true, Sweep.ofSource, Sweep.start, scripts]

theorem stylesEscape {found : Scan} {escape : Escape} (prunes : choice.pruneRules = true)
    (scripts : host.scan store scriptExtensions (join place "src".toList) = .ok found)
    (styles : host.scan store styleExtensions (join place "src".toList) = .error escape) :
    run host store root choice = .error escape := by
  unfold run
  simp only [valid, source, bind, Except.bind, if_true, Sweep.ofSource, Sweep.start, scripts, prunes,
    styles]

end

/-- A run that does what two runs do, one after the other: it leaves what the second leaves, and reports
what the two report. -/
structure Composed (first second both : Sweep) : Prop where
  store : second.store = both.store
  calls : both.stats.callsRemoved = first.stats.callsRemoved + second.stats.callsRemoved
  classes : both.stats.classesRemoved = first.stats.classesRemoved + second.stats.classesRemoved
  files : both.stats.filesProcessed = first.stats.filesProcessed + second.stats.filesProcessed
  errors : both.stats.errors = first.stats.errors ++ second.stats.errors

theorem passGain {host : Host} {pass : Pass} (adds : pass.Adds) {sites : List Site}
    {before after before' after' : Sweep} (one : Passed host pass sites before after)
    (two : Passed host pass sites before' after') (same : before.store = before'.store) :
    ∃ gain, after.stats = before.stats.plus gain ∧ after'.stats = before'.stats.plus gain := by
  have stats := one.stats
  have stats' := two.stats
  rw [talliesPlus adds] at stats stats'
  rw [← same] at stats'
  exact ⟨_, stats, stats'⟩

section
variable {host : Host} {store : Store} {choice other : Choice} {scripts styles : Scan}
  {first second : List Site} (found : Found store scripts styles first second) (plain : host.PlainTags)
  (real : choice.dryRun = false) (real' : other.dryRun = false) {start start' : Sweep}
  (same : start.store = store) (same' : start'.store = store) (waits : start.pending = [])
  (waits' : start'.pending = [])
include found plain real real' same same' waits waits'

theorem stripsAlike (strips : choice.stripCalls = true) (strips' : other.stripCalls = true) :
    (halfway host choice scripts.files start).store = (halfway host other scripts.files start').store ∧
    ∃ gain, (halfway host choice scripts.files start).stats = start.stats.plus gain ∧
      (halfway host other scripts.files start').stats = start'.stats.plus gain := by
  have one := scriptsPassed found plain real same
  have two := scriptsPassed found plain real' same'
  rw [if_pos strips] at one
  rw [if_pos strips'] at two
  refine ⟨?_, passGain strippingAdds one two (same.trans same'.symm)⟩
  unfold halfway
  rw [if_pos strips, if_pos strips']
  exact @followStores host (fun _ _ => stripping) _ _ (stripFileFollows real) (stripFileFollows real')
    scripts.files _ _ (same.trans same'.symm) (waits.trans waits'.symm)

theorem prunesAlike :
    (styles.files.foldl (Sweep.pruneFile host choice scripts.files) start).store =
      (styles.files.foldl (Sweep.pruneFile host other scripts.files) start').store ∧
    ∃ gain,
      (styles.files.foldl (Sweep.pruneFile host choice scripts.files) start).stats = start.stats.plus gain ∧
      (styles.files.foldl (Sweep.pruneFile host other scripts.files) start').stats =
        start'.stats.plus gain := by
  have one := stylesPassed found plain real same waits
  have two := stylesPassed found plain real' same' waits'
  refine ⟨?_, passGain (pruningAdds _ _) one two (same.trans same'.symm)⟩
  exact @followStores host (fun store pending => pruning (Usage.readKnown pending (host.read store))
      scripts.files) _ _ (fun sweep path => pruneFileFollows real sweep path scripts.files)
    (fun sweep path => pruneFileFollows real' sweep path scripts.files) styles.files _ _
    (same.trans same'.symm) (waits.trans waits'.symm)

end

section
variable {host : Host} {store : Store} {root : Datum} {place : Text} {scripts styles : Scan}
  (tree : store.Tree) (plain : host.PlainTags)
include tree plain

theorem halfwayStrewn {choice : Choice} (real : choice.dryRun = false)
    (ready : Ready host store root choice place scripts styles) :
    Host.Strewn store (halfway host choice scripts.files (begun store place scripts styles)).store := by
  obtain ⟨first, second, found⟩ := ready.found tree
  obtain ⟨same, _, _⟩ := begunKeeps store place scripts styles
  have strips := scriptsPassed found plain real same
  have strewn := sweptStrewn strips.swept (same.symm ▸ found.passing choice)
  rwa [same] at strewn

omit plain in
theorem scansAgain {later : Store} (strewn : Host.Strewn store later)
    (valid : validateRoot host store root = .ok place)
    (source : leadsToDirectory host store (join place "src".toList) = .ok true) :
    host.scan later scriptExtensions (join place "src".toList) =
        host.scan store scriptExtensions (join place "src".toList) ∧
      host.scan later styleExtensions (join place "src".toList) =
        host.scan store styleExtensions (join place "src".toList) := by
  obtain ⟨dir, folder⟩ := sourceFolder valid source
  exact ⟨strewn.scan tree (by decide +kernel) (by decide +kernel) folder,
    strewn.scan tree (by decide +kernel) (by decide +kernel) folder⟩

omit plain in
theorem Ready.again {choice : Choice} (ready : Ready host store root choice place scripts styles)
    {later : Store} (strewn : Host.Strewn store later) :
    Ready host later root choice place scripts styles := by
  obtain ⟨scripts', styles'⟩ := scansAgain tree strewn ready.valid ready.source
  refine ⟨validGrown strewn.grown ready.valid, sourceGrown strewn.grown ready.source,
    scripts'.trans ready.scripts, ?_⟩
  rw [styles']
  exact ready.styles

theorem readyComposes (ready : Ready host store root (Cli.Tool.cleanup.choice false) place scripts styles) :
    ∃ first second both, run host store root (Cli.Tool.strip.choice false) = .ok first ∧
      run host first.store root (Cli.Tool.prune.choice false) = .ok second ∧
      run host store root (Cli.Tool.cleanup.choice false) = .ok both ∧ Composed first second both := by
  have alone : Ready host store root (Cli.Tool.strip.choice false) place scripts Scan.none :=
    ⟨ready.valid, ready.source, ready.scripts, rfl⟩
  have others : Ready host store root (Cli.Tool.prune.choice false) place scripts styles :=
    ⟨ready.valid, ready.source, ready.scripts, ready.styles⟩
  have strewn := halfwayStrewn tree plain rfl alone
  refine ⟨_, _, _, readyPasses alone, readyPasses (others.again tree strewn), readyPasses ready, ?_⟩
  obtain ⟨first, second, found⟩ := ready.found tree
  obtain ⟨same, waits, _⟩ := begunKeeps store place scripts styles
  obtain ⟨same', waits', _⟩ := begunKeeps store place scripts Scan.none
  obtain ⟨stripped, gain, stats, stats'⟩ := @stripsAlike host store (Cli.Tool.strip.choice false)
    (Cli.Tool.cleanup.choice false) _ _ _ _ found plain rfl rfl _ _ same' same waits' waits rfl rfl
  -- The second run begins where the run with both passes goes on: with the scripts stripped, nothing waiting.
  have strips := @scriptsPassed host store (Cli.Tool.cleanup.choice false) _ _ _ _ found plain rfl _ same
  have waiting := strips.pending.trans waits
  rw [begunStats] at stats stats'
  generalize halfway host (Cli.Tool.strip.choice false) scripts.files
    (begun store place scripts Scan.none) = alone at *
  generalize halfway host (Cli.Tool.cleanup.choice false) scripts.files
    (begun store place scripts styles) = middle at *
  obtain ⟨same, waits, _⟩ := begunKeeps alone.store place scripts styles
  obtain ⟨pruned, gain', total, total'⟩ := @prunesAlike host alone.store (Cli.Tool.prune.choice false)
    (Cli.Tool.cleanup.choice false) _ _ _ _ (found.later strewn.grown) plain rfl rfl _ _ same stripped.symm
    waits waiting
  rw [begunStats] at total
  rw [stats'] at total'
  change Composed alone.finish (styles.files.foldl (Sweep.pruneFile host (Cli.Tool.prune.choice false)
    scripts.files) (begun alone.store place scripts styles)).finish _
  constructor <;> simp only [Sweep.finish, Sweep.note]
  · exact pruned
  all_goals
    rw [total, total', stats]
    simp [Stats.plus, Stats.start]

end

/-- Running both passes at once is to run one and then the other, whatever files cannot be edited: where the
scans end, the files are left alike and the reports add up. A scan that ends a run early ends all of them,
unless it is for the stylesheets: then the scripts are stripped by the run that does not ask for these. -/
theorem cleanupComposes {host : Host} {store : Store} {root : Datum} {place : Text} (tree : store.Tree)
    (plain : host.PlainTags) (valid : validateRoot host store root = .ok place)
    (source : leadsToDirectory host store (join place "src".toList) = .ok true) :
    match host.scan store scriptExtensions (join place "src".toList),
      host.scan store styleExtensions (join place "src".toList) with
    | .ok _, .ok _ => ∃ first second both, run host store root (Cli.Tool.strip.choice false) = .ok first ∧
        run host first.store root (Cli.Tool.prune.choice false) = .ok second ∧
        run host store root (Cli.Tool.cleanup.choice false) = .ok both ∧ Composed first second both
    | .ok _, .error escape => ∃ first, run host store root (Cli.Tool.strip.choice false) = .ok first ∧
        run host first.store root (Cli.Tool.prune.choice false) = .error escape ∧
        run host store root (Cli.Tool.cleanup.choice false) = .error escape
    | .error escape, _ => run host store root (Cli.Tool.strip.choice false) = .error escape ∧
        run host store root (Cli.Tool.prune.choice false) = .error escape ∧
        run host store root (Cli.Tool.cleanup.choice false) = .error escape := by
  cases scripts : host.scan store scriptExtensions (join place "src".toList) with
  | error escape =>
    exact ⟨scriptsEscape valid source scripts, scriptsEscape valid source scripts,
      scriptsEscape valid source scripts⟩
  | ok found =>
    cases styles : host.scan store styleExtensions (join place "src".toList) with
    | ok others => exact readyComposes tree plain ⟨valid, source, scripts, styles⟩
    | error escape =>
      have alone : Ready host store root (Cli.Tool.strip.choice false) place found Scan.none :=
        ⟨valid, source, scripts, rfl⟩
      have strewn := halfwayStrewn tree plain rfl alone
      obtain ⟨again, again'⟩ := scansAgain tree strewn valid source
      exact ⟨_, readyPasses alone, stylesEscape (validGrown strewn.grown valid)
        (sourceGrown strewn.grown source) rfl (again.trans scripts) (again'.trans styles),
        stylesEscape valid source rfl scripts styles⟩

def strandingHost : Host :=
  { faultlessHost with faults := [⟨.replace, "/p/src/a.js".toList, .errno Errno.readOnly⟩,
    ⟨.removeTemp, "/p/src/a.js".toList, .errno Errno.accessDenied⟩] }

theorem strandedScriptComposes : scriptAndStyle.Tree ∧ strandingHost.PlainTags ∧
    validateRoot strandingHost scriptAndStyle (.text "/p".toList) = .ok "/p".toList ∧
    leadsToDirectory strandingHost scriptAndStyle (join "/p".toList "src".toList) = .ok true ∧
    ∃ first second both,
      run strandingHost scriptAndStyle (.text "/p".toList) (Cli.Tool.strip.choice false) = .ok first ∧
      run strandingHost first.store (.text "/p".toList) (Cli.Tool.prune.choice false) = .ok second ∧
      run strandingHost scriptAndStyle (.text "/p".toList) (Cli.Tool.cleanup.choice false) = .ok both ∧
      Composed first second both := by
  have tree : scriptAndStyle.Tree := by decide +kernel
  have plain : strandingHost.PlainTags := by decide
  have valid : validateRoot strandingHost scriptAndStyle (.text "/p".toList) = .ok "/p".toList := rfl
  have source : leadsToDirectory strandingHost scriptAndStyle (join "/p".toList "src".toList) =
      .ok true := rfl
  have scripts : strandingHost.scan scriptAndStyle scriptExtensions (join "/p".toList "src".toList) =
      .ok ⟨["/p/src/a.js".toList], []⟩ := rfl
  have styles : strandingHost.scan scriptAndStyle styleExtensions (join "/p".toList "src".toList) =
      .ok ⟨["/p/src/b.css".toList], []⟩ := rfl
  have composed := @cleanupComposes strandingHost scriptAndStyle (.text "/p".toList) "/p".toList tree plain
    valid source
  rw [scripts, styles] at composed
  exact ⟨tree, plain, valid, source, composed⟩

/- A stylesheet whose path runs into too many links keeps the scripts from being stripped, but only in a run
that was to prune as well. -/
theorem loopKeepsScript : scriptAndStyle.Tree ∧ loopingHost.PlainTags ∧ loopingHost.OnlySystem ∧
    validateRoot loopingHost scriptAndStyle (.text "/p".toList) = .ok "/p".toList ∧
    leadsToDirectory loopingHost scriptAndStyle (join "/p".toList "src".toList) = .ok true ∧
    (∃ first, run loopingHost scriptAndStyle (.text "/p".toList) (Cli.Tool.strip.choice false) = .ok first ∧
      first.store.get? ["a.js".toList, "src".toList, "p".toList] ≠
        scriptAndStyle.get? ["a.js".toList, "src".toList, "p".toList]) ∧
    run loopingHost scriptAndStyle (.text "/p".toList) (Cli.Tool.cleanup.choice false) =
      .error (.linkCycle "/p/src/b.css".toList) := by
  have tree : scriptAndStyle.Tree := by decide +kernel
  have ready : Ready loopingHost scriptAndStyle (.text "/p".toList) (Cli.Tool.strip.choice false)
      "/p".toList ⟨["/p/src/a.js".toList], []⟩ Scan.none := by
    constructor <;> rfl
  refine ⟨tree, by decide, oneErrno _ _ _, ready.valid, ready.source, ⟨_, readyRun ready, ?_⟩, rfl⟩
  decide +kernel

end SourceSweep.Run
