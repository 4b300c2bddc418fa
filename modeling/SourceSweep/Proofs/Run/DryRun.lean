import SourceSweep.Proofs.Run.Foresight

/-! A dry run foretells a run that writes. Its verdicts rest on the texts that it did not write, those
of the run on the scripts that it reads again. -/
namespace SourceSweep.Run
open Text Files Store

theorem runUnready {host : Host} {store : Store} {root : Datum} {choice other : Choice}
    (unready : ∀ place scripts styles, ¬ Ready host store root choice place scripts styles)
    (same : other.pruneRules = choice.pruneRules) : run host store root other = run host store root choice ∧
      ∀ sweep, run host store root other = .ok sweep → sweep.store = store := by
  unfold run
  cases valid : validateRoot host store root with
  | error failure =>
    cases failure with
    | escape escape => exact ⟨rfl, fun sweep ran => by cases ran⟩
    | problem problem => exact ⟨rfl, fun sweep ran => by cases ran; rfl⟩
  | ok place =>
    cases source : leadsToDirectory host store (join place "src".toList) with
    | error escape =>
      simp only [source, bind, Except.bind]
      exact ⟨trivial, fun sweep ran => by cases ran⟩
    | ok leads =>
      simp only [source, bind, Except.bind]
      cases leads with
      | false => exact ⟨rfl, fun sweep ran => by cases ran; rfl⟩
      | true =>
        simp only [Sweep.ofSource, if_true, Sweep.start]
        cases scripts : host.scan store scriptExtensions (join place "src".toList) with
        | error escape => exact ⟨rfl, fun sweep ran => by cases ran⟩
        | ok found =>
          rw [same]
          cases styles : (if choice.pruneRules then host.scan store styleExtensions
            (join place "src".toList) else .ok Scan.none) with
          | ok others => exact absurd ⟨valid, source, scripts, styles⟩ (unready place found others)
          | error escape =>
            split at styles
            · rename_i prunes
              simp only [prunes, if_true, styles, bind, Except.bind]
              exact ⟨trivial, fun sweep ran => by cases ran⟩
            · cases styles

/-- The writes that a run attempts: where it has come to by then, the path, and the text. -/
inductive Attempted (host : Host) (store : Store) (root : Datum) (choice : Choice) :
    Store → Text → Text → Prop where
  | script {place scripts styles before path after now script}
      (ready : Ready host store root choice place scripts styles) (strips : choice.stripCalls = true)
      (split : scripts.files = before ++ path :: after)
      (moment : before.foldl (Sweep.stripFile host choice) (begun store place scripts styles) = now)
      (found : host.read now.store path = .ok script) (changed : Script.strip script ≠ script) :
      Attempted host store root choice now.store path (Script.strip script)
  | style {place scripts styles before path after now css pruned}
      (ready : Ready host store root choice place scripts styles)
      (split : styles.files = before ++ path :: after)
      (moment : before.foldl (Sweep.pruneFile host choice scripts.files)
        (halfway host choice scripts.files (begun store place scripts styles)) = now)
      (found : host.read now.store path = .ok css)
      (rules : ((Usage.Checker.ofFiles scripts.files now.pending).prune (host.read now.store) css).1 =
        .ok pruned) (changed : pruned ≠ css) :
      Attempted host store root choice now.store path pruned

section
variable {host : Host} {store : Store} {root : Datum} {choice : Choice} {place : Text}
  {scripts styles : Scan} {first second : List Site} (plain : host.PlainTags)
  (real : choice.dryRun = false) (ready : Ready host store root choice place scripts styles)
  (found : Found store scripts styles first second)
  (carried : ∀ now path content, Attempted host store root choice now path content →
    (host.write now path content).1 = .ok ())
include plain real ready found carried

theorem scriptsForeseen (strips : choice.stripCalls = true) : ∀ site ∈ first,
    (host.rewrite stripping.edit store site.path).1 = foresee host stripping.edit store site.path := by
  obtain ⟨same, _, _⟩ := begunKeeps store place scripts styles
  have seen : ∀ site ∈ first,
      (host.rewrite stripping.edit (begun store place scripts styles).store site.path).1 =
        foresee host stripping.edit (begun store place scripts styles).store site.path := by
    refine passForeseen plain (fun site mem => same.symm ▸ found.script mem) found.scriptsApart
      (fun _ _ sweep _ _ path => stripFileFollows real sweep path) ?_
    intro done site rest split now moment _ old new read edited changed
    cases edited
    have paths : scripts.files = done.map Site.path ++ site.path :: rest.map Site.path := by
      rw [found.scripts, split, List.map_append, List.map_cons]
    exact carried now.store site.path _ (.script ready strips paths moment read changed)
  rwa [same] at seen

theorem stylesForeseen {middle : Sweep}
    (between : halfway host choice scripts.files (begun store place scripts styles) = middle) :
    ∀ site ∈ second,
      (host.rewrite (Usage.pruneBy (host.read middle.store) scripts.files) middle.store site.path).1 =
        foresee host (Usage.pruneBy (host.read middle.store) scripts.files) middle.store site.path := by
  obtain ⟨same, waits, _⟩ := begunKeeps store place scripts styles
  have strips := scriptsPassed found plain real same
  rw [between] at strips
  have later := found.later (same ▸ strips.swept.grown)
  have waiting := strips.pending.trans waits
  refine passForeseen plain (fun site mem => later.style mem) later.stylesApart
    (fun done among sweep swept pending path =>
      later.rulesStay among swept (pending.trans waiting) ▸
        pruneFileFollows real sweep path scripts.files) ?_
  intro done site rest split now moment passed old new read edited changed
  have among : ∀ other ∈ done, other ∈ second := fun other mem =>
    split ▸ List.mem_append_left (site :: rest) mem
  have paths : styles.files = done.map Site.path ++ site.path :: rest.map Site.path := by
    rw [found.styles, split, List.map_append, List.map_cons]
  have asked : ((Usage.Checker.ofFiles scripts.files now.pending).prune (host.read now.store) old).1 =
      .ok new := by
    rw [← later.rulesStay among passed.swept (passed.pending.trans waiting)] at edited
    exact (Usage.checkerPrunes _ _ _ _).trans edited
  subst between
  exact carried now.store site.path new (.style ready paths moment read asked changed)

/- The verdicts of a dry run are those of the run: a script reads in one as it is looked up in the
other. -/
theorem dryRules {start middle waiting : Sweep} (begins : begun store place scripts styles = start)
    (between : halfway host choice scripts.files start = middle)
    (betweenDry : halfway host { choice with dryRun := true } scripts.files start = waiting) :
    pruning (Usage.readKnown waiting.pending (host.read waiting.store)) scripts.files =
      pruning (host.read middle.store) scripts.files := by
  obtain ⟨same, waits, _⟩ := begunKeeps store place scripts styles
  rw [begins] at same waits
  have strips := scriptsPassed found plain real same
  rw [between] at strips
  obtain ⟨kept, _, given⟩ := @dryHalfway host { choice with dryRun := true } rfl scripts.files start waits
  rw [betweenDry, same] at kept
  rw [betweenDry, same] at given
  subst same
  refine pruningCongr fun path listed => ?_
  have later := found.later strips.swept.grown
  rw [Usage.readKnown, given, kept, lookupGiven]
  rw [found.scripts] at listed
  obtain ⟨site, mem, rfl⟩ := List.mem_map.mp listed
  by_cases strip : choice.stripCalls = true
  · have held := strips.swept.held site (by rwa [if_pos strip])
    have read := readSettled (found.script mem) (later.script mem) held
    rw [scriptsForeseen plain real ready found carried strip site mem] at read
    rw [if_pos strip, found.scripts, if_pos listed]
    exact read.symm
  · have untouched := strips.swept.untouched (found.script mem).present (by simp [strip])
    rw [if_neg strip]
    exact (Host.readStanding (found.script mem) (later.script mem) untouched).symm

theorem dryPasses {start : Sweep} (begins : begun store place scripts styles = start) :
    (styles.files.foldl (Sweep.pruneFile host { choice with dryRun := true } scripts.files)
      (halfway host { choice with dryRun := true } scripts.files start)).store = store ∧
    (styles.files.foldl (Sweep.pruneFile host { choice with dryRun := true } scripts.files)
      (halfway host { choice with dryRun := true } scripts.files start)).stats =
    (styles.files.foldl (Sweep.pruneFile host choice scripts.files)
      (halfway host choice scripts.files start)).stats := by
  generalize between : halfway host choice scripts.files start = middle
  generalize betweenDry : halfway host { choice with dryRun := true } scripts.files start = waiting
  have rules := dryRules plain real ready found carried begins between betweenDry
  obtain ⟨same, waits, _⟩ := begunKeeps store place scripts styles
  rw [begins] at same waits
  have strips := scriptsPassed found plain real same
  have later := found.later (same ▸ strips.swept.grown)
  have prunes := stylesPassed later plain real rfl (strips.pending.trans waits)
  have seen := stylesForeseen plain real ready found carried (begins.symm ▸ between)
  obtain ⟨kept, stats, _⟩ := @dryHalfway host { choice with dryRun := true } rfl scripts.files start waits
  obtain ⟨keeps, tallied⟩ :=
    @dryPrune host { choice with dryRun := true } rfl scripts.files styles.files waiting
  rw [between] at strips prunes later
  rw [betweenDry, same] at kept stats
  have stripped : waiting.stats = middle.stats := by
    rw [stats, strips.stats, same]
    by_cases strip : choice.stripCalls = true
    · rw [if_pos strip, if_pos strip, found.scripts]
      exact tallySame (fun path => (host.rewrite stripping.edit store path).1)
        (foresee host stripping.edit store)
        (scriptsForeseen plain real ready found carried strip) start.stats
    · rw [if_neg strip, if_neg strip]
      rfl
  refine ⟨keeps.trans kept, tallied.trans ?_⟩
  rw [rules, kept, prunes.stats, stripped, found.styles]
  refine tallySame (fun path => (host.rewrite (Usage.pruneBy (host.read middle.store) scripts.files)
      middle.store path).1) (foresee host (Usage.pruneBy (host.read middle.store) scripts.files) store)
    (fun site mem => (seen site mem).trans ?_) middle.stats
  rw [foresee, foresee,
    strips.swept.read (same.symm ▸ found.style mem) (found.differPassed choice mem), same]

end

theorem dryRunForetells {host : Host} {store : Store} {root : Datum} {choice : Choice}
    (tree : store.Tree) (plain : host.PlainTags) (real : choice.dryRun = false)
    (carried : ∀ now path content, Attempted host store root choice now path content →
      (host.write now path content).1 = .ok ()) :
    (run host store root { choice with dryRun := true }).map Sweep.stats =
        (run host store root choice).map Sweep.stats ∧
      ∀ sweep, run host store root { choice with dryRun := true } = .ok sweep →
        sweep.store = store := by
  by_cases comes : ∃ place scripts styles, Ready host store root choice place scripts styles
  · obtain ⟨place, scripts, styles, ready⟩ := comes
    obtain ⟨first, second, found⟩ := ready.found tree
    have readyDry : Ready host store root { choice with dryRun := true } place scripts styles :=
      ⟨ready.valid, ready.source, ready.scripts, ready.styles⟩
    obtain ⟨kept, stats⟩ := dryPasses plain real ready found carried rfl
    rw [readyPasses ready, readyPasses readyDry]
    refine ⟨congrArg Except.ok stats, fun sweep ran => ?_⟩
    cases ran
    exact kept
  · have unready : ∀ place scripts styles, ¬ Ready host store root choice place scripts styles :=
      fun place scripts styles ready => comes ⟨place, scripts, styles, ready⟩
    obtain ⟨same, keeps⟩ := @runUnready host store root choice { choice with dryRun := true } unready rfl
    exact ⟨congrArg _ same, keeps⟩

/- The only mention of a class is logged, so that its rule goes once the call has gone. -/
def loggedClass : Store :=
  scriptAndStyle.put ["a.js".toList, "src".toList, "p".toList]
    (.file fileMode (Utf8.encode "console.log(\"b\");\n\"c\"".toList))

def clearedClass : Store :=
  loggedClass.put ["a.js".toList, "src".toList, "p".toList] (.file fileMode (Utf8.encode "\"c\"".toList))

theorem loggedClassForetold :
    loggedClass.Tree ∧ faultlessHost.PlainTags ∧
      (∀ now path content, Attempted faultlessHost loggedClass (.text "/p".toList) ⟨false, true, true⟩
        now path content → (faultlessHost.write now path content).1 = .ok ()) ∧
      ∃ sweep, run faultlessHost loggedClass (.text "/p".toList) ⟨true, true, true⟩ = .ok sweep ∧
        sweep.stats.callsRemoved = 1 ∧ sweep.stats.classesRemoved = 1 ∧ sweep.store = loggedClass ∧
        (run faultlessHost loggedClass (.text "/p".toList) ⟨false, true, true⟩).map Sweep.stats =
          .ok sweep.stats := by
  have tree : loggedClass.Tree := by decide +kernel
  have plain : faultlessHost.PlainTags := by decide
  have comes : Ready faultlessHost loggedClass (.text "/p".toList) ⟨false, true, true⟩ "/p".toList
      ⟨["/p/src/a.js".toList], []⟩ ⟨["/p/src/b.css".toList], []⟩ := by
    constructor <;> rfl
  have writes : ∀ content, (faultlessHost.write loggedClass "/p/src/a.js".toList content).1 = .ok () := by
    intro content
    rfl
  have restyles : ∀ content, (faultlessHost.write clearedClass "/p/src/b.css".toList content).1 = .ok () := by
    intro content
    rfl
  have cleared : (halfway faultlessHost ⟨false, true, true⟩ ["/p/src/a.js".toList]
      (begun loggedClass "/p".toList ⟨["/p/src/a.js".toList], []⟩ ⟨["/p/src/b.css".toList], []⟩)).store =
        clearedClass := Store.ext (by decide +kernel)
  have carried : ∀ now path content, Attempted faultlessHost loggedClass (.text "/p".toList)
      ⟨false, true, true⟩ now path content → (faultlessHost.write now path content).1 = .ok () := by
    intro now path content attempted
    cases attempted with
    | @script place scripts styles before path after now script ready strips split moment found changed =>
      cases comes.valid.symm.trans ready.valid
      cases comes.scripts.symm.trans ready.scripts
      obtain ⟨rfl, one⟩ | ⟨_, none⟩ := List.singleton_eq_append_iff.mp split
      · cases one
        rw [← moment, List.foldl_nil, (begunKeeps _ _ _ _).1]
        exact writes _
      · cases none
    | @style place scripts styles before path after now css pruned ready split moment found rules changed =>
      cases comes.valid.symm.trans ready.valid
      cases comes.scripts.symm.trans ready.scripts
      cases comes.styles.symm.trans ready.styles
      obtain ⟨rfl, one⟩ | ⟨_, none⟩ := List.singleton_eq_append_iff.mp split
      · cases one
        rw [← moment, List.foldl_nil, cleared]
        exact restyles _
      · cases none
  have foretold := dryRunForetells tree plain rfl carried
  have comesDry : Ready faultlessHost loggedClass (.text "/p".toList) ⟨true, true, true⟩ "/p".toList
      ⟨["/p/src/a.js".toList], []⟩ ⟨["/p/src/b.css".toList], []⟩ :=
    ⟨comes.valid, comes.source, comes.scripts, comes.styles⟩
  have ran := readyRun comesDry
  generalize ended : (Sweep.passes faultlessHost ⟨true, true, true⟩ _ _ _).finish = sweep at ran
  have counts : sweep.stats.callsRemoved = 1 ∧ sweep.stats.classesRemoved = 1 := by
    rw [← ended]
    decide +kernel
  rw [ran] at foretold
  exact ⟨tree, plain, carried, sweep, ran, counts.1, counts.2, foretold.2 sweep rfl, foretold.1.symm⟩

end SourceSweep.Run
