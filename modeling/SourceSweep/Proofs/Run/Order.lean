import Mathlib.Data.List.Perm.Basic
import SourceSweep.Proofs.Files.Traces
import SourceSweep.Proofs.Run.Totals

/-! The order in which files are listed. Whatever order the scans find them in, a run leaves the same store
and reports the same counts, and the same errors in another order. -/
namespace SourceSweep.Run
open Text Files Store

theorem tracedAll {host : Host} (plain : host.PlainTags) {pass : Pass} {sites : List Site}
    {before : Sweep} (standing : ∀ site ∈ sites, Standing before.store site)
    (apart : (sites.map Site.place).Nodup) {next : Sweep → Text → Sweep}
    (follows : ∀ done, (∀ site ∈ done, site ∈ sites) → ∀ sweep : Sweep,
      Host.Swept host pass.edit before.store done sweep.store → sweep.pending = before.pending →
      ∀ path, Follows host pass path sweep (next sweep path)) :
    Host.Traced host pass.edit before.store sites ((sites.map Site.path).foldl next before).store := by
  induction sites using List.reverseRecOn with
  | nil => exact Host.tracedNone host pass.edit before.store
  | append_singleton done site ih =>
    obtain ⟨once, away⟩ := apartSplit apart
    have inside : ∀ other ∈ done, other ∈ done ++ [site] := fun other mem =>
      List.mem_append_left [site] mem
    have earlier := fun other mem => standing other (inside other mem)
    have here := standing site (List.mem_append_right done List.mem_cons_self)
    have passed : Passed host pass done before ((done.map Site.path).foldl next before) :=
      passedAll plain earlier once fun before among =>
        follows before fun other mem => inside other (among other mem)
    have traced := ih earlier once fun before among =>
      follows before fun other mem => inside other (among other mem)
    have step := follows done inside _ passed.swept passed.pending site.path
    have onward := traced.step passed.swept earlier here away plain
    rw [← step.store] at onward
    rwa [List.map_append, List.foldl_append]

structure SameReport (one two : Stats) : Prop where
  calls : one.callsRemoved = two.callsRemoved
  classes : one.classesRemoved = two.classesRemoved
  files : one.filesProcessed = two.filesProcessed
  errors : one.errors.Perm two.errors

theorem sameReportSelf (stats : Stats) : SameReport stats stats := ⟨rfl, rfl, rfl, .refl _⟩

section
variable {pass : Pass} (adds : pass.Adds) {outcome : Text → Except Failure (Text × Text)}
  {sites sites' : List Site} (perm : sites'.Perm sites) {stats stats' : Stats}
include adds perm

theorem counterPerm {Amount : Type} [AddCommMonoid Amount] {counter : Stats → Amount}
    (additive : ∀ stats more, counter (stats.plus more) = counter stats + counter more)
    (same : counter stats' = counter stats) :
    counter (sites'.foldl (fun stats site => pass.tally stats site.path (outcome site.path)) stats') =
      counter (sites.foldl (fun stats site => pass.tally stats site.path (outcome site.path)) stats) := by
  rw [talliesSum additive adds fun site => outcome site.path,
    talliesSum additive adds fun site => outcome site.path, same, (perm.map _).sum_eq]

theorem talliesPerm (kept : ∀ old new stats, (pass.count old new stats).errors = stats.errors)
    (same : SameReport stats' stats) :
    SameReport (sites'.foldl (fun stats site => pass.tally stats site.path (outcome site.path)) stats')
      (sites.foldl (fun stats site => pass.tally stats site.path (outcome site.path)) stats) where
  calls := counterPerm adds perm (fun _ _ => rfl) same.calls
  classes := counterPerm adds perm (fun _ _ => rfl) same.classes
  files := counterPerm adds perm (fun _ _ => rfl) same.files
  errors := by
    rw [tallyErrors pass kept, tallyErrors pass kept]
    exact same.errors.append ((perm.map Site.path).filterMap _)

end

theorem sitesPerm {paths : List Text} {sites : List Site} (perm : paths.Perm (sites.map Site.path)) :
    ∃ sites' : List Site, paths = sites'.map Site.path ∧ sites'.Perm sites :=
  (congrFun₂ (List.eq_map_comp_perm Site.path) paths sites).mpr perm

theorem Found.permuted {store : Store} {scripts styles scripts' styles' : Scan} {first second : List Site}
    (found : Found store scripts styles first second) (perm : scripts'.files.Perm scripts.files)
    (perm' : styles'.files.Perm styles.files) : ∃ first' second',
      Found store scripts' styles' first' second' ∧ first'.Perm first ∧ second'.Perm second := by
  obtain ⟨first', files, sites⟩ := sitesPerm (found.scripts ▸ perm)
  obtain ⟨second', files', sites'⟩ := sitesPerm (found.styles ▸ perm')
  have both := sites.append sites'
  refine ⟨first', second', ⟨files, files', fun site mem => ?_, ?_⟩, sites, sites'⟩
  · exact found.standing site (both.mem_iff.mp mem)
  · exact ((both.map Site.place).nodup_iff).mpr found.apart

/-- Opening the file fails only by an error of the system. -/
def Tells (host : Host) (store : Store) (path : Text) : Prop :=
  ∀ escape, host.open? store path = .error escape → ∃ error, escape = .system error

theorem tellsOpened {host : Host} {store : Store} {path : Text} {bytes : Utf8.Bytes}
    (opened : host.open? store path = .ok bytes) : Tells host store path := fun escape refused => by
  cases opened.symm.trans refused

theorem Tells.read {host : Host} {store : Store} {path : Text} (tells : Tells host store path)
    (cause : Escape) : host.read store path ≠ .error (.escape cause) := by
  intro escapes
  unfold Host.read at escapes
  split at escapes
  · rename_i escape refused
    obtain ⟨error, rfl⟩ := tells escape refused
    cases escapes
  · split at escapes <;> cases escapes

theorem Tells.later {host : Host} {store later : Store} {site : Site} (tells : Tells host store site.path)
    (standing : Standing store site) (grown : store.Grown later) : Tells host later site.path := by
  intro escape refused
  refine tells escape ?_
  unfold Host.open? at refused ⊢
  rw [Host.seekStanding (standing.grown grown)] at refused
  rw [Host.seekStanding standing]
  split at refused
  · exact refused
  · cases taken : accept site.path with
    | error number => simpa [taken, bind, Except.bind] using refused
    | ok =>
      obtain ⟨mode, bytes, held⟩ := (standing.grown grown).file taken
      simp [taken, held, bind, Except.bind] at refused

/-- Sweeps that have come to the same, whatever order their errors were reported in. -/
structure Reordered (one two : Sweep) : Prop where
  store : Alike one.store two.store
  report : SameReport two.stats one.stats

theorem Reordered.finish {one two : Sweep} (same : Reordered one two) : Reordered one.finish two.finish :=
  ⟨same.store, same.report⟩

theorem passReordered {host : Host} (plain : host.PlainTags) {pass : Pass} (adds : pass.Adds)
    (kept : ∀ old new stats, (pass.count old new stats).errors = stats.errors) {sites sites' : List Site}
    (perm : sites'.Perm sites) {before before' after after' : Sweep}
    (standing : ∀ site ∈ sites, Standing before.store site) (same : Reordered before before')
    (passed : Passed host pass sites before after) (passed' : Passed host pass sites' before' after')
    (traced : Host.Traced host pass.edit before.store sites after.store)
    (traced' : Host.Traced host pass.edit before'.store sites' after'.store) : Reordered after after' := by
  have alike := same.store
  have swept : Host.Swept host pass.edit before.store [] before'.store := Host.sweptAlike alike
  have outcomes : ∀ site ∈ sites', (host.rewrite pass.edit before'.store site.path).1 =
      (host.rewrite pass.edit before.store site.path).1 := fun site mem =>
    swept.rewrite (by simp) (standing site (perm.mem_iff.mp mem)) (by simp) plain pass.edit
  constructor
  · refine traced.alike perm traced' alike fun site mem location => ?_
    have made := swept.makeTemp (by simp) (standing site mem) (by simp) plain
    exact Host.rewriteAlike (standing site mem) alike.grown (alike site.place) made (alike location) pass.edit
  · have told := passed'.stats.trans (List.foldl_ext _ (fun stats site =>
      pass.tally stats site.path (host.rewrite pass.edit before.store site.path).1) _
        fun stats site mem => by rw [outcomes site mem])
    rw [told, passed.stats]
    exact @talliesPerm pass adds (fun path => (host.rewrite pass.edit before.store path).1) _ _ perm _ _ kept
      same.report

section
variable {host : Host} {store : Store} {choice : Choice} {scripts styles : Scan}
  {first second : List Site} (found : Found store scripts styles first second) (plain : host.PlainTags)
  (real : choice.dryRun = false) {sweep : Sweep} (here : sweep.store = store)
include found plain real here

theorem scriptsTraced : Host.Traced host stripping.edit sweep.store
    (if choice.stripCalls then first else []) (halfway host choice scripts.files sweep).store := by
  subst here
  unfold halfway
  split
  · rw [found.scripts]
    exact tracedAll plain (fun site mem => found.script mem) found.scriptsApart
      fun _ _ sweep _ _ path => stripFileFollows real sweep path
  · exact Host.tracedNone host stripping.edit sweep.store

theorem stylesTraced (waits : sweep.pending = []) :
    Host.Traced host (pruning (host.read store) scripts.files).edit sweep.store second
      (styles.files.foldl (Sweep.pruneFile host choice scripts.files) sweep).store := by
  subst here
  rw [found.styles]
  refine tracedAll plain (fun site mem => found.style mem) found.stylesApart
    fun done among later swept pending path => ?_
  exact found.rulesStay among swept (pending.trans waits) ▸
    pruneFileFollows real later path scripts.files

end

theorem rulesPerm {read other : Usage.Reader} {scripts scripts' : List Text} (perm : scripts'.Perm scripts)
    (same : ∀ path ∈ scripts, other path = read path)
    (told : ∀ path ∈ scripts, ∀ cause, read path ≠ .error (.escape cause)) :
    pruning other scripts' = pruning read scripts := by
  have rules : Usage.pruneBy other scripts' = Usage.pruneBy read scripts :=
    calc Usage.pruneBy other scripts'
      _ = Usage.pruneBy read scripts' :=
        funext (Usage.pruneByCongr fun path mem => same path (perm.mem_iff.mp mem))
      _ = Usage.pruneBy read scripts := Usage.pruneByPerm perm told
  rw [pruning, pruning, rules]

theorem passingPerm {sites sites' : List Site} (perm : sites'.Perm sites) (choice : Choice) :
    (if choice.stripCalls then sites' else []).Perm (if choice.stripCalls then sites else []) := by
  split
  · exact perm
  · exact .refl _

theorem Found.files {store : Store} {scripts styles scripts' styles' : Scan}
    {first second first' second' : List Site} (found : Found store scripts styles first second)
    (found' : Found store scripts' styles' first' second') (perm : first'.Perm first) :
    scripts'.files.Perm scripts.files := by
  rw [found.scripts, found'.scripts]
  exact perm.map Site.path

section
variable {host : Host} {store later : Store} {scripts styles scripts' : Scan} {first second : List Site}
  (found : Found store scripts styles first second) (tells : ∀ path ∈ scripts.files, Tells host store path)
include found tells

theorem Found.tellsLater (grown : store.Grown later) : ∀ path ∈ scripts.files, Tells host later path := by
  rw [found.scripts, List.forall_mem_map] at tells ⊢
  exact fun site mem => (tells site mem).later (found.script mem) grown

theorem Found.rules (alike : Alike store later) (files : scripts'.files.Perm scripts.files) :
    pruning (host.read later) scripts'.files = pruning (host.read store) scripts.files := by
  have same : ∀ path ∈ scripts.files, host.read later path = host.read store path := by
    rw [found.scripts]
    exact Host.readsSame (fun _ mem => found.script mem) alike.grown fun site _ => alike site.place
  exact rulesPerm files same fun path listed => (tells path listed).read

end

theorem dryKnown {host : Host} {choice : Choice} (dry : choice.dryRun = true) {paths paths' : List Text}
    (perm : paths'.Perm paths) {start : Sweep} (waits : start.pending = []) :
    Usage.readKnown (halfway host choice paths' start).pending
        (host.read (halfway host choice paths' start).store) =
      Usage.readKnown (halfway host choice paths start).pending
        (host.read (halfway host choice paths start).store) := by
  obtain ⟨same, _, given⟩ := @dryHalfway host choice dry paths start waits
  obtain ⟨same', _, given'⟩ := @dryHalfway host choice dry paths' start waits
  have asked : ∀ path, path ∈ (if choice.stripCalls then paths' else []) ↔
      path ∈ (if choice.stripCalls then paths else []) := fun path => by
    split
    · exact perm.mem_iff
    · exact Iff.rfl
  funext path
  unfold Usage.readKnown
  rw [given, given', lookupGiven, lookupGiven, same, same']
  simp only [asked path]

theorem dryStripped {host : Host} {choice : Choice} (dry : choice.dryRun = true) {sites sites' : List Site}
    (perm : sites'.Perm sites) {start : Sweep} (waits : start.pending = []) :
    SameReport (halfway host choice (sites'.map Site.path) start).stats
      (halfway host choice (sites.map Site.path) start).stats := by
  obtain ⟨_, stats, _⟩ := @dryHalfway host choice dry (sites.map Site.path) start waits
  obtain ⟨_, stats', _⟩ := @dryHalfway host choice dry (sites'.map Site.path) start waits
  rw [stats, stats']
  split_ifs
  · rw [List.foldl_map, List.foldl_map]
    exact @talliesPerm _ strippingAdds (foresee host stripping.edit start.store) _ _ perm _ _
      (fun _ _ _ => rfl) (sameReportSelf _)
  · exact sameReportSelf _

section
variable {host : Host} {store : Store} {choice : Choice} {scripts styles scripts' styles' : Scan}
  {first second first' second' : List Site} (found : Found store scripts styles first second)
  (found' : Found store scripts' styles' first' second') (perm : first'.Perm first)
  (perm' : second'.Perm second)
  (tells : ∀ path ∈ scripts.files, Tells host store path)
  {start : Sweep} (here : start.store = store) (waits : start.pending = [])
include found found' perm perm' tells here waits

theorem realReordered (plain : host.PlainTags) (real : choice.dryRun = false) :
    Reordered (styles.files.foldl (Sweep.pruneFile host choice scripts.files)
        (halfway host choice scripts.files start))
      (styles'.files.foldl (Sweep.pruneFile host choice scripts'.files)
        (halfway host choice scripts'.files start)) := by
  have strips := scriptsPassed found plain real here
  have strips' := scriptsPassed found' plain real here
  have traced := scriptsTraced found plain real here
  have traced' := scriptsTraced found' plain real here
  subst here
  have middle := passReordered plain strippingAdds (fun _ _ _ => rfl) (passingPerm perm choice)
    (found.passing choice) ⟨fun _ => rfl, sameReportSelf _⟩ strips strips' traced traced'
  generalize halfway host choice scripts.files start = one at strips middle ⊢
  generalize halfway host choice scripts'.files start = two at strips' middle ⊢
  have later := found.later strips.swept.grown
  have later' := found'.later strips'.swept.grown
  have told := found.tellsLater tells strips.swept.grown
  have rules := later.rules told middle.store (found.files found' perm)
  have prunes := stylesPassed later plain real rfl (strips.pending.trans waits)
  have prunes' := stylesPassed later' plain real rfl (strips'.pending.trans waits)
  have marks := stylesTraced later plain real rfl (strips.pending.trans waits)
  have marks' := stylesTraced later' plain real rfl (strips'.pending.trans waits)
  rw [rules] at prunes' marks'
  exact passReordered plain (pruningAdds _ _) (fun _ _ _ => rfl) perm' (fun site mem => later.style mem) middle
    prunes prunes' marks marks'

theorem dryReordered (dry : choice.dryRun = true) :
    Reordered (styles.files.foldl (Sweep.pruneFile host choice scripts.files)
        (halfway host choice scripts.files start))
      (styles'.files.foldl (Sweep.pruneFile host choice scripts'.files)
        (halfway host choice scripts'.files start)) := by
  have files := found.files found' perm
  have known := @dryKnown host choice dry _ _ files start waits
  have stripped := @dryStripped host choice dry _ _ perm start waits
  rw [← found.scripts, ← found'.scripts] at stripped
  obtain ⟨same, _⟩ := @dryHalfway host choice dry scripts.files start waits
  obtain ⟨same', _⟩ := @dryHalfway host choice dry scripts'.files start waits
  generalize halfway host choice scripts.files start = one at known stripped same ⊢
  generalize halfway host choice scripts'.files start = two at known stripped same' ⊢
  obtain ⟨kept, told⟩ := dryPrune dry scripts.files styles.files one
  obtain ⟨kept', told'⟩ := dryPrune dry scripts'.files styles'.files two
  have rules : pruning (Usage.readKnown two.pending (host.read two.store)) scripts'.files =
      pruning (Usage.readKnown one.pending (host.read one.store)) scripts.files := by
    refine rulesPerm files (fun path _ => by rw [known]) fun path listed => ?_
    unfold Usage.readKnown
    split
    · exact fun cause escapes => by cases escapes
    · rw [same, here]
      exact (tells path listed).read
  constructor
  · rw [kept, kept', same, same']
    exact fun _ => rfl
  · rw [told, told', rules, same, same', found.styles, found'.styles, List.foldl_map, List.foldl_map]
    exact @talliesPerm _ (pruningAdds _ _) (foresee host _ start.store) _ _ perm' _ _ (fun _ _ _ => rfl) stripped

end

theorem passesEq {host : Host} {choice : Choice} {scripts styles : List Text} (sweep : Sweep)
    (none : choice.pruneRules = false → styles = []) : sweep.passes host choice scripts styles =
      styles.foldl (Sweep.pruneFile host choice scripts) (halfway host choice scripts sweep) := by
  unfold Sweep.passes halfway
  cases prunes : choice.pruneRules with
  | true => rfl
  | false =>
    rw [none prunes]
    rfl

/-- The files that the scans found may come in any order. As long as opening a script fails only by errors of
the system, scripts and stylesheets taken in another order leave every entry of the store the same, and the
report differs at most in the order of its errors. -/
theorem orderIndependent {host : Host} {store : Store} {root : Datum} {choice : Choice} {place : Text}
    {scripts styles : Scan} (tree : store.Tree) (plain : host.PlainTags)
    (ready : Ready host store root choice place scripts styles)
    (tells : ∀ path ∈ scripts.files, Tells host store path) {scripts' styles' : List Text}
    (perm : scripts'.Perm scripts.files) (perm' : styles'.Perm styles.files) :
    ∃ sweep, run host store root choice = .ok sweep ∧
      Reordered sweep ((begun store place scripts styles).passes host choice scripts' styles').finish := by
  obtain ⟨first, second, found⟩ := ready.found tree
  obtain ⟨first', second', found', sites, sites'⟩ :=
    @Found.permuted store scripts styles ⟨scripts', []⟩ ⟨styles', []⟩ first second found perm perm'
  obtain ⟨here, waits, _⟩ := begunKeeps store place scripts styles
  have none : choice.pruneRules = false → styles' = [] := fun keeps => by
    have others := ready.styles
    rw [keeps] at others
    cases others
    exact perm'.eq_nil
  refine ⟨_, readyPasses ready, ?_⟩
  rw [passesEq _ none]
  refine Reordered.finish ?_
  cases dry : choice.dryRun with
  | false => exact realReordered found found' sites sites' tells here waits plain dry
  | true => exact dryReordered found found' sites sites' tells here waits dry

def scriptsAndStyle : Store :=
  scriptAndStyle.put ["d.js".toList, "src".toList, "p".toList]
    (.file fileMode (Utf8.encode "console.log(2);\n".toList))

theorem lastScriptFirst : scriptsAndStyle.Tree ∧ refusingHost.PlainTags ∧
    (∀ path ∈ ["/p/src/a.js".toList, "/p/src/d.js".toList], Tells refusingHost scriptsAndStyle path) ∧
    ∃ sweep, run refusingHost scriptsAndStyle (.text "/p".toList) ⟨false, true, true⟩ = .ok sweep ∧
      sweep.stats.callsRemoved = 1 ∧
      Reordered sweep ((begun scriptsAndStyle "/p".toList ⟨["/p/src/a.js".toList, "/p/src/d.js".toList], []⟩
        ⟨["/p/src/b.css".toList], []⟩).passes refusingHost ⟨false, true, true⟩
          ["/p/src/d.js".toList, "/p/src/a.js".toList] ["/p/src/b.css".toList]).finish := by
  have tree : scriptsAndStyle.Tree := by decide +kernel
  have plain : refusingHost.PlainTags := by decide
  have ready : Ready refusingHost scriptsAndStyle (.text "/p".toList) ⟨false, true, true⟩ "/p".toList
      ⟨["/p/src/a.js".toList, "/p/src/d.js".toList], []⟩ ⟨["/p/src/b.css".toList], []⟩ := by
    constructor <;> rfl
  have tells : ∀ path ∈ ["/p/src/a.js".toList, "/p/src/d.js".toList], Tells refusingHost scriptsAndStyle path := by
    have first : refusingHost.open? scriptsAndStyle "/p/src/a.js".toList =
        .ok (Utf8.encode "console.log(1);\n\"b\"".toList) := rfl
    have last : refusingHost.open? scriptsAndStyle "/p/src/d.js".toList =
        .ok (Utf8.encode "console.log(2);\n".toList) := rfl
    exact List.forall_mem_cons.mpr ⟨tellsOpened first, List.forall_mem_singleton.mpr (tellsOpened last)⟩
  have ran := readyRun ready
  generalize ended : (Sweep.passes refusingHost ⟨false, true, true⟩ _ _ _).finish = sweep at ran
  have removed : sweep.stats.callsRemoved = 1 := by
    rw [← ended]
    decide +kernel
  obtain ⟨_, ran', same⟩ := orderIndependent tree plain ready tells (List.Perm.swap _ _ []) (.refl _)
  cases ran.symm.trans ran'
  exact ⟨tree, plain, tells, sweep, ran, removed, same⟩

end SourceSweep.Run
