import SourceSweep.Proofs.Run.Pointwise

/-! What the passes of a dry run come to: each file is seen as it is before the run, and a stripped
script is kept as a text to be looked up later. Where every write is carried out, a pass that writes
comes to the same. -/
namespace SourceSweep.Run
open Text Files Store

def foresee (host : Host) (edit : Edit) (store : Store) (path : Text) : Except Failure (Text × Text) :=
  match host.read store path with
  | .error failure => .error failure
  | .ok old =>
    match edit old with
    | .error escape => .error (.escape escape)
    | .ok new => .ok (old, new)

theorem rewriteForeseen {host : Host} {edit : Edit} {store : Store} {path : Text}
    (carried : ∀ old new, host.read store path = .ok old → edit old = .ok new → new ≠ old →
      (host.write store path new).1 = .ok ()) :
    (host.rewrite edit store path).1 = foresee host edit store path := by
  unfold Host.rewrite foresee
  cases found : host.read store path with
  | error failure => rfl
  | ok old =>
    dsimp only
    cases edited : edit old with
    | error escape => rfl
    | ok new =>
      dsimp only
      split
      · rfl
      · rename_i changed
        have written := carried old new found edited changed
        generalize host.write store path new = step at written ⊢
        obtain ⟨result, after⟩ := step
        cases written
        rfl

def changeOf : Except Failure (Text × Text) → Option Text
  | .ok (old, new) => if new = old then none else some new
  | .error _ => none

theorem lookupGiven (given : Text → Option Text) (paths : List Text) (path : Text) :
    (paths.filterMap fun path => (given path).map fun text => (path, text)).lookup path =
      if path ∈ paths then given path else none := by
  induction paths with
  | nil => rfl
  | cons first rest ih =>
    rw [List.filterMap_cons]
    by_cases same : path = first
    · subst same
      cases known : given path with
      | none => simp [ih, known]
      | some text => simp
    · have missed : (path == first) = false := by simpa using same
      cases given first with
      | none => simp [ih, same]
      | some text => simp [List.lookup_cons, missed, ih, same]

section
variable {host : Host} {choice : Choice} (dry : choice.dryRun = true)
include dry

theorem dryStripStep (sweep : Sweep) (path : Text) :
    (sweep.stripFile host choice path).store = sweep.store ∧
    (sweep.stripFile host choice path).stats =
      stripping.tally sweep.stats path (foresee host stripping.edit sweep.store path) ∧
    (sweep.stripFile host choice path).pending = sweep.pending ++
      ((changeOf (foresee host stripping.edit sweep.store path)).map fun text => (path, text)).toList := by
  unfold Sweep.stripFile foresee
  cases host.read sweep.store path with
  | error failure => exact ⟨rfl, rfl, (List.append_nil _).symm⟩
  | ok script =>
    simp only [stripping, dry, if_true]
    split
    · rename_i same
      simp [Pass.tally, changeOf, same]
    · rename_i changed
      simp [Pass.tally, changeOf, changed, Sweep.countCalls, Sweep.note]

theorem dryStrip (paths : List Text) (sweep : Sweep) :
    (paths.foldl (Sweep.stripFile host choice) sweep).store = sweep.store ∧
    (paths.foldl (Sweep.stripFile host choice) sweep).stats = paths.foldl (fun stats path =>
      stripping.tally stats path (foresee host stripping.edit sweep.store path)) sweep.stats ∧
    (paths.foldl (Sweep.stripFile host choice) sweep).pending = sweep.pending ++
      paths.filterMap fun path => (changeOf (foresee host stripping.edit sweep.store path)).map
        fun text => (path, text) := by
  induction paths generalizing sweep with
  | nil => exact ⟨rfl, rfl, (List.append_nil _).symm⟩
  | cons path rest ih =>
    obtain ⟨store, stats, pending⟩ := dryStripStep dry sweep path
    obtain ⟨stores, tallied, waiting⟩ := ih (sweep.stripFile host choice path)
    rw [store] at stores tallied waiting
    rw [stats] at tallied
    rw [pending] at waiting
    refine ⟨stores, tallied, waiting.trans ?_⟩
    rw [List.filterMap_cons, List.append_assoc]
    cases changeOf (foresee host stripping.edit sweep.store path) <;> rfl

theorem dryPruneStep (scripts : List Text) (sweep : Sweep) (path : Text) :
    (sweep.pruneFile host choice scripts path).store = sweep.store ∧
    (sweep.pruneFile host choice scripts path).pending = sweep.pending ∧
    (sweep.pruneFile host choice scripts path).stats =
      (pruning (Usage.readKnown sweep.pending (host.read sweep.store)) scripts).tally sweep.stats path
        (foresee host (Usage.pruneBy (Usage.readKnown sweep.pending (host.read sweep.store)) scripts)
          sweep.store path) := by
  unfold Sweep.pruneFile foresee
  cases host.read sweep.store path with
  | error failure => exact ⟨rfl, rfl, rfl⟩
  | ok css =>
    have asked := Usage.checkerPrunes scripts sweep.pending (host.read sweep.store) css
    dsimp only
    rw [← asked]
    generalize (Usage.Checker.ofFiles scripts sweep.pending).prune (host.read sweep.store) css = answer
    obtain ⟨pruned, checker⟩ := answer
    cases pruned with
    | error escape => exact ⟨rfl, rfl, rfl⟩
    | ok pruned =>
      simp only [pruning, dry, if_true]
      split
      · rename_i same
        simp [Pass.tally, same]
      · rename_i changed
        simp [Pass.tally, changed, Sweep.countClasses, Sweep.note]

theorem dryPrune (scripts paths : List Text) (sweep : Sweep) :
    (paths.foldl (Sweep.pruneFile host choice scripts) sweep).store = sweep.store ∧
    (paths.foldl (Sweep.pruneFile host choice scripts) sweep).stats = paths.foldl (fun stats path =>
      (pruning (Usage.readKnown sweep.pending (host.read sweep.store)) scripts).tally stats path
        (foresee host (pruning (Usage.readKnown sweep.pending (host.read sweep.store)) scripts).edit
          sweep.store path)) sweep.stats := by
  induction paths generalizing sweep with
  | nil => exact ⟨rfl, rfl⟩
  | cons path rest ih =>
    obtain ⟨store, pending, stats⟩ := dryPruneStep dry scripts sweep path
    obtain ⟨stores, tallied⟩ := ih (sweep.pruneFile host choice scripts path)
    rw [store] at stores
    rw [store, pending, stats] at tallied
    exact ⟨stores, tallied⟩

end

theorem passForeseen {host : Host} (plain : host.PlainTags) {pass : Pass} {sites : List Site}
    {before : Sweep} (standing : ∀ site ∈ sites, Standing before.store site)
    (apart : (sites.map Site.place).Nodup) {next : Sweep → Text → Sweep}
    (follows : ∀ done, (∀ site ∈ done, site ∈ sites) → ∀ sweep : Sweep,
      Host.Swept host pass.edit before.store done sweep.store → sweep.pending = before.pending →
      ∀ path, Follows host pass path sweep (next sweep path))
    (carried : ∀ done site rest, sites = done ++ site :: rest → ∀ now,
      (done.map Site.path).foldl next before = now → Passed host pass done before now →
      ∀ old new, host.read now.store site.path = .ok old → pass.edit old = .ok new → new ≠ old →
        (host.write now.store site.path new).1 = .ok ()) :
    ∀ site ∈ sites, (host.rewrite pass.edit before.store site.path).1 =
      foresee host pass.edit before.store site.path := by
  intro site mem
  obtain ⟨done, rest, split⟩ := List.append_of_mem mem
  have inside : ∀ other ∈ done, other ∈ sites := fun other mem =>
    split ▸ List.mem_append_left (site :: rest) mem
  rw [split] at apart
  obtain ⟨once, away⟩ := apartSplit apart
  have earlier := fun other mem => standing other (inside other mem)
  have passed : Passed host pass done before ((done.map Site.path).foldl next before) :=
    passedAll plain earlier once fun among within => follows among fun other mem =>
      inside other (within other mem)
  have carries := carried done site rest split _ rfl passed
  rw [← passed.swept.rewrite earlier (standing site mem) away plain pass.edit,
    rewriteForeseen carries, foresee, foresee, passed.swept.read (standing site mem) away]

theorem tallySame {pass : Pass} (outcome foreseen : Text → Except Failure (Text × Text))
    {sites : List Site} (same : ∀ site ∈ sites, outcome site.path = foreseen site.path)
    (stats : Stats) :
    (sites.map Site.path).foldl (fun stats path => pass.tally stats path (foreseen path)) stats =
      sites.foldl (fun stats site => pass.tally stats site.path (outcome site.path)) stats := by
  rw [List.foldl_map]
  exact List.foldl_ext _ _ stats fun stats site mem => by rw [same site mem]

theorem dryHalfway {host : Host} {choice : Choice} (dry : choice.dryRun = true)
    (paths : List Text) (sweep : Sweep) (waits : sweep.pending = []) :
    (halfway host choice paths sweep).store = sweep.store ∧
    (halfway host choice paths sweep).stats = (if choice.stripCalls then paths else []).foldl
      (fun stats path => stripping.tally stats path (foresee host stripping.edit sweep.store path))
      sweep.stats ∧
    (halfway host choice paths sweep).pending = (if choice.stripCalls then paths else []).filterMap
      fun path => (changeOf (foresee host stripping.edit sweep.store path)).map
        fun text => (path, text) := by
  unfold halfway
  split
  · obtain ⟨store, stats, pending⟩ := @dryStrip host choice dry paths sweep
    exact ⟨store, stats, by rw [pending, waits, List.nil_append]⟩
  · exact ⟨rfl, rfl, waits⟩

theorem readSettled {host : Host} {edit : Edit} {store later : Store} {site : Site}
    (standing : Standing store site) (after : Standing later site)
    (held : later.get? site.place =
      Host.settled (host.rewrite edit store site.path).1 (store.get? site.place)) :
    host.read later site.path = match changeOf (host.rewrite edit store site.path).1 with
      | some new => .ok new
      | none => host.read store site.path := by
  cases outcome : (host.rewrite edit store site.path).1 with
  | error failure =>
    rw [outcome] at held
    exact Host.readStanding standing after held
  | ok texts =>
    obtain ⟨old, new⟩ := texts
    obtain ⟨found, _⟩ := rewriteOk outcome
    obtain ⟨mode, bytes, stood, _⟩ := Host.readHeld standing found
    rw [outcome, stood] at held
    by_cases same : new = old
    · simp only [Host.settled, same, if_true, ← stood] at held
      simpa [changeOf, same] using Host.readStanding standing after held
    · simp only [Host.settled, same, if_false] at held
      simpa [changeOf, same] using Host.readWritten standing after found held

end SourceSweep.Run
