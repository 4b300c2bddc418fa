import Mathlib.Data.List.Basic
import SourceSweep.Proofs.Run.Pass
import SourceSweep.Proofs.Run.Ready

/-! What a run that writes comes to, file by file. -/
namespace SourceSweep.Run
open Text Files Store

theorem pruningCongr {read other : Usage.Reader} {scripts : List Text}
    (same : ∀ path ∈ scripts, read path = other path) : pruning read scripts = pruning other scripts := by
  unfold pruning
  rw [show Usage.pruneBy read scripts = Usage.pruneBy other scripts from
    funext (Usage.pruneByCongr same)]

def halfway (host : Host) (choice : Choice) (scripts : List Text) (sweep : Sweep) : Sweep :=
  if choice.stripCalls then scripts.foldl (Sweep.stripFile host choice) sweep else sweep

section
variable {host : Host} {store : Store} {choice : Choice} {scripts styles : Scan}
  {first second : List Site} (found : Found store scripts styles first second)
include found

theorem Found.later {later : Store} (grown : store.Grown later) :
    Found later scripts styles first second :=
  ⟨found.scripts, found.styles, fun site mem => (found.standing site mem).grown grown, found.apart⟩

theorem Found.script {site : Site} (mem : site ∈ first) : Standing store site :=
  found.standing site (List.mem_append_left second mem)

theorem Found.style {site : Site} (mem : site ∈ second) : Standing store site :=
  found.standing site (List.mem_append_right first mem)

theorem Found.differ {site other : Site} (mem : site ∈ first) (mem' : other ∈ second) :
    site.place ≠ other.place := by
  have apart := found.apart
  rw [List.map_append, List.nodup_append] at apart
  exact apart.2.2 site.place (List.mem_map_of_mem mem) other.place (List.mem_map_of_mem mem')

theorem Found.differPassed (choice : Choice) {site : Site} (mem : site ∈ second) :
    ∀ other ∈ (if choice.stripCalls then first else []), site.place ≠ other.place := by
  intro other listed
  split at listed
  · exact (found.differ listed mem).symm
  · cases listed

theorem Found.passing (choice : Choice) :
    ∀ site ∈ (if choice.stripCalls then first else []), Standing store site := by
  intro site mem
  split at mem
  · exact found.script mem
  · cases mem

theorem Found.scriptsApart : (first.map Site.place).Nodup := by
  have apart := found.apart
  rw [List.map_append, List.nodup_append] at apart
  exact apart.1

theorem Found.stylesApart : (second.map Site.place).Nodup := by
  have apart := found.apart
  rw [List.map_append, List.nodup_append] at apart
  exact apart.2.1

theorem Found.rulesStay {done : List Site} (among : ∀ site ∈ done, site ∈ second) {later : Sweep}
    {edit : Edit} (swept : Host.Swept host edit store done later.store) (waits : later.pending = []) :
    pruning (Usage.readKnown later.pending (host.read later.store)) scripts.files =
      pruning (host.read store) scripts.files := by
  refine pruningCongr fun script listed => ?_
  rw [found.scripts] at listed
  obtain ⟨site, mem, rfl⟩ := List.mem_map.mp listed
  rw [waits]
  exact swept.read (found.script mem) fun other mem' => found.differ mem (among other mem')

variable (plain : host.PlainTags) (real : choice.dryRun = false) {sweep : Sweep}
  (here : sweep.store = store)
include plain real here

theorem scriptsPassed : Passed host stripping (if choice.stripCalls then first else []) sweep
    (halfway host choice scripts.files sweep) := by
  subst here
  unfold halfway
  split
  · rw [found.scripts]
    exact passedAll plain (fun site mem => found.script mem) found.scriptsApart
      fun _ _ sweep _ _ path => stripFileFollows real sweep path
  · exact ⟨Host.sweptNone host stripping.edit sweep.store, rfl, rfl⟩

theorem stylesPassed (waits : sweep.pending = []) :
    Passed host (pruning (host.read store) scripts.files) second sweep
      (styles.files.foldl (Sweep.pruneFile host choice scripts.files) sweep) := by
  subst here
  rw [found.styles]
  refine passedAll plain (fun site mem => found.style mem) found.stylesApart
    fun done among later swept pending path => ?_
  exact found.rulesStay among swept (pending.trans waits) ▸
    pruneFileFollows real later path scripts.files

end

/-- How a file comes out of an edit: in its old mode, with the edited text, unless a failure kept the
edit from being made. Then nothing about it is changed. -/
inductive Edited (host : Host) (before after : Store) (edited : Text → Text) (path : Text) :
    Except Failure (Text × Text) → Prop where
  | made {old new mode bytes} (same : new = edited old)
      (stood : before.node? host.workDir path = some (.file mode bytes))
      (text : Utf8.decode bytes = .ok old)
      (stands : after.node? host.workDir path =
        some (.file mode (if new = old then bytes else Utf8.encode new))) :
      Edited host before after edited path (.ok (old, new))
  | failed {failure} (stays : after.node? host.workDir path = before.node? host.workDir path) :
      Edited host before after edited path (.error failure)

theorem Edited.stays {host : Host} {before after : Store} {edited : Text → Text} {path : Text}
    {outcome : Except Failure (Text × Text)} (result : Edited host before after edited path outcome)
    (reported : (problemOf path outcome).isSome) :
    after.node? host.workDir path = before.node? host.workDir path := by
  cases result with
  | made => cases reported
  | failed stays => exact stays

theorem nodeSame {store later : Store} {site : Site} (standing : Standing store site)
    (after : Standing later site) (same : later.get? site.place = store.get? site.place)
    (workDir : Location) : later.node? workDir site.path = store.node? workDir site.path := by
  unfold node?
  rw [standing.find, after.find]
  cases accept site.path with
  | error number => rfl
  | ok => simp only [Except.map, same]

theorem rewriteOk {host : Host} {edit : Edit} {store : Store} {path old new : Text}
    (done : (host.rewrite edit store path).1 = .ok (old, new)) :
    host.read store path = .ok old ∧ edit old = .ok new := by
  unfold Host.rewrite at done
  cases found : host.read store path with
  | error failure => simp [found] at done
  | ok text =>
    cases edited : edit text with
    | error escape => simp [found, edited] at done
    | ok changed =>
      simp only [found, edited] at done
      split at done
      · cases done
        exact ⟨rfl, edited⟩
      · generalize host.write store path changed = step at done
        obtain ⟨result, after⟩ := step
        cases result with
        | error failure => cases done
        | ok =>
          cases done
          exact ⟨rfl, edited⟩

theorem editedOf {host : Host} {before after : Store} {site : Site} (standing : Standing before site)
    (later : Standing after site) {edit : Edit} {edited : Text → Text}
    (edits : ∀ old new, edit old = .ok new → edited old = new)
    (held : after.get? site.place =
      Host.settled (host.rewrite edit before site.path).1 (before.get? site.place)) :
    Edited host before after edited site.path (host.rewrite edit before site.path).1 := by
  cases outcome : (host.rewrite edit before site.path).1 with
  | error failure =>
    rw [outcome] at held
    exact .failed (nodeSame standing later held host.workDir)
  | ok texts =>
    obtain ⟨old, new⟩ := texts
    obtain ⟨found, made⟩ := rewriteOk outcome
    have taken := Host.readTaken standing found
    obtain ⟨mode, bytes, stood, decoded⟩ := Host.readHeld standing found
    rw [outcome, stood] at held
    have stays : before.node? host.workDir site.path = some (.file mode bytes) :=
      (standing.node host.workDir taken).trans stood
    refine .made (edits old new made).symm stays decoded ?_
    rw [later.node host.workDir taken, held]
    rfl

theorem readyPasses {host : Host} {store : Store} {root : Datum} {choice : Choice} {place : Text}
    {scripts styles : Scan} (ready : Ready host store root choice place scripts styles) :
    run host store root choice = .ok (styles.files.foldl (Sweep.pruneFile host choice scripts.files)
      (halfway host choice scripts.files (begun store place scripts styles))).finish := by
  rw [readyRun ready]
  have others := ready.styles
  unfold Sweep.passes
  by_cases prunes : choice.pruneRules = true
  · rw [if_pos prunes]
    rfl
  · rw [if_neg prunes] at others ⊢
    cases others
    rfl

section
variable {host : Host} {choice : Choice} {scripts styles : Scan} {first second : List Site}
  {start middle sweep : Sweep} (found : Found start.store scripts styles first second)
  (plain : host.PlainTags)
  (strips : Passed host stripping (if choice.stripCalls then first else []) start middle)
include found strips

theorem scriptsEdited : ∀ path ∈ scripts.files,
    if choice.stripCalls then
      Edited host start.store middle.store Script.strip path
        (host.rewrite stripping.edit start.store path).1
    else middle.store.node? host.workDir path = start.store.node? host.workDir path := by
  rw [found.scripts]
  intro path listed
  obtain ⟨site, mem, rfl⟩ := List.mem_map.mp listed
  have later := found.later strips.swept.grown
  split
  · rename_i strip
    refine editedOf (found.script mem) (later.script mem) (fun old new => Except.ok.inj) ?_
    exact strips.swept.held site (by rwa [if_pos strip])
  · rename_i keep
    refine nodeSame (found.script mem) (later.script mem) ?_ host.workDir
    exact strips.swept.untouched (found.script mem).present (by simp [keep])

theorem scriptErrors (none : start.stats.errors = []) :
    middle.stats.errors = if choice.stripCalls then scripts.files.filterMap fun path =>
      problemOf path (host.rewrite stripping.edit start.store path).1 else [] := by
  rw [strips.stats, found.scripts]
  split
  · have errors := tallyErrors stripping (fun _ _ _ => rfl)
      (fun path => (host.rewrite stripping.edit start.store path).1) first start.stats
    rw [errors, none, List.nil_append]
  · exact none

include plain

theorem styleOutcome (edit : Edit) {site : Site} (mem : site ∈ second) :
    (host.rewrite edit middle.store site.path).1 = (host.rewrite edit start.store site.path).1 :=
  strips.swept.rewrite (found.passing choice) (found.style mem) (found.differPassed choice mem) plain edit

variable (prunes : Passed host (pruning (host.read middle.store) scripts.files) second middle sweep)
include prunes

theorem stylesEdited : ∀ path ∈ styles.files,
    Edited host start.store sweep.store (Style.prune (Usage.usedIn (host.read middle.store) scripts.files))
      path (host.rewrite (Usage.pruneBy (host.read middle.store) scripts.files) start.store path).1 := by
  rw [found.styles]
  intro path listed
  obtain ⟨site, mem, rfl⟩ := List.mem_map.mp listed
  have later := (found.later strips.swept.grown).later prunes.swept.grown
  have before := strips.swept.untouched (found.style mem).present (found.differPassed choice mem)
  refine editedOf (found.style mem) (later.style mem) (fun old new done => Usage.pruneByOk done) ?_
  rw [← styleOutcome found plain strips _ mem, ← before]
  exact prunes.swept.held site mem

theorem styleErrors : sweep.stats.errors = middle.stats.errors ++ styles.files.filterMap fun path =>
    problemOf path
      (host.rewrite (Usage.pruneBy (host.read middle.store) scripts.files) start.store path).1 := by
  have errors := tallyErrors (pruning (host.read middle.store) scripts.files) (fun _ _ _ => rfl)
    (fun path => (host.rewrite (Usage.pruneBy (host.read middle.store) scripts.files)
      middle.store path).1) second middle.stats
  rw [prunes.stats, found.styles]
  refine errors.trans (congrArg _ (List.filterMap_congr fun path listed => ?_))
  obtain ⟨site, mem, rfl⟩ := List.mem_map.mp listed
  rw [styleOutcome found plain strips _ mem]

end

/-- What a run does to each file it finds, told from the store before the run. Scripts are stripped
first; the verdicts on stylesheets come from the scripts as they are after that. Every file that could
not be edited is reported once, in the order of the scans, and keeps none of the others back. -/
theorem runPointwise {host : Host} {store : Store} {root : Datum} {choice : Choice} {place : Text}
    {scripts styles : Scan} (tree : store.Tree) (plain : host.PlainTags)
    (real : choice.dryRun = false) (ready : Ready host store root choice place scripts styles) :
    ∃ sweep middle, run host store root choice = .ok sweep ∧
      (∀ path ∈ scripts.files,
        if choice.stripCalls then
          Edited host store middle Script.strip path (host.rewrite stripping.edit store path).1
        else middle.node? host.workDir path = store.node? host.workDir path) ∧
      (∀ path ∈ scripts.files,
        sweep.store.node? host.workDir path = middle.node? host.workDir path) ∧
      (∀ path ∈ styles.files, Edited host store sweep.store
        (Style.prune (Usage.usedIn (host.read middle) scripts.files)) path
        (host.rewrite (Usage.pruneBy (host.read middle) scripts.files) store path).1) ∧
      sweep.stats.errors =
        (if choice.stripCalls then scripts.files.filterMap fun path =>
          problemOf path (host.rewrite stripping.edit store path).1 else []) ++
        styles.files.filterMap fun path => problemOf path
          (host.rewrite (Usage.pruneBy (host.read middle) scripts.files) store path).1 := by
  obtain ⟨first, second, found⟩ := ready.found tree
  obtain ⟨same, waits, noErrors⟩ := begunKeeps store place scripts styles
  have strips := scriptsPassed found plain real same
  have run := readyPasses ready
  generalize begun store place scripts styles = start at same waits noErrors strips run
  subst same
  have later := found.later strips.swept.grown
  have prunes := stylesPassed later plain real rfl (strips.pending.trans waits)
  generalize halfway host choice scripts.files start = middle at strips run later prunes
  generalize styles.files.foldl (Sweep.pruneFile host choice scripts.files) middle = sweep at run prunes
  have prunes : Passed host (pruning (host.read middle.store) scripts.files) second middle sweep.finish :=
    ⟨prunes.swept, prunes.stats, prunes.pending⟩
  refine ⟨_, middle.store, run, scriptsEdited found strips, ?_,
    stylesEdited found plain strips prunes, ?_⟩
  · rw [found.scripts]
    intro path listed
    obtain ⟨site, mem, rfl⟩ := List.mem_map.mp listed
    have after := (later.script mem).grown prunes.swept.grown
    refine nodeSame (later.script mem) after ?_ host.workDir
    exact prunes.swept.untouched (later.script mem).present fun other mem' => found.differ mem mem'
  · rw [← scriptErrors found strips noErrors]
    exact styleErrors found plain strips prunes

def scriptAndStyle : Store :=
  ((((Store.empty.put [] (.dir dirMode)).put ["p".toList] (.dir dirMode)).put
    ["src".toList, "p".toList] (.dir dirMode)).put ["a.js".toList, "src".toList, "p".toList]
      (.file fileMode (Utf8.encode "console.log(1);\n\"b\"".toList))).put
        ["b.css".toList, "src".toList, "p".toList]
          (.file fileMode (Utf8.encode ".b \x7b\n\x7d\n.c \x7b\n\x7d\n".toList))

def faultlessHost : Host where
  workDir := []
  engine := ["engine".toList]
  faults := []
  tags := ["x".toList]

def refusingHost : Host :=
  { faultlessHost with faults := [⟨.replace, "/p/src/a.js".toList, .errno Errno.readOnly⟩] }

theorem refusedScriptStays : scriptAndStyle.Tree ∧ refusingHost.PlainTags ∧
    ∃ sweep, run refusingHost scriptAndStyle (.text "/p".toList) ⟨false, true, true⟩ = .ok sweep ∧
      sweep.store.node? [] "/p/src/a.js".toList = scriptAndStyle.node? [] "/p/src/a.js".toList := by
  have tree : scriptAndStyle.Tree := by decide +kernel
  have plain : refusingHost.PlainTags := by decide
  have ready : Ready refusingHost scriptAndStyle (.text "/p".toList) ⟨false, true, true⟩ "/p".toList
      ⟨["/p/src/a.js".toList], []⟩ ⟨["/p/src/b.css".toList], []⟩ := by
    constructor <;> rfl
  have fails : (problemOf "/p/src/a.js".toList
      (refusingHost.rewrite stripping.edit scriptAndStyle "/p/src/a.js".toList).1).isSome := by
    decide +kernel
  obtain ⟨sweep, middle, ran, strips, keeps, -⟩ := runPointwise tree plain rfl ready
  have listed : "/p/src/a.js".toList ∈ ["/p/src/a.js".toList] := List.mem_cons_self
  have stripped := strips "/p/src/a.js".toList listed
  rw [if_pos rfl] at stripped
  exact ⟨tree, plain, sweep, ran, (keeps "/p/src/a.js".toList listed).trans (stripped.stays fails)⟩

end SourceSweep.Run
