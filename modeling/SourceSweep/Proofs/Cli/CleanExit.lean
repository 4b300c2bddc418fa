import SourceSweep.Cli.Program
import SourceSweep.Proofs.Cli.Arguments
import SourceSweep.Proofs.Run.Clean
import SourceSweep.Proofs.Style.Chunks

/-! What a clean exit means. A tool that was to fail on errors and exits with zero has read every file that it
found, and what it dropped from the stylesheets is what none of the scripts on the disk refers to. -/
namespace SourceSweep.Cli
open Text Files Run Store

def textAt (host : Host) (store : Store) (path : Text) : Option Text :=
  match store.node? host.workDir path with
  | some (.file _ bytes) => (Utf8.decode bytes).toOption
  | _ => none

def refersIn (host : Host) (store : Store) (scripts : List Text) (name : Text) : Bool :=
  scripts.any fun path => (textAt host store path).any (Usage.refersTo · name)

/-- Files that hold what was to be made of them. A chunk that is missing from a stylesheet went for the class
that its first line names, to which no script refers in any form. -/
structure Delivered (host : Host) (before after : Store) (scripts styles : List Text) : Prop where
  script : ∀ path ∈ scripts, ∃ old, host.read before path = .ok old ∧
    textAt host after path = some (Script.strip old)
  style : ∀ path ∈ styles, ∃ css lost, host.read before path = .ok css ∧
    textAt host after path = some (Style.prune (refersIn host after scripts) css) ∧
    (Style.keptChunks (refersIn host after scripts) [] (Style.chunks css) ++ lost).Perm (Style.chunks css) ∧
    ∀ chunk ∈ lost, ∃ line name, chunk.head? = some line ∧ Style.ruleClass? line = some name ∧
      ∀ script ∈ scripts, ∀ text, textAt host after script = some text →
        ∀ pattern ∈ Usage.references name, Usage.found pattern text = false

theorem seekNode {host : Host} {store : Store} {call : Call} {path : Text} {place : Location}
    (sought : host.seek store call path = .ok place) :
    store.node? host.workDir path = store.get? place := by
  unfold Host.seek at sought
  split at sought
  · cases sought
  · split at sought
    · cases sought
    · rename_i clean
      split at sought
      · rename_i found
        cases sought
        rw [node?, if_neg clean, found]
      · cases sought

theorem textRead {host : Host} {store : Store} {path text : Text}
    (found : host.read store path = .ok text) : textAt host store path = some text := by
  unfold Host.read at found
  split at found
  · cases found
  · rename_i bytes opened
    obtain ⟨place, sought, opened⟩ := bindOkIff.mp opened
    split at opened
    · rename_i held
      cases opened
      split at found
      · rename_i decoded
        cases found
        simp only [textAt, seekNode sought, held, decoded, Except.toOption]
      · cases found
    · cases opened

theorem refersRead {host : Host} {store : Store} {scripts : List Text}
    (readable : ∀ path ∈ scripts, ∃ text, host.read store path = .ok text) :
    Usage.usedIn (host.read store) scripts = refersIn host store scripts := by
  funext name
  unfold Usage.usedIn refersIn
  induction scripts with
  | nil => rfl
  | cons path rest ih =>
    rw [List.forall_mem_cons] at readable
    obtain ⟨⟨text, found⟩, later⟩ := readable
    rw [List.any_cons, List.any_cons, ih later, found, textRead found]
    rfl

theorem refersNowhere {host : Host} {store : Store} {scripts : List Text} {name : Text}
    (unused : refersIn host store scripts name = false) {script : Text} (mem : script ∈ scripts) {text : Text}
    (stands : textAt host store script = some text) :
    ∀ pattern ∈ Usage.references name, Usage.found pattern text = false := by
  have silent := List.any_eq_false.mp unused script mem
  simpa [stands, Usage.refersTo] using silent

theorem delivered {host : Host} {before after : Store} {scripts styles : List Text}
    (cleaned : Cleaned host (Tool.cleanup.choice false) before after scripts styles) :
    Delivered host before after scripts styles := by
  have readable : ∀ path ∈ scripts, ∃ text, host.read after path = .ok text := fun path mem => by
    obtain ⟨old, turned⟩ := cleaned.script rfl path mem
    exact ⟨_, turned.is⟩
  refine ⟨fun path mem => ?_, fun path mem => ?_⟩
  · obtain ⟨old, turned⟩ := cleaned.script rfl path mem
    exact ⟨old, turned.was, textRead turned.is⟩
  · obtain ⟨css, pruned, turned, rules⟩ := cleaned.style path mem
    have made := Usage.pruneByOk rules
    rw [refersRead readable] at made
    obtain ⟨lost, part, named⟩ := Style.chunksPart (refersIn host after scripts) [] (Style.chunks css)
    refine ⟨css, lost, turned.was, made ▸ textRead turned.is, part, fun chunk gone => ?_⟩
    obtain ⟨line, name, first, asked, unused⟩ := named chunk gone
    exact ⟨line, name, first, asked, fun script listed text => refersNowhere unused listed⟩

theorem cleanExitDelivers {arguments : List Text} {preset : Text} {host : Host} {store : Store}
    {outcome : Outcome} (tree : store.Tree) (plain : host.PlainTags)
    (fails : sets arguments (.flag .failOnError) = true) (real : sets arguments (.flag .dryRun) = false)
    (noHelp : sets arguments .help = false) (ended : main .cleanup arguments preset host store = .ok outcome)
    (clean : outcome.exitCode = 0) :
    ∃ settings, read (if preset.isEmpty then selfName else preset) arguments = .run settings ∧
      ∀ place scripts styles,
        Ready host store (.text settings.root) (Tool.cleanup.choice false) place scripts styles →
        Delivered host store outcome.store scripts.files styles.files := by
  unfold main at ended
  split at ended
  · cases ended
    cases clean
  · rename_i asked
    exact absurd ((readHelp asked).symm.trans noHelp) (by decide)
  · rename_i settings asked
    refine ⟨settings, asked, fun place scripts styles ready => ?_⟩
    have writes : settings.has .dryRun = false := (readFlags asked .dryRun).trans real
    have strict : settings.has .failOnError = true := (readFlags asked .failOnError).trans fails
    obtain ⟨sweep, ran, made⟩ := bindOkIff.mp ended
    rw [writes] at ran
    cases made
    have none : ¬ sweep.stats.root = none ∧ sweep.stats.errors = [] := by
      simpa [exitCode, strict] using clean
    exact delivered (ready.cleaned tree plain rfl ran none.2)

theorem abbreviatedRunDelivers :
    let arguments := ["--root".toList, "/p".toList, "--fail".toList]
    scriptAndStyle.Tree ∧ faultlessHost.PlainTags ∧ sets arguments (.flag .failOnError) = true ∧
      sets arguments (.flag .dryRun) = false ∧ sets arguments .help = false ∧
      ∃ outcome, main .cleanup arguments [] faultlessHost scriptAndStyle = .ok outcome ∧
        outcome.exitCode = 0 ∧ Delivered faultlessHost scriptAndStyle outcome.store
          ["/p/src/a.js".toList] ["/p/src/b.css".toList] := by
  intro arguments
  have tree : scriptAndStyle.Tree := by decide +kernel
  have plain : faultlessHost.PlainTags := by decide
  have switches : sets arguments (.flag .failOnError) = true ∧ sets arguments (.flag .dryRun) = false ∧
      sets arguments .help = false := by decide
  obtain ⟨fails, real, noHelp⟩ := switches
  have ready : Ready faultlessHost scriptAndStyle (.text "/p".toList) (Tool.cleanup.choice false) "/p".toList
      ⟨["/p/src/a.js".toList], []⟩ ⟨["/p/src/b.css".toList], []⟩ := by
    constructor <;> rfl
  have asked : read selfName arguments = .run ⟨"/p".toList, [.failOnError]⟩ := by decide
  have ran := readyRun ready
  generalize ended : (Sweep.passes faultlessHost (Tool.cleanup.choice false) _ _ _).finish = sweep at ran
  have exits : exitCode ⟨"/p".toList, [.failOnError]⟩ sweep.stats = 0 := by
    rw [← ended]
    decide +kernel
  obtain ⟨outcome, performed, exit⟩ : ∃ outcome,
      perform .cleanup ⟨"/p".toList, [.failOnError]⟩ faultlessHost scriptAndStyle = .ok outcome ∧
      outcome.exitCode = exitCode ⟨"/p".toList, [.failOnError]⟩ sweep.stats :=
    ⟨_, bindOkIff.mpr ⟨sweep, ran, rfl⟩, rfl⟩
  have made : main .cleanup arguments [] faultlessHost scriptAndStyle = .ok outcome := by
    unfold main
    simp only [List.isEmpty_nil, if_true, asked]
    exact performed
  have clean := exit.trans exits
  obtain ⟨settings, told, delivers⟩ := cleanExitDelivers tree plain fails real noHelp made clean
  cases asked.symm.trans told
  exact ⟨tree, plain, fails, real, noHelp, outcome, made, clean, delivers _ _ _ ready⟩

end SourceSweep.Cli
