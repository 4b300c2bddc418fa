import SourceSweep.Proofs.Files.Standing
import SourceSweep.Proofs.Text.WellFormed

/-! Reading and writing are inverse. What was written is read back through the same path as soon as
the path can be opened, and what is read is the one text with the bytes that were there. -/
namespace SourceSweep.Files
open Text

namespace Store

theorem Leads.pastFile {store : Store} {links : Nat} {here place : Location} {name : Name}
    {rest : List Name} (leads : Leads store links here (name :: rest) place) :
    store.isDir here = true := by
  cases leads with
  | self dir => exact dir
  | up dir => exact dir
  | link _ _ entered => exact (enterOkIff.mp entered).1
  | entry _ _ entered => exact (enterOkIff.mp entered).1

section
variable {first later : Store} {place : Location} {mode : Nat} {bytes : Utf8.Bytes}
  (holding : Holding first place mode bytes later)
include holding

theorem Holding.notDir : later.isDir place = false := by
  simp [isDir, holding.file]

theorem Holding.behind {links : Nat} {spot : Location} {names : List Name} {name : Name}
    (leads : Leads later links place (names ++ [name]) spot) : False := by
  have isDir : later.isDir place = true := by
    cases names with
    | nil => exact leads.pastFile
    | cons first rest => exact leads.pastFile
  exact Bool.false_ne_true (holding.notDir.symm.trans isDir)

theorem Holding.asBefore {links : Nat} {here spot : Location} {other name : Name} {rest : List Name}
    (led : Leads later links here (other :: (rest ++ [name])) spot) (notSelf : other ≠ selfName)
    (notUp : other ≠ parentName) : later.get? (other :: here) = first.get? (other :: here) := by
  refine holding.others _ fun stops => ?_
  obtain ⟨node, found, next⟩ := led.behind notSelf notUp
  rw [stops, holding.file] at found
  cases found
  rw [stops] at next
  exact holding.behind next

theorem Holding.leadsThere {links links' : Nat} {here dir spot : Location} {front : List Name}
    {name : Name} (leads : Leads first links here front dir) (named : place = name :: dir)
    (notSelf : name ≠ selfName) (notUp : name ≠ parentName)
    (led : Leads later links' here (front ++ [name]) spot) : spot = place := by
  induction leads generalizing links' with
  | here links dir =>
    obtain ⟨node, found, next⟩ := led.behind notSelf notUp
    rw [← named, holding.file] at found
    cases found
    rw [← named] at next
    exact next.fromFile holding.notDir
  | self _ _ ih =>
    cases led with
    | self _ next => exact ih named next
    | link other => exact absurd rfl other
    | entry other => exact absurd rfl other
  | up _ _ ih =>
    cases led with
    | up _ next => exact ih named next
    | link _ other => exact absurd rfl other
    | entry _ other => exact absurd rfl other
  | @link _ here other rest stop target _ notSelf' notUp' entered linked _ ih =>
    obtain ⟨node, found, next⟩ := led.behind notSelf' notUp'
    rw [(enterOkIff.mp entered).2.2] at linked
    rw [holding.asBefore led notSelf' notUp', linked] at found
    cases found
    obtain ⟨fewer, _, next⟩ := next
    rw [List.append_eq, ← List.append_assoc] at next
    exact ih named next
  | @entry _ here other rest stop node' _ notSelf' notUp' entered held plain _ ih =>
    obtain ⟨node, found, next⟩ := led.behind notSelf' notUp'
    have spot' := (enterOkIff.mp entered).2.2
    rw [spot'] at held
    rw [holding.asBefore led notSelf' notUp', held] at found
    cases found
    cases node' with
    | link target => exact absurd rfl (plain target)
    | file => exact ih named (spot' ▸ next)
    | dir => exact ih named (spot' ▸ next)

theorem Holding.findThere {workDir spot : Location} {path : Text}
    (named : first.newPlace workDir path = .ok place) (closed : path.getLast? ≠ some '/')
    (found : later.find workDir path = .ok spot) : spot = place := by
  obtain ⟨dir, name, slot, _, same⟩ := newPlaceIff.mp named
  obtain ⟨_, led⟩ := findIff.mp found
  obtain ⟨front, names⟩ := List.getLast?_eq_some_iff.mp slot.last
  have leads := slot.leads
  rw [pathNamesClosed closed, names] at led
  rw [names, List.dropLast_concat] at leads
  exact holding.leadsThere leads same slot.notSelf slot.notUp led

end
end Store

namespace Host
open Store

theorem openIff {host : Host} {store : Store} {path : Text} {bytes : Utf8.Bytes} :
    host.open? store path = .ok bytes ↔ ∃ place mode, host.seek store .openRead path = .ok place ∧
      store.get? place = some (.file mode bytes) := by
  unfold open?
  rw [bindOkIff]
  constructor
  · rintro ⟨place, sought, opened⟩
    split at opened
    · rename_i mode held found
      cases opened
      exact ⟨place, mode, sought, found⟩
    · cases opened
  · rintro ⟨place, mode, sought, found⟩
    exact ⟨place, sought, by simp [found]⟩

theorem writtenOk {host : Host} {store : Store} {target content : Text}
    (done : (host.write store target content).1.isOk = true) :
    host.write store target content = (.ok (), (host.write store target content).2) := by
  generalize host.write store target content = step at done ⊢
  obtain ⟨result, after⟩ := step
  cases result with
  | error failure => cases done
  | ok => rfl

theorem Replaced.opens {host reader : Host} {store after : Store} {target content : Text}
    {place : Location} (replaced : Replaced host store after target content place)
    (same : reader.workDir = host.workDir) {bytes : Utf8.Bytes}
    (opened : reader.open? after target = .ok bytes) : bytes = Utf8.encode content := by
  obtain ⟨spot, mode, sought, found⟩ := openIff.mp opened
  have holding : Holding store place _ _ after := ⟨replaced.file, replaced.others⟩
  have there := holding.findThere replaced.named replaced.closed (same ▸ seekFound sought)
  rw [there, replaced.file] at found
  cases found
  rfl

theorem readWellFormed {host : Host} {store : Store} {path : Text} {bytes : Utf8.Bytes}
    (opened : host.open? store path = .ok bytes) (formed : Utf8.WellFormed bytes) :
    ∃ text, host.read store path = .ok text ∧ Utf8.encode text = bytes := by
  obtain ⟨text, decoded⟩ := Utf8.wellFormedIff.mp formed
  exact ⟨text, by simp [read, opened, decoded], Utf8.decodeIff.mp decoded⟩

theorem readIllFormed {host : Host} {store : Store} {path : Text} {bytes : Utf8.Bytes}
    (opened : host.open? store path = .ok bytes) (illFormed : ¬ Utf8.WellFormed bytes) :
    ∃ problem, host.read store path = .error (.problem problem) ∧
      problem.code = .invalidFileContent := by
  cases decoded : Utf8.decode bytes with
  | ok text => exact absurd (Utf8.wellFormedIff.mpr ⟨text, decoded⟩) illFormed
  | error defect => exact ⟨.readUndecodable path defect, by simp [read, opened, decoded], rfl⟩

/-- A text that was written is read back as it is, by anyone who can open the file. A file that can be
opened is read as the text that has exactly its bytes, and refused if there is none; writing that text
back gives the same bytes again. -/
theorem readInvertsWrite {host reader : Host} (same : reader.workDir = host.workDir) (store : Store)
    (path : Text) :
    (∀ content after bytes, host.write store path content = (.ok (), after) →
      reader.open? after path = .ok bytes → reader.read after path = .ok content) ∧
    ∀ bytes, host.open? store path = .ok bytes →
      (Utf8.WellFormed bytes → ∃ text, host.read store path = .ok text ∧ Utf8.encode text = bytes ∧
        ∀ after bytes', host.write store path text = (.ok (), after) →
          reader.open? after path = .ok bytes' → bytes' = bytes) ∧
      (¬ Utf8.WellFormed bytes → ∃ problem, host.read store path = .error (.problem problem) ∧
        problem.code = .invalidFileContent) := by
  have writes : ∀ content after bytes, host.write store path content = (.ok (), after) →
      reader.open? after path = .ok bytes → bytes = Utf8.encode content := by
    intro content after bytes written opened
    have outcome := writeOutcome host store path content
    rw [written] at outcome
    obtain ⟨place, replaced⟩ := outcome
    exact replaced.opens same opened
  refine ⟨fun content after bytes written opened => ?_, fun bytes opened => ⟨fun formed => ?_, ?_⟩⟩
  · simp [read, opened, writes content after bytes written opened, Utf8.decodeEncode]
  · obtain ⟨text, found, encoded⟩ := readWellFormed opened formed
    exact ⟨text, found, encoded, fun after bytes' written again =>
      (writes text after bytes' written again).trans encoded⟩
  · exact readIllFormed opened

def linkedStore : Store :=
  (((Store.empty.put [] (.dir dirMode)).put ["a".toList] (.link "b".toList)).put ["b".toList]
    (.file fileMode [])).put ["c".toList] (.file fileMode [0xed, 0xa0, 0x80])

theorem linkedTextsComeBack :
    let host : Host := ⟨[], [], [], ["x".toList]⟩
    let text := "\ufeffa\r\r\n\x00\n".toList
    let after := (host.write linkedStore "/a".toList text).2
    host.read after "/a".toList = .ok text ∧ ¬ Utf8.WellFormed [0xed, 0xa0, 0x80] ∧
      ∃ problem, host.read linkedStore "/c".toList = .error (.problem problem) ∧
        problem.code = .invalidFileContent := by
  intro host text after
  have written : host.write linkedStore "/a".toList text = (.ok (), after) :=
    writtenOk (by decide +kernel)
  have opened : host.open? after "/a".toList = .ok (Utf8.encode text) := by decide +kernel
  have illFormed : ¬ Utf8.WellFormed [0xed, 0xa0, 0x80] := by decide
  have same : host.workDir = host.workDir := rfl
  have linked := readInvertsWrite same linkedStore "/a".toList
  have surrogate := readInvertsWrite same linkedStore "/c".toList
  exact ⟨linked.1 text after _ written opened, illFormed, (surrogate.2 _ rfl).2 illFormed⟩

end Host
end SourceSweep.Files
