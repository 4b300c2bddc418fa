import SourceSweep.Files.Content
import SourceSweep.Proofs.Files.Growth
import SourceSweep.Proofs.Files.PathNames

/-! Replacing a file is all or nothing. A write that succeeds changes the one entry that the path
names; a write that fails changes none that was there, and only a temporary file that could not be
removed stays behind. -/
namespace SourceSweep.Files
open Text

namespace Store

theorem newPlaceIff {store : Store} {workDir place : Location} {path : Text} :
    store.newPlace workDir path = .ok place ↔
      ∃ dir name, Slot store workDir path dir name ∧ Utf8.size name ≤ nameLimit ∧ place = name :: dir := by
  unfold newPlace
  rw [bindOkIff]
  constructor
  · intro parts
    obtain ⟨⟨dir, name?⟩, found, entered⟩ := parts
    cases name? with
    | none => cases entered
    | some name =>
      obtain ⟨_, short, same⟩ := enterOkIff.mp entered
      exact ⟨dir, name, findSlotIff.mp found, short, same⟩
  · intro parts
    obtain ⟨dir, name, slot, short, same⟩ := parts
    exact ⟨(dir, some name), findSlotIff.mpr slot, enterOkIff.mpr ⟨slot.isDir, short, same⟩⟩

theorem Grown.newPlaceIff {store later : Store} (grown : store.Grown later)
    {workDir place : Location} {path : Text} :
    later.newPlace workDir path = .ok place ↔ store.newPlace workDir path = .ok place := by
  simp only [Store.newPlaceIff, grown.slotIff]

theorem moveOverOk {store after : Store} {workDir temp : Location} {target : Text}
    (moved : store.moveOver workDir temp target = .ok after) :
    ∃ place node, store.newPlace workDir target = .ok place ∧ store.isDir place = false ∧
      target.getLast? ≠ some '/' ∧ store.get? temp = some node ∧
      after = (store.erase temp).put place node := by
  unfold moveOver at moved
  obtain ⟨⟨dir, name?⟩, found, moved⟩ := bindOkIff.mp moved
  cases name? with
  | none => cases moved
  | some name =>
    obtain ⟨place, entered, moved⟩ := bindOkIff.mp moved
    split at moved
    · cases moved
    · rename_i closed
      split at moved
      · cases moved
      · rename_i notDir
        split at moved
        · rename_i node held
          cases moved
          have named : store.newPlace workDir target = .ok place :=
            bindOkIff.mpr ⟨(dir, some name), found, entered⟩
          exact ⟨place, node, named, by simpa using notDir, closed, held, rfl⟩
        · cases moved

theorem moveOverPlace {store : Store} {workDir place temp : Location} {target : Text} {node : Node}
    (named : store.newPlace workDir target = .ok place) (notDir : store.isDir place = false)
    (closed : target.getLast? ≠ some '/') (held : store.get? temp = some node) :
    store.moveOver workDir temp target = .ok ((store.erase temp).put place node) := by
  obtain ⟨dir, name, slot, short, rfl⟩ := newPlaceIff.mp named
  have entered : store.enter dir name = .ok (name :: dir) := enterOkIff.mpr ⟨slot.isDir, short, rfl⟩
  simp [moveOver, findSlotIff.mpr slot, bind, Except.bind, entered, closed, notDir, held]

structure Holding (first : Store) (place : Location) (mode : Nat) (bytes : Utf8.Bytes)
    (later : Store) : Prop where
  file : later.get? place = some (.file mode bytes)
  others : ∀ other, other ≠ place → later.get? other = first.get? other

theorem holdingPut (store : Store) (place : Location) (mode : Nat) (bytes : Utf8.Bytes) :
    Holding store place mode bytes (store.put place (.file mode bytes)) :=
  ⟨store.getPutSame place _, fun _ differ => store.getPutOther _ differ⟩

theorem Holding.put {first later : Store} {place : Location} {mode : Nat} {bytes : Utf8.Bytes}
    (holding : Holding first place mode bytes later) (newMode : Nat) (newBytes : Utf8.Bytes) :
    Holding first place newMode newBytes (later.put place (.file newMode newBytes)) :=
  ⟨later.getPutSame place _, fun other differ =>
    (later.getPutOther _ differ).trans (holding.others other differ)⟩

section
variable {first later : Store} {place : Location} {mode : Nat} {bytes : Utf8.Bytes}
  (holding : Holding first place mode bytes later) (free : first.get? place = none)
include holding free

theorem Holding.grown : first.Grown later := by
  intro location
  by_cases same : location = place
  · rw [same, free, holding.file]
    exact .created mode bytes
  · rw [holding.others location same]
    exact .same _

theorem Holding.targetMode (private' : mode = privateMode) (workDir : Location) (path : Text) :
    (later.node? workDir path).elim privateMode Node.mode =
      (first.node? workDir path).elim privateMode Node.mode := by
  unfold node?
  split
  · rfl
  · cases before : first.find workDir path with
    | ok spot =>
      rw [(holding.grown free).find before]
      by_cases same : spot = place
      · simp [same, holding.file, free, Node.mode, private']
      · simp [holding.others spot same]
    | error number =>
      cases after : later.find workDir path with
      | error number => rfl
      | ok spot =>
        rcases (holding.grown free).findBack after with found | ⟨absent, mode', bytes', present⟩
        · cases before.symm.trans found
        · have same : spot = place := by
            by_contra differ
            rw [holding.others spot differ, absent] at present
            cases present
          simp [same, holding.file, Node.mode, private']

theorem Holding.erase {location : Location} : (later.erase place).get? location = first.get? location := by
  by_cases same : location = place
  · rw [same, later.getEraseSame, free]
  · rw [later.getEraseOther same, holding.others location same]

end
end Store

namespace Host
open Store

def PlainTags (host : Host) : Prop := ∀ tag ∈ host.tags, '/' ∉ tag ∧ '.' ∉ tag
instance (host : Host) : Decidable host.PlainTags := by unfold PlainTags; infer_instance

theorem firstFreeOk {host : Host} {store : Store} {paths : List Text} {temp : Temp}
    (made : host.firstFree store paths = .ok temp) :
    temp.path ∈ paths ∧ store.newPlace host.workDir temp.path = .ok temp.place ∧
      store.get? temp.place = none := by
  induction paths with
  | nil => cases made
  | cons path rest ih =>
    unfold firstFree at made
    split at made
    · cases made
    · split at made
      · cases made
      · rename_i place named
        split at made
        · obtain ⟨mem, facts⟩ := ih made
          exact ⟨List.mem_cons_of_mem path mem, facts⟩
        · rename_i absent
          cases made
          exact ⟨List.mem_cons_self, named, by simpa using absent⟩

theorem makeTempOk {host : Host} {store : Store} {target : Text} {temp : Temp}
    (made : host.makeTemp store target = .ok temp) :
    temp.path ∈ host.tempPaths target ∧ store.newPlace host.workDir temp.path = .ok temp.place ∧
      store.get? temp.place = none := by
  unfold makeTemp at made
  split at made
  · cases made
  · exact firstFreeOk made

theorem fillHolds {first store : Store} {temp : Temp}
    (before : Holding first temp.place privateMode [] store) (host : Host) (target content : Text) :
    ∃ bytes, Holding first temp.place privateMode bytes (host.fill store temp target content).2 ∧
      ((host.fill store temp target content).1 = .ok () → bytes = Utf8.encode content) := by
  unfold fill
  split
  · exact ⟨[], before, fun filled => by cases filled⟩
  · split
    · exact ⟨_, before.put _ _, fun filled => by cases filled⟩
    · exact ⟨_, before.put _ _, fun _ => rfl⟩

theorem copyModeHolds {first store later : Store} {temp : Temp} {bytes : Utf8.Bytes} {host : Host}
    {target : Text} (before : Holding first temp.place privateMode bytes store)
    (free : first.get? temp.place = none) (copied : host.copyMode store temp target = .ok later) :
    Holding first temp.place ((first.node? host.workDir target).elim privateMode Node.mode) bytes
      later := by
  rw [← before.targetMode free rfl host.workDir target]
  unfold copyMode at copied
  rw [before.file] at copied
  cases found : store.node? host.workDir target with
  | none =>
    rw [found] at copied
    cases copied
    exact before
  | some node =>
    simp only [found] at copied
    split at copied
    · cases copied
    · cases copied
      exact before.put _ _

theorem replaceOk {host : Host} {store after : Store} {temp : Temp} {target : Text}
    (replaced : host.replace store temp target = .ok after) :
    hasNull target = false ∧ store.moveOver host.workDir temp.place target = .ok after := by
  unfold replace at replaced
  split at replaced
  · cases replaced
  · split at replaced
    · cases replaced
    · rename_i solid
      split at replaced
      · rename_i moved
        cases replaced
        exact ⟨by simpa using solid, moved⟩
      · cases replaced

structure Replaced (host : Host) (store after : Store) (target content : Text) (place : Location) :
    Prop where
  named : store.newPlace host.workDir target = .ok place
  closed : target.getLast? ≠ some '/'
  notDir : store.isDir place = false
  file : after.get? place = some (.file
    ((store.node? host.workDir target).elim privateMode Node.mode) (Utf8.encode content))
  others : ∀ other, other ≠ place → after.get? other = store.get? other

theorem installHolds {first store : Store} {temp : Temp}
    (before : Holding first temp.place privateMode [] store) (free : first.get? temp.place = none)
    (host : Host) (target content : Text) :
    match host.install store temp target content with
    | (.ok (), after) => ∃ place, Replaced host first after target content place
    | (.error _, later) => ∃ mode bytes, Holding first temp.place mode bytes later := by
  obtain ⟨bytes, filled, whole⟩ := fillHolds before host target content
  unfold install
  generalize host.fill store temp target content = step at filled whole ⊢
  obtain ⟨result, store⟩ := step
  cases result with
  | error escape => exact ⟨_, _, filled⟩
  | ok =>
    cases whole rfl
    simp only
    cases copied : host.copyMode store temp target with
    | error escape => exact ⟨_, _, filled⟩
    | ok store' =>
      have copy := copyModeHolds filled free copied
      simp only
      cases replaced : host.replace store' temp target with
      | error escape => exact ⟨_, _, copy⟩
      | ok after =>
        obtain ⟨place, node, named, notDir, closed, held, rfl⟩ := moveOverOk (replaceOk replaced).2
        have grown := copy.grown free
        cases held.symm.trans copy.file
        refine ⟨place, grown.newPlaceIff.mp named, closed, grown.isDir place ▸ notDir,
          Store.getPutSame _ _ _, fun other differ => ?_⟩
        rw [Store.getPutOther _ _ differ, copy.erase free]

def tempName (target tag : Text) : Name := '.' :: baseName target ++ '.' :: tag ++ ".tmp".toList

def tempDir (host : Host) (target : Text) : Text :=
  absolute host.workDir (if (dirName target).isEmpty then selfName else dirName target)

theorem tempPathsEq (host : Host) (target : Text) : host.tempPaths target =
    host.tags.map fun tag => join (host.tempDir target) (tempName target tag) := rfl

theorem tempNameSolid {target tag : Text} (solid : '/' ∉ tag) : '/' ∉ tempName target tag := by
  obtain ⟨_, _, base, _⟩ := splitBase target
  simp [tempName, base, solid]

theorem tempNameDiffers (target tag : Text) : baseName target ≠ tempName target tag := by
  intro same
  have lengths := congrArg List.length same
  simp only [tempName, List.cons_append, List.length_cons, List.length_append] at lengths
  omega

theorem nameOfPlace {store : Store} {workDir place : Location} {path : Text}
    (named : store.newPlace workDir path = .ok place) (closed : path.getLast? ≠ some '/') :
    place.head? = some (baseName path) := by
  obtain ⟨dir, name, slot, _, rfl⟩ := newPlaceIff.mp named
  have given : path ≠ [] := by
    intro same
    subst same
    cases slot.taken
  exact slot.last.symm.trans (lastSlotName given closed)

theorem nameOfTempPlace {host : Host} {store : Store} {target path : Text} {place : Location}
    (plain : host.PlainTags) (listed : path ∈ host.tempPaths target)
    (named : store.newPlace host.workDir path = .ok place) :
    ∃ tag ∈ host.tags, place.head? = some (tempName target tag) := by
  rw [tempPathsEq] at listed
  obtain ⟨tag, mem, rfl⟩ := List.mem_map.mp listed
  obtain ⟨dir, name, slot, _, rfl⟩ := newPlaceIff.mp named
  have last := slot.last
  rw [slotNamesJoin _ (tempNameSolid (plain tag mem).1) (List.cons_ne_nil _ _), List.getLast?_concat] at last
  exact ⟨tag, mem, last.symm⟩

structure Kept (host : Host) (store after : Store) (target : Text) : Prop where
  present : ∀ location node, store.get? location = some node → after.get? location = some node
  clean : host.trouble? .removeTemp target = none →
    ∀ location, after.get? location = store.get? location
  leftover : ∀ location, after.get? location ≠ store.get? location →
    (∃ path ∈ host.tempPaths target, store.newPlace host.workDir path = .ok location) ∧
      ∃ mode bytes, after.get? location = some (.file mode bytes)

theorem keptSelf (host : Host) (store : Store) (target : Text) : Kept host store store target :=
  ⟨fun _ _ found => found, fun _ _ => rfl, fun _ changed => absurd rfl changed⟩

theorem discardKeeps {host : Host} {store later : Store} {target : Text} {temp : Temp}
    {mode : Nat} {bytes : Utf8.Bytes} (made : host.makeTemp store target = .ok temp)
    (holding : Holding store temp.place mode bytes later) (failure : Failure) :
    Kept host store (host.discard later temp target failure).2 target := by
  obtain ⟨listed, named, free⟩ := makeTempOk made
  unfold discard
  cases trouble : host.trouble? .removeTemp target with
  | some trouble =>
    refine ⟨fun location node found => ?_, fun none => by simp [trouble] at none,
      fun location changed => ?_⟩
    · rw [holding.others location (by rintro rfl; simp [free] at found)]
      exact found
    · by_cases same : location = temp.place
      · subst same
        exact ⟨⟨temp.path, listed, named⟩, mode, bytes, holding.file⟩
      · exact absurd (holding.others location same) changed
  | none =>
    have restored : ∀ location, (later.erase temp.place).get? location = store.get? location :=
      fun location => holding.erase free
    exact ⟨fun location node found => (restored location).trans found, fun _ => restored,
      fun location changed => absurd (restored location) changed⟩

theorem writeOutcome (host : Host) (store : Store) (target content : Text) :
    match host.write store target content with
    | (.ok (), after) => ∃ place, Replaced host store after target content place
    | (.error _, after) => Kept host store after target := by
  rw [write]
  split_ifs with refused
  · exact keptSelf host store target
  · cases made : host.makeTemp store target with
    | error escape => exact keptSelf host store target
    | ok temp =>
      obtain ⟨_, _, free⟩ := makeTempOk made
      have installed := installHolds (holdingPut store temp.place privateMode []) free host target content
      generalize step : host.install (store.put temp.place (.file privateMode [])) temp target content =
        outcome at installed
      obtain ⟨result, later⟩ := outcome
      cases result with
      | ok => simpa only [step] using installed
      | error escape =>
        obtain ⟨mode, bytes, holding⟩ := installed
        simpa only [step] using discardKeeps made holding (writeFailure target escape)

section
variable {host : Host} {store after : Store} {target content : Text}

/- The entry that the path names is left alone: the temporary file stood under another name. A path
that ends in a slash names no entry but a directory. -/
theorem Kept.entry (kept : Kept host store after target) (plain : host.PlainTags)
    (closed : target.getLast? ≠ some '/') {place : Location}
    (named : store.newPlace host.workDir target = .ok place) : after.get? place = store.get? place := by
  by_contra changed
  obtain ⟨⟨path, listed, tempNamed⟩, _⟩ := kept.leftover place changed
  obtain ⟨tag, _, name⟩ := nameOfTempPlace plain listed tempNamed
  exact tempNameDiffers target tag (Option.some.inj ((nameOfPlace named closed).symm.trans name))

theorem Kept.grown (kept : Kept host store after target) : store.Grown after := by
  intro location
  cases found : store.get? location with
  | some node =>
    rw [kept.present location node found]
    exact .same _
  | none =>
    by_cases same : after.get? location = none
    · rw [same]
      exact .same _
    · obtain ⟨_, mode, bytes, present⟩ := kept.leftover location (by rwa [found])
      rw [present]
      exact .created mode bytes

/- Replacing a file by itself or making one is growth; replacing a link is not. -/
theorem Replaced.grown {place : Location} (replaced : Replaced host store after target content place)
    (file : store.get? place = none ∨ ∃ bytes, store.get? place = some (.file
      ((store.node? host.workDir target).elim privateMode Node.mode) bytes)) :
    store.Grown after := by
  intro location
  by_cases same : location = place
  · rw [same, replaced.file]
    rcases file with free | ⟨bytes, found⟩
    · rw [free]
      exact .created _ _
    · rw [found]
      exact .rewritten _ _ _
  · rw [replaced.others location same]
    exact .same _

end

end Host
end SourceSweep.Files
