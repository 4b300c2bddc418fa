import SourceSweep.Proofs.Files.FirstFailure
import SourceSweep.Proofs.Files.RoundTrip

/-! When a file that is there can be replaced. If no call fails of itself, all that can go wrong is the
temporary file: its name is longer than the target's, and its directory is told from the target's path
as it stands, without a look at what the names before the double dots are. -/
namespace SourceSweep.Files
open Text

namespace Store

theorem Tree.leadsDown {store : Store} (tree : store.Tree) {links : Nat} {location place : Location}
    {names : List Name} (isDir : store.isDir location = true)
    (leads : Leads store links location names place) :
    Leads store links [] (location.reverse ++ names) place := by
  induction location generalizing names with
  | nil => exact leads
  | cons name above ih =>
    obtain ⟨mode, found⟩ := isDirIff.mp isDir
    have legal := tree.legal _ (foundIff.mp found) name List.mem_cons_self
    have inside := tree.dirAbove isDir
    have entered : store.enter above name = .ok (name :: above) :=
      enterOkIff.mpr ⟨inside, legal.short, rfl⟩
    have next := ih inside (.entry legal.notSelf legal.notUp entered found (by simp) leads)
    rwa [List.reverse_cons, List.append_assoc]

theorem nodeOfPlace {store : Store} {workDir place : Location} {path : Text} {mode : Nat}
    {bytes : Utf8.Bytes} (named : store.newPlace workDir path = .ok place)
    (held : store.get? place = some (.file mode bytes)) (found : (store.node? workDir path).isSome) :
    hasNull path = false ∧ path.getLast? ≠ some '/' ∧
      store.node? workDir path = some (.file mode bytes) := by
  have holding : Holding store place mode bytes store := ⟨held, fun _ _ => rfl⟩
  obtain ⟨dir, name, slot, _, same⟩ := newPlaceIff.mp named
  obtain ⟨front, names⟩ := List.getLast?_eq_some_iff.mp slot.last
  have leads := slot.leads
  rw [names, List.dropLast_concat] at leads
  unfold node? at found ⊢
  cases clean : hasNull path with
  | true => simp [clean] at found
  | false =>
    cases sought : store.find workDir path with
    | error number => simp [clean, sought] at found
    | ok spot =>
      obtain ⟨_, led⟩ := findIff.mp sought
      have closed : path.getLast? ≠ some '/' := by
        intro slash
        have ending : pathNames path = front ++ [name] ++ [selfName] := by
          rw [pathNames, ← slotNames, names]
          simp [slash]
        obtain ⟨fewer, middle, _, before, after⟩ := Leads.split (ending ▸ led)
        cases holding.leadsThere leads same slot.notSelf slot.notUp before
        exact absurd (holding.notDir.symm.trans after.pastFile) Bool.false_ne_true
      rw [pathNamesClosed closed, names] at led
      cases holding.leadsThere leads same slot.notSelf slot.notUp led
      exact ⟨rfl, closed, by simpa using held⟩

end Store

namespace Host
open Store

def Unhindered (host : Host) (target : Text) : Prop := ∀ call, host.trouble? call target = none

section
variable {host : Host} {store : Store} {target : Text} {place : Location} {mode : Nat}
  {bytes : Utf8.Bytes} (quiet : host.Unhindered target)
  (named : store.newPlace host.workDir target = .ok place)
  (held : store.get? place = some (.file mode bytes)) (found : (store.node? host.workDir target).isSome)
include quiet named held found

theorem writeUnhindered (content : Text) :
    (∃ after, host.write store target content = (.ok (), after)) ↔
      ∃ temp, host.makeTemp store target = .ok temp := by
  obtain ⟨clean, closed, stands⟩ := nodeOfPlace named held found
  rw [writeOkIff]
  constructor
  · rintro ⟨_, passes⟩
    cases made : host.makeTemp store target with
    | ok temp => exact ⟨temp, rfl⟩
    | error cause => exact absurd (.makeTemp made) (passes none cause)
  · rintro ⟨temp, made⟩
    refine ⟨fun refused => by simp [Refuses, quiet .access] at refused, fun made' cause first => ?_⟩
    obtain ⟨_, _, free⟩ := makeTempOk made
    have filling : Holding store temp.place privateMode (Utf8.encode content) (filled store temp content) :=
      (holdingPut store temp.place privateMode []).put privateMode (Utf8.encode content)
    cases first with
    | makeTemp failed => cases made.symm.trans failed
    | openTemp _ failed => cases (quiet _).symm.trans failed
    | writeTemp _ _ failed => cases (quiet _).symm.trans failed
    | copyMode made' _ _ failed =>
      cases made.symm.trans made'
      unfold copyMode at failed
      simp only [quiet .copyMode] at failed
      split at failed <;> cases failed
    | replace made' _ _ moded failed =>
      cases made.symm.trans made'
      have copied := copyModeHolds filling free moded
      have grown := copied.grown free
      have apart : place ≠ temp.place := fun same => by simp [same, free] at held
      have notDir : store.isDir place = false := by simp [Store.isDir, held]
      have moved := moveOverPlace (grown.newPlaceIff.mpr named) (grown.isDir place ▸ notDir) closed copied.file
      simp [replace, quiet _, clean, moved] at failed

end

/-- Where the temporary file of a target can stand: its path is not too long, its directory can be entered
by it, and one of the names that are tried is free there. -/
structure Room (host : Host) (store : Store) (target : Text) (dir : Location) : Prop where
  short : Utf8.size (join (host.tempDir target) []) + Utf8.size (baseName target) + 14 < pathLimit
  leads : Leads store linkLimit [] (slotNames (host.tempDir target)) dir
  isDir : store.isDir dir = true
  free : ∃ tag ∈ host.tags, store.get? (tempName target tag :: dir) = none

theorem firstFreeFound {host : Host} {store : Store} {target : Text} {tags : List Text}
    (clean : ∀ tag ∈ tags, hasNull (join (host.tempDir target) (tempName target tag)) = false)
    {dir : Location}
    (places : ∀ tag ∈ tags, store.newPlace host.workDir (join (host.tempDir target) (tempName target tag)) =
      .ok (tempName target tag :: dir))
    (free : ∃ tag ∈ tags, store.get? (tempName target tag :: dir) = none) :
    ∃ temp, host.firstFree store (tags.map fun tag => join (host.tempDir target) (tempName target tag)) =
      .ok temp := by
  induction tags with
  | nil => simp at free
  | cons tag rest ih =>
    rw [List.forall_mem_cons] at clean places
    rw [List.map_cons, firstFree]
    simp only [clean.1, Bool.false_eq_true, if_false, places.1]
    split_ifs with taken
    · refine ih clean.2 places.2 ?_
      obtain ⟨other, mem, absent⟩ := free
      rcases List.mem_cons.mp mem with rfl | mem
      · simp [absent] at taken
      · exact ⟨other, mem, absent⟩
    · exact ⟨_, rfl⟩

section
variable {host : Host} {store : Store} {target : Text} (plain : host.PlainTags)
  (eight : ∀ tag ∈ host.tags, Utf8.size tag = 8)
include plain eight

theorem tempPlaceIff {tag : Text} (mem : tag ∈ host.tags) {place : Location} :
    store.newPlace host.workDir (join (host.tempDir target) (tempName target tag)) = .ok place ↔
      Utf8.size (join (host.tempDir target) []) + Utf8.size (baseName target) + 14 < pathLimit ∧
      ∃ dir, Leads store linkLimit [] (slotNames (host.tempDir target)) dir ∧ store.isDir dir = true ∧
        Utf8.size (baseName target) + 14 ≤ nameLimit ∧ place = tempName target tag :: dir := by
  have solid : SolidName (tempName target tag) := tempNameClean (plain tag mem).1
  have given : join (host.tempDir target) (tempName target tag) ≠ [] := by
    rw [joinBare (show isAbsolute (tempName target tag) = false from rfl)]
    simp [tempName]
  rw [newPlaceJoin (tempDirRooted host target) solid]
  simp only [bindOkIff, walkIff, enterOkIff, tempNameSize (eight tag mem)]
  constructor
  · rintro ⟨_, taken, dir, leads, isDir, fits, same⟩
    have short := (acceptIff.mp taken).2
    rw [tempPathSize (eight tag mem)] at short
    exact ⟨short, dir, leads, isDir, fits, same⟩
  · rintro ⟨short, dir, leads, isDir, fits, same⟩
    rw [← tempPathSize (eight tag mem)] at short
    exact ⟨(), acceptIff.mpr ⟨given, short⟩, dir, leads, isDir, fits, same⟩

theorem makeTempIff (nullFree : host.NullFree) (clean : hasNull target = false)
    (quiet : host.Unhindered target) : (∃ temp, host.makeTemp store target = .ok temp) ↔
      Utf8.size (baseName target) + 14 ≤ nameLimit ∧ ∃ dir, Room host store target dir := by
  constructor
  · rintro ⟨temp, made⟩
    obtain ⟨listed, named, free⟩ := makeTempOk made
    rw [tempPathsEq] at listed
    obtain ⟨tag, mem, same⟩ := List.mem_map.mp listed
    rw [← same] at named
    obtain ⟨short, dir, leads, isDir, fits, place⟩ := (tempPlaceIff plain eight mem).mp named
    exact ⟨fits, dir, short, leads, isDir, tag, mem, place ▸ free⟩
  · rintro ⟨fits, dir, short, leads, isDir, free⟩
    unfold makeTemp
    simp only [quiet .makeTemp, tempPathsEq]
    exact firstFreeFound
      (fun tag mem => tempNoNull nullFree clean (tempPathsEq host target ▸ List.mem_map_of_mem mem))
      (fun tag mem => (tempPlaceIff plain eight mem).mpr ⟨short, dir, leads, isDir, fits, rfl⟩) free

end

theorem besideTarget {host : Host} {store : Store} (tree : store.Tree)
    (workDir : store.isDir host.workDir = true) {target : Text} (closed : target.getLast? ≠ some '/')
    (noUp : parentName ∉ slotNames target) {place : Location}
    (named : store.newPlace host.workDir target = .ok place) :
    Leads store linkLimit [] (slotNames (host.tempDir target)) place.tail ∧
      store.isDir place.tail = true := by
  obtain ⟨dir, name, slot, _, rfl⟩ := newPlaceIff.mp named
  have given := (acceptIff.mp slot.taken).1
  have legal : ∀ name ∈ host.workDir, SolidName name := by
    obtain ⟨mode, found⟩ := isDirIff.mp workDir
    exact fun name mem => (tree.legal _ (foundIff.mp found) name mem).toSolidName
  refine ⟨?_, slot.isDir⟩
  rw [tempDirNames legal given closed noUp]
  have leads := slot.leads
  unfold origin at leads
  split_ifs at leads ⊢
  · exact Leads.dropSelf [] leads
  · exact Leads.dropSelf [] (tree.leadsDown workDir leads)

/-- A file that stands there under the path's own last name can be replaced, no call failing of itself,
exactly if its name is not so long that the temporary file's is longer than the system allows, and there
is room for that file. Then the file holds the text in its old mode. Where the path goes up nowhere, the
temporary file is made in the file's own directory. -/
theorem replacedIff {host : Host} (nullFree : host.NullFree) (plain : host.PlainTags)
    (eight : ∀ tag ∈ host.tags, Utf8.size tag = 8) {store : Store} {target : Text}
    (quiet : host.Unhindered target) {place : Location} {mode : Nat} {bytes : Utf8.Bytes}
    (named : store.newPlace host.workDir target = .ok place)
    (held : store.get? place = some (.file mode bytes))
    (found : (store.node? host.workDir target).isSome) (content : Text) :
    ((∃ after, host.write store target content = (.ok (), after)) ↔
      Utf8.size (baseName target) + 14 ≤ nameLimit ∧ ∃ dir, Room host store target dir) ∧
    (∀ after, host.write store target content = (.ok (), after) →
      after.get? place = some (.file mode (Utf8.encode content)) ∧
        ∀ other, other ≠ place → after.get? other = store.get? other) ∧
    (store.Tree → store.isDir host.workDir = true → parentName ∉ slotNames target →
      ((∃ dir, Room host store target dir) ↔
        Utf8.size (join (host.tempDir target) []) + Utf8.size (baseName target) + 14 < pathLimit ∧
          ∃ tag ∈ host.tags, store.get? (tempName target tag :: place.tail) = none)) := by
  obtain ⟨clean, closed, stands⟩ := nodeOfPlace named held found
  refine ⟨?_, fun after written => ?_, fun tree workDir noUp => ?_⟩
  · rw [writeUnhindered quiet named held found, makeTempIff plain eight nullFree clean quiet]
  · have outcome := writeOutcome host store target content
    rw [written] at outcome
    obtain ⟨place', replaced⟩ := outcome
    cases named.symm.trans replaced.named
    have file := replaced.file
    rw [stands] at file
    exact ⟨file, replaced.others⟩
  · obtain ⟨leads, isDir⟩ := besideTarget tree workDir closed noUp named
    constructor
    · rintro ⟨dir, room⟩
      cases (walkIff.mpr room.leads).symm.trans (walkIff.mpr leads)
      exact ⟨room.short, room.free⟩
    · rintro ⟨short, free⟩
      exact ⟨place.tail, short, leads, isDir, free⟩

def taggedHost : Host := ⟨[], [], [], ["abcdefgh".toList]⟩

def guardedStore : Store :=
  (Store.empty.put [] (.dir dirMode)).put ["a.js".toList] (.file 0o640 [104])

theorem guardedFileReplaced : taggedHost.NullFree ∧ taggedHost.PlainTags ∧
    taggedHost.Unhindered "./a.js".toList ∧
    ∃ after, taggedHost.write guardedStore "./a.js".toList "new".toList = (.ok (), after) ∧
      after.get? ["a.js".toList] = some (.file 0o640 (Utf8.encode "new".toList)) := by
  have nullFree : taggedHost.NullFree := by decide
  have plain : taggedHost.PlainTags := by decide
  have quiet : taggedHost.Unhindered "./a.js".toList := fun _ => rfl
  have named : guardedStore.newPlace [] "./a.js".toList = .ok ["a.js".toList] := by decide +kernel
  have held : guardedStore.get? ["a.js".toList] = some (.file 0o640 [104]) := by decide +kernel
  obtain ⟨succeeds, holds, room⟩ := replacedIff nullFree plain (by decide +kernel) quiet named held
    (by decide +kernel) "new".toList
  have written := succeeds.mpr ⟨by decide +kernel,
    (room (by decide +kernel) (by decide +kernel) (by decide +kernel)).mpr (by decide +kernel)⟩
  obtain ⟨after, written⟩ := written
  exact ⟨nullFree, plain, quiet, after, written, (holds after written).1⟩

def longName : Name := List.replicate 250 'a'

def longNamed : Store := (Store.empty.put [] (.dir dirMode)).put [longName] (.file fileMode [104])

def crossed : Store :=
  (((((Store.empty.put [] (.dir dirMode)).put ["d".toList] (.dir dirMode)).put ["s".toList, "d".toList]
    (.dir dirMode)).put ["x".toList, "d".toList] (.dir dirMode)).put
      ["a.js".toList, "x".toList, "d".toList] (.file fileMode [104])).put ["l".toList] (.link "d/s".toList)

/- Two files that are there and cannot be replaced: the name of the one leaves no room for what the
temporary name adds, and the directory of the other is not where its path seems to lead. -/
theorem standingFilesStay : taggedHost.Unhindered longName ∧
    (longNamed.Tree ∧ longNamed.newPlace [] longName = .ok [longName] ∧
      longNamed.node? [] longName = some (.file fileMode [104]) ∧
      ∀ after, taggedHost.write longNamed longName "new".toList ≠ (.ok (), after)) ∧
    taggedHost.Unhindered "l/../x/a.js".toList ∧
      crossed.Tree ∧ crossed.newPlace [] "l/../x/a.js".toList =
        .ok ["a.js".toList, "x".toList, "d".toList] ∧
      crossed.node? [] "l/../x/a.js".toList = some (.file fileMode [104]) ∧
      ∀ after, taggedHost.write crossed "l/../x/a.js".toList "new".toList ≠ (.ok (), after) := by
  have tooLong : (taggedHost.write longNamed longName "new".toList).1.isOk = false := by decide +kernel
  have nowhere : (taggedHost.write crossed "l/../x/a.js".toList "new".toList).1.isOk = false := by
    decide +kernel
  refine ⟨fun _ => rfl, ⟨by decide +kernel, by decide +kernel, by decide +kernel, fun after written => ?_⟩,
    fun _ => rfl, by decide +kernel, by decide +kernel, by decide +kernel, fun after written => ?_⟩
  · rw [written] at tooLong
    cases tooLong
  · rw [written] at nowhere
    cases nowhere

end Host
end SourceSweep.Files
