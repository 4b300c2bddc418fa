import SourceSweep.Files.Content
import SourceSweep.Proofs.Files.Folder
import SourceSweep.Proofs.Files.Replacement
import SourceSweep.Proofs.Text.Utf8

/-! Files that stand in a known folder. What reading and writing such a file comes to depends on the
file, on the calls that fail for its path, and on which temporary names are free beside it. -/
namespace SourceSweep.Files
open Text

theorem joinApart {folder : Text} (given : folder ≠ []) (closed : folder.getLast? ≠ some '/')
    {name : Name} (solid : SolidName name) :
    baseName (join folder name) = name ∧ dirName (join folder name) = folder := by
  have joined : join folder name = folder ++ '/' :: name := by
    obtain ⟨c, rest, rfl⟩ := List.exists_cons_of_ne_nil solid.given
    have other : c ≠ '/' := (List.ne_of_not_mem_cons solid.solid).symm
    simp [join, isAbsolute, other, given, closed]
  have solidReverse : ∀ c ∈ name.reverse, notSlash c = true := by
    intro c mem
    have other : c ≠ '/' := fun same => solid.solid (same ▸ List.mem_reverse.mp mem)
    simpa [notSlash] using other
  have reversed : (join folder name).reverse = name.reverse ++ '/' :: folder.reverse := by
    simp [joined]
  obtain ⟨c, rest, split⟩ := List.exists_cons_of_ne_nil (List.reverse_ne_nil_iff.mpr given)
  have other : c ≠ '/' := by
    intro same
    subst same
    exact closed (by rw [List.getLast?_eq_head?_reverse, split]; rfl)
  constructor
  · rw [baseName, reversed, List.takeWhile_append_of_pos solidReverse,
      List.takeWhile_cons_of_neg (by decide), List.append_nil, List.reverse_reverse]
  · have head : (join folder name).reverse.dropWhile notSlash = '/' :: folder.reverse := by
      rw [reversed, List.dropWhile_append_of_pos solidReverse, List.dropWhile_cons_of_neg (by decide)]
    have trimmed : ('/' :: folder.reverse).dropWhile (!notSlash ·) = folder.reverse := by
      rw [List.dropWhile_cons_of_pos (by decide), split, List.dropWhile_cons_of_neg (by simp [notSlash, other])]
    simp [dirName, head, trimmed, given]

namespace Store

theorem newPlaceJoin {store : Store} {other : Text} (rooted : isAbsolute other = true) {name : Name}
    (solid : SolidName name) (workDir : Location) : store.newPlace workDir (join other name) =
      accept (join other name) >>= fun _ => store.walk linkLimit [] (slotNames other) >>= fun dir =>
        store.enter dir name := by
  have given : other ≠ [] := by
    intro same
    subst same
    cases rooted
  have absolute := (joinOnto solid given).trans rooted
  have names := slotNamesJoin other solid.solid solid.given
  unfold newPlace findSlot
  rw [← slotNames, names]
  cases accept (join other name) with
  | error number => rfl
  | ok =>
    simp only [bind, Except.bind, origin, absolute, if_true, List.dropLast_concat, List.getLast?_concat]
    cases store.walk linkLimit [] (slotNames other) with
    | error number => rfl
    | ok dir => cases inside : store.isDir dir <;> simp [inside, enter, solid.notSelf, solid.notUp]

section
variable {store : Store} {path : Text} {dir : Location} (folder : Folder store path dir)
include folder

theorem Folder.newPlace {other : Text} (rooted : isAbsolute other = true)
    (same : slotNames other = slotNames path) {name : Name} (solid : SolidName name)
    (workDir : Location) : store.newPlace workDir (Files.join other name) =
      accept (Files.join other name) >>= fun _ => store.enter dir name := by
  rw [newPlaceJoin rooted solid, walkIff.mpr (same ▸ folder.leads)]
  rfl

end

end Store

/-- A file as it is looked for: a folder, the place of the folder's directory, and a name. -/
structure Site where
  folder : Text
  dir : Location
  name : Name
  deriving DecidableEq

abbrev Site.path (site : Site) : Text := join site.folder site.name

abbrev Site.place (site : Site) : Location := site.name :: site.dir

namespace Store

/-- What a site stands for. A path that is too long for the system is not looked at. -/
structure Standing (store : Store) (site : Site) : Prop where
  folder : Folder store site.folder site.dir
  legal : LegalName site.name
  present : store.get? site.place ≠ none
  file : accept site.path = .ok () → ∃ mode bytes, store.get? site.place = some (.file mode bytes)

section
variable {store : Store} {site : Site} (standing : Standing store site)
include standing

theorem Standing.grown {later : Store} (grown : store.Grown later) : Standing later site := by
  obtain ⟨folder, legal, present, file⟩ := standing
  have aged := grown site.place
  refine ⟨folder.grown grown, legal, grown.stillThere present, fun taken => ?_⟩
  obtain ⟨mode, bytes, found⟩ := file taken
  rw [found] at aged
  generalize later.get? site.place = node at aged ⊢
  cases aged with
  | same => exact ⟨mode, bytes, rfl⟩
  | rewritten mode old bytes => exact ⟨mode, bytes, rfl⟩

theorem Standing.trunk : Trunk site.path :=
  standing.folder.toTrunk.join standing.legal

theorem Standing.find (workDir : Location) : store.find workDir site.path =
    (accept site.path).map fun _ => site.place := by
  cases taken : accept site.path with
  | error number => simp [Store.find, taken, bind, Except.bind, Except.map]
  | ok =>
    obtain ⟨folder, legal, _, file⟩ := standing
    obtain ⟨mode, bytes, found⟩ := file taken
    have leads := folder.leads.add legal folder.isDir found (by simp)
    rw [← slotNamesJoin _ legal.solid legal.given] at leads
    refine findIff.mpr ⟨taken, ?_⟩
    rwa [pathNamesClosed (joinClosed legal.toSolidName site.folder), origin,
      if_pos (folder.toTrunk.join legal).rooted]

theorem Standing.newPlace (workDir : Location) : store.newPlace workDir site.path =
    (accept site.path).map fun _ => site.place := by
  have entered : store.enter site.dir site.name = .ok site.place :=
    enterOkIff.mpr ⟨standing.folder.isDir, standing.legal.short, rfl⟩
  rw [standing.folder.newPlace standing.folder.rooted rfl standing.legal.toSolidName, entered]
  cases accept site.path <;> rfl

theorem Standing.node (workDir : Location) (taken : accept site.path = .ok ()) :
    store.node? workDir site.path = store.get? site.place := by
  simp [node?, standing.trunk.clean, standing.find, taken, Except.map]

theorem Standing.moveOver (taken : accept site.path = .ok ()) {temp : Location}
    {node : Node} (held : store.get? temp = some node) (workDir : Location) :
    store.moveOver workDir temp site.path =
      .ok ((store.erase temp).put site.place node) := by
  have named : store.newPlace workDir site.path = .ok site.place := by
    rw [standing.newPlace, taken]
    rfl
  have closed := joinClosed standing.legal.toSolidName site.folder
  obtain ⟨mode, bytes, found⟩ := standing.file taken
  exact moveOverPlace named (by simp [Store.isDir, found]) closed held

end
end Store

namespace Host
open Store

theorem seekFound {host : Host} {store : Store} {call : Call} {path : Text} {place : Location}
    (sought : host.seek store call path = .ok place) : store.find host.workDir path = .ok place := by
  unfold seek at sought
  split at sought
  · cases sought
  · split at sought
    · cases sought
    · split at sought
      · rename_i found
        cases sought
        exact found
      · cases sought

theorem seekClean {host : Host} {store : Store} {call : Call} {path : Text} {place : Location}
    (sought : host.seek store call path = .ok place) : hasNull path = false := by
  unfold seek at sought
  split at sought
  · cases sought
  · split at sought
    · cases sought
    · rename_i clean
      simpa using clean

theorem firstFreeSame {host : Host} {store later : Store} {paths : List Text}
    (places : ∀ path ∈ paths, later.newPlace host.workDir path = store.newPlace host.workDir path)
    (taken : ∀ path ∈ paths, ∀ place, store.newPlace host.workDir path = .ok place →
      (later.get? place).isSome = (store.get? place).isSome) :
    host.firstFree later paths = host.firstFree store paths := by
  induction paths with
  | nil => rfl
  | cons path rest ih =>
    have rest := ih (fun other mem => places other (List.mem_cons_of_mem path mem))
      (fun other mem => taken other (List.mem_cons_of_mem path mem))
    rw [firstFree, firstFree, places path List.mem_cons_self, rest]
    cases named : store.newPlace host.workDir path with
    | error number => rfl
    | ok place => simp only [taken path List.mem_cons_self place named]

theorem dotUnique {first second tag other : Text} (free : '.' ∉ tag) (otherFree : '.' ∉ other)
    (same : first ++ '.' :: tag = second ++ '.' :: other) : first = second := by
  rcases List.append_eq_append_iff.mp same with ⟨between, rfl, split⟩ | ⟨between, rfl, split⟩
  · cases between with
    | nil => exact (List.append_nil first).symm
    | cons c between =>
      cases split
      exact absurd (List.mem_append_right between List.mem_cons_self) free
  · cases between with
    | nil => exact List.append_nil second
    | cons c between =>
      cases split
      exact absurd (List.mem_append_right between List.mem_cons_self) otherFree

theorem tempNameBase {target other tag tag' : Text} (free : '.' ∉ tag) (otherFree : '.' ∉ tag')
    (same : tempName target tag = tempName other tag') : baseName target = baseName other := by
  simp only [tempName, List.cons_append, List.cons.injEq, true_and] at same
  exact dotUnique free otherFree (List.append_cancel_right (by simpa using same))

theorem tempNameClean {target tag : Text} (solid : '/' ∉ tag) : SolidName (tempName target tag) := by
  refine ⟨List.cons_ne_nil _ _, tempNameSolid solid, fun same => ?_, fun same => ?_⟩
  · have lengths := congrArg List.length same
    simp [tempName, selfName] at lengths
  · have lengths := congrArg List.length same
    simp [tempName, parentName] at lengths
    omega

def installing (host : Host) (temp : Temp) (target : Text) : Except Escape Unit :=
  match host.trouble? .openTemp target with
  | some trouble => .error (trouble.escape [temp.path])
  | none =>
    match host.trouble? .writeTemp target with
    | some trouble => .error (trouble.escape [])
    | none =>
      match host.trouble? .copyMode target with
      | some trouble => .error (trouble.escape [target])
      | none =>
        match host.trouble? .replace target with
        | some trouble => .error (trouble.escape [temp.path, target])
        | none => .ok ()

def writing (host : Host) (made : Except Escape Temp) (target : Text) : Except Failure Unit :=
  if (host.trouble? .access target).isSome then .error (.problem (.writeDenied target))
  else match made with
    | .error escape => .error (writeFailure target escape)
    | .ok temp =>
      match host.installing temp target with
      | .ok () => .ok ()
      | .error escape =>
        match host.trouble? .removeTemp target with
        | some trouble => .error (.escape (trouble.escape [temp.path]))
        | none => .error (writeFailure target escape)

section
variable {host : Host} {store : Store} {site : Site} (standing : Standing store site)
include standing

theorem tempPathsOf : host.tempPaths site.path = host.tags.map fun tag =>
    Files.join (normal site.folder) (tempName site.path tag) := by
  have folder := standing.folder
  obtain ⟨_, ofDir⟩ := joinApart folder.given folder.closed standing.legal.toSolidName
  have beside : tempDir host site.path = normal site.folder := by
    have inPlace : join host.workDir.path site.folder = site.folder := by
      simp [join, folder.rooted]
    simp only [tempDir, ofDir, List.isEmpty_iff, folder.given, if_false, absolute, inPlace]
  rw [tempPathsEq, beside]

theorem tempPlace {tag : Text} (solid : '/' ∉ tag) (workDir : Location) :
    store.newPlace workDir (Files.join (normal site.folder) (tempName site.path tag)) =
      accept (Files.join (normal site.folder) (tempName site.path tag)) >>= fun _ =>
        store.enter site.dir (tempName site.path tag) := by
  have folder := standing.folder
  exact folder.newPlace (normalNames folder.rooted).1 (normalSame folder.rooted folder.plain)
    (tempNameClean solid) workDir

theorem makeTempSame {later : Store} (grown : store.Grown later) (plain : host.PlainTags)
    (free : ∀ tag ∈ host.tags, store.get? (tempName site.path tag :: site.dir) = none →
      later.get? (tempName site.path tag :: site.dir) = none) :
    host.makeTemp later site.path = host.makeTemp store site.path := by
  unfold makeTemp
  rw [firstFreeSame]
  · intro temp listed
    rw [tempPathsOf standing] at listed
    obtain ⟨tag, mem, rfl⟩ := List.mem_map.mp listed
    have solid := (plain tag mem).1
    rw [tempPlace standing solid, tempPlace (standing.grown grown) solid]
    simp only [grown.enter]
  · intro temp listed place named
    rw [tempPathsOf standing] at listed
    obtain ⟨tag, mem, rfl⟩ := List.mem_map.mp listed
    rw [tempPlace standing (plain tag mem).1] at named
    obtain ⟨_, _, entered⟩ := bindOkIff.mp named
    obtain ⟨_, _, rfl⟩ := enterOkIff.mp entered
    have aged := grown (tempName site.path tag :: site.dir)
    cases found : store.get? (tempName site.path tag :: site.dir) with
    | none => rw [free tag mem found]
    | some node =>
      rw [found] at aged
      generalize later.get? _ = other at aged ⊢
      cases aged <;> rfl

theorem standsBeside {held : Store} {place : Location} {mode : Nat} {bytes : Utf8.Bytes}
    (free : store.get? place = none) (holding : Holding store place mode bytes held)
    (taken : accept site.path = .ok ()) (workDir : Location) :
    held.node? workDir site.path = store.get? site.place := by
  have apart : site.place ≠ place := fun same => standing.present (same ▸ free)
  rw [(standing.grown (holding.grown free)).node workDir taken, holding.others _ apart]

theorem installStanding {later : Store} {temp : Temp} (free : store.get? temp.place = none)
    (before : Holding store temp.place privateMode [] later)
    (taken : accept site.path = .ok ()) (content : Text) :
    (host.install later temp site.path content).1 =
      host.installing temp site.path := by
  have clean := standing.trunk.clean
  obtain ⟨mode, bytes, found⟩ := standing.file taken
  unfold install installing fill
  cases host.trouble? .openTemp site.path with
  | some trouble => rfl
  | none =>
    cases host.trouble? .writeTemp site.path with
    | some trouble => rfl
    | none =>
      have filled := before.put privateMode (Utf8.encode content)
      have led := (standsBeside standing free filled taken host.workDir).trans found
      simp only [copyMode, led, filled.file]
      cases host.trouble? .copyMode site.path with
      | some trouble => rfl
      | none =>
        have copied := filled.put mode (Utf8.encode content)
        have moved := (standing.grown (copied.grown free)).moveOver taken copied.file host.workDir
        simp only [replace, clean, Node.mode, moved]
        cases host.trouble? .replace site.path <;> rfl

theorem writeStanding (taken : accept site.path = .ok ()) (content : Text) :
    (host.write store site.path content).1 =
      host.writing (host.makeTemp store site.path) site.path := by
  obtain ⟨mode, bytes, found⟩ := standing.file taken
  rw [write, standing.node _ taken, found]
  unfold writing
  simp only [Option.isSome_some, Bool.true_and]
  split_ifs with refused
  · rfl
  · cases made : host.makeTemp store site.path with
    | error escape => rfl
    | ok temp =>
      obtain ⟨_, _, free⟩ := makeTempOk made
      have installed : (host.install (store.put temp.place (.file privateMode [])) temp site.path
          content).1 = host.installing temp site.path :=
        installStanding standing free (holdingPut store temp.place privateMode []) taken content
      generalize step : host.install (store.put temp.place (.file privateMode [])) temp
        site.path content = outcome at installed
      obtain ⟨result, later⟩ := outcome
      simp only at installed
      simp only [step, ← installed]
      cases result with
      | ok => rfl
      | error escape =>
        cases removal : host.trouble? .removeTemp site.path <;> simp only [discard, removal]

theorem seekStanding (call : Call) : host.seek store call site.path =
    match host.trouble? call site.path with
    | some trouble => .error (trouble.escape [site.path])
    | none =>
      match accept site.path with
      | .ok () => .ok site.place
      | .error number => .error (.system (.ofErrno number [site.path])) := by
  unfold seek
  rw [standing.find, standing.trunk.clean]
  cases accept site.path <;> rfl

theorem readStanding {later : Store} (after : Standing later site)
    (same : later.get? site.place = store.get? site.place) :
    host.read later site.path = host.read store site.path := by
  have opened : host.open? later site.path = host.open? store site.path := by
    rw [open?, open?, seekStanding standing, seekStanding after]
    cases host.trouble? .openRead site.path with
    | some trouble => rfl
    | none =>
      cases accept site.path with
      | error number => rfl
      | ok => simp only [bind, Except.bind, same]
  rw [read, read, opened]

theorem readTaken {text : Text} (found : host.read store site.path = .ok text) :
    accept site.path = .ok () := by
  cases taken : accept site.path with
  | ok => rfl
  | error number =>
    have refused : ∃ escape, host.open? store site.path = .error escape := by
      rw [open?, seekStanding standing, taken]
      cases host.trouble? .openRead site.path <;> exact ⟨_, rfl⟩
    obtain ⟨escape, refused⟩ := refused
    simp [read, refused] at found

theorem readHeld {text : Text} (found : host.read store site.path = .ok text) :
    ∃ mode bytes, store.get? site.place = some (.file mode bytes) ∧ Utf8.decode bytes = .ok text := by
  have taken := readTaken standing found
  obtain ⟨mode, bytes, held⟩ := standing.file taken
  refine ⟨mode, bytes, held, ?_⟩
  unfold read open? at found
  rw [seekStanding standing, taken] at found
  cases trouble : host.trouble? .openRead site.path with
  | some trouble => simp [trouble, bind, Except.bind] at found
  | none =>
    simp only [trouble, bind, Except.bind, held] at found
    split at found
    · rename_i text' decoded
      cases found
      exact decoded
    · cases found

theorem readWritten {later : Store} (after : Standing later site) {text new : Text}
    (found : host.read store site.path = .ok text) {mode : Nat}
    (held : later.get? site.place = some (.file mode (Utf8.encode new))) :
    host.read later site.path = .ok new := by
  have taken := readTaken standing found
  have trouble : host.trouble? .openRead site.path = none := by
    cases trouble : host.trouble? .openRead site.path with
    | none => rfl
    | some trouble' =>
      have refused : host.open? store site.path = .error (trouble'.escape [site.path]) := by
        rw [open?, seekStanding standing, trouble]
        rfl
      simp [read, refused] at found
  have opened : host.open? later site.path = .ok (Utf8.encode new) := by
    rw [open?, seekStanding after, trouble, taken]
    simp [bind, Except.bind, held]
  simp [read, opened, Utf8.decodeEncode]

end

theorem readsSame {host : Host} {store later : Store} {sites : List Site}
    (standing : ∀ site ∈ sites, Standing store site) (grown : store.Grown later)
    (same : ∀ site ∈ sites, later.get? site.place = store.get? site.place) :
    ∀ path ∈ sites.map Site.path, host.read later path = host.read store path :=
  List.forall_mem_map.mpr fun site mem =>
    readStanding (standing site mem) ((standing site mem).grown grown) (same site mem)

end Host
end SourceSweep.Files
