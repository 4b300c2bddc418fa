import Mathlib.Algebra.Ring.Nat
import SourceSweep.Proofs.Files.Offered
import SourceSweep.Proofs.Files.RealPlaces

/-! What a scan finds and reports, exactly. It ends unless a path cannot be resolved; then each file and each
unlisted directory is there once, and an unlisted directory takes nothing away but what lies below it. Where all
paths are short enough to be looked at and listing is all that fails, a scan from an absolute path ends, and finds
the regular files that stand outside the engine's directory. -/
namespace SourceSweep.Files
open Text Store

theorem joinSize (path : Text) (name : Name) :
    Utf8.size (join path name) ≤ Utf8.size path + (Utf8.size name + 1) := by
  have slash : Utf8.size ['/'] = 1 := by decide
  unfold join
  split_ifs
  · omega
  · rw [sizeAppend]
    omega
  · rw [← List.singleton_append, sizeAppend, sizeAppend, slash]
    omega

theorem namesSize (names : List Name) (path : Text) : Utf8.size (names.foldl join path) ≤
    Utf8.size path + (names.map fun name => Utf8.size name + 1).sum := by
  induction names generalizing path with
  | nil => simp
  | cons name rest ih =>
    have first := joinSize path name
    have later := ih (join path name)
    simp only [List.foldl_cons, List.map_cons, List.sum_cons]
    omega

theorem joinWithSize {names : List Name} (given : names ≠ []) :
    Utf8.size (joinWith '/' names) + 1 = (names.map fun name => Utf8.size name + 1).sum := by
  have slash : Utf8.size ['/'] = 1 := by decide
  induction names with
  | nil => exact absurd rfl given
  | cons name rest ih =>
    by_cases last : rest = []
    · subst last
      simp [joinWith]
    · rw [joinWithCons name last, ← List.singleton_append, sizeAppend, sizeAppend, slash,
        List.map_cons, List.sum_cons, ← ih last]
      omega

theorem pathSize {place : Location} (below : place ≠ []) :
    Utf8.size place.path = (place.map fun name => Utf8.size name + 1).sum := by
  have slash : Utf8.size ['/'] = 1 := by decide
  have joined := joinWithSize (List.reverse_ne_nil_iff.mpr below)
  rw [List.map_reverse, List.sum_reverse] at joined
  rw [Location.path, ← List.singleton_append, sizeAppend, slash, ← joined]
  omega

/-- What a scan that ends has found: every file once, those that are offered and stand outside the engine's
directory, with one report for every directory that cannot be listed. -/
structure Exact (host : Host) (store : Store) (kinds : List Text) (start : Text) (scan : Scan) : Prop where
  once : scan.files.Nodup
  files : ∀ file, file ∈ scan.files ↔ ∃ path dir name,
    Offered host store (kinds.map lower) start path dir name ∧ file = join path name ∧
      ∃ real, host.resolve store file = .ok real ∧ ¬ host.engine <:+ Location.ofPath real
  failures : ∃ unlisted : List Text, unlisted.Nodup ∧
    (∀ path, path ∈ unlisted ↔ Reached host store start path ∧
      ∃ error, host.list store path = .error (.system error)) ∧
    scan.failures.map some = unlisted.map (host.failureAt store)
  isolated : ∀ other wider, ListsMore host other store → other.scan store kinds start = .ok wider →
    ∀ file, file ∈ scan.files ↔ file ∈ wider.files ∧ ∀ path, Reached host store start path →
      (∃ escape, host.list store path = .error escape) → ¬ join path [] <+: file

def Store.Roomy (store : Store) (start : Text) : Prop :=
  ∀ entry ∈ store.entries, Utf8.size start + Utf8.size (Location.path entry.1) < pathLimit

instance (store : Store) (start : Text) : Decidable (store.Roomy start) :=
  inferInstanceAs (Decidable (∀ entry ∈ store.entries, _))

namespace Host

theorem outsideIff {host : Host} {store : Store} {file : Text} :
    host.isEngineFile store file = .ok false ↔
      ∃ real, host.resolve store file = .ok real ∧ ¬ host.engine <:+ Location.ofPath real := by
  unfold isEngineFile
  cases host.resolve store file with
  | error escape => simp [Except.map]
  | ok real => simp [Except.map, ← List.isSuffixOf_iff_suffix]

section
variable {host : Host} {store : Store} (tree : store.Tree) {kinds : List Text} {start : Text}
include tree

theorem scannedIff {scan : Scan} (scanned : host.scan store kinds start = .ok scan) {file : Text} :
    file ∈ scan.files ↔ ∃ path dir name,
      Offered host store (kinds.map lower) start path dir name ∧ file = join path name ∧
        ∃ real, host.resolve store file = .ok real ∧ ¬ host.engine <:+ Location.ofPath real := by
  simp only [memScan tree scanned, offeredIff tree, outsideIff]
  constructor
  · rintro ⟨place, path, dir, name, visits, checked, same, outside⟩
    exact ⟨path, dir, name, ⟨⟨place, visits⟩, checked⟩, same, outside⟩
  · rintro ⟨path, dir, name, ⟨⟨place, visits⟩, checked⟩, same, outside⟩
    exact ⟨place, path, dir, name, visits, checked, same, outside⟩

theorem scannedExact {scan : Scan} (scanned : host.scan store kinds start = .ok scan) :
    Exact host store kinds start scan where
  once := scanOnce tree scanned
  files _ := scannedIff tree scanned
  failures := scanFailures tree scanned
  isolated other wider lists found file := by
    rw [scannedIff tree scanned, scannedIff tree found, lists.engine, lists.resolves]
    constructor
    · rintro ⟨path, dir, name, offered, rfl, outside⟩
      obtain ⟨offered, apart⟩ := (offeredMore lists tree).mp offered
      exact ⟨⟨path, dir, name, offered, rfl, outside⟩, apart⟩
    · rintro ⟨⟨path, dir, name, offered, rfl, outside⟩, apart⟩
      exact ⟨path, dir, name, (offeredMore lists tree).mpr ⟨offered, apart⟩, rfl, outside⟩

theorem offeredTold (system : host.OnlySystem) (clean : hasNull start = false) :
    (∃ scan, host.scan store kinds start = .ok scan) ↔ ∀ path dir name,
      Offered host store (kinds.map lower) start path dir name →
        ∃ real, host.resolve store (join path name) = .ok real := by
  simp only [scanTold tree system clean, offeredIff tree]
  constructor
  · rintro told path dir name ⟨⟨place, visits⟩, checked⟩
    exact told place path dir name visits checked
  · intro told place path dir name visits checked
    exact told path dir name ⟨⟨place, visits⟩, checked⟩

theorem visitsRooted {path inner : Text} {dir spot : Location}
    (visits : Visits host store path dir inner spot) (rooted : isAbsolute path = true) :
    isAbsolute inner = true := by
  induction visits with
  | here => exact rooted
  | into listed isDir kept next ih =>
    exact ih ((joinOnto (tree.legalDir isDir).toSolidName (listWithin listed).given).trans rooted)

theorem offeredOrdinary (listing : host.OnlyListing) (rooted : isAbsolute start = true)
    (room : store.Roomy start) {path : Text} {dir : Location} {name : Name}
    (offered : Offered host store (kinds.map lower) start path dir name) :
    (∃ mode bytes, store.get? (name :: dir) = some (.file mode bytes)) ∧
      ∃ real, host.resolve store (join path name) = .ok real ∧ Location.ofPath real = name :: dir := by
  obtain ⟨⟨place, visits⟩, checked⟩ := (offeredIff tree).mp offered
  obtain ⟨node, held⟩ := memNamesIn.mp checked.named
  have legal := legalOf tree held
  have within := listWithin offered.listed
  have fits : accept (join path name) = .ok () := by
    refine acceptIff.mpr ⟨joinGiven legal.toSolidName path, ?_⟩
    obtain ⟨names, rfl, _, rfl⟩ := visits.names tree
    have added := namesSize (names ++ [name]) start
    have space := room _ (foundIff.mp held)
    rw [pathSize (List.cons_ne_nil _ _)] at space
    simp only [List.foldl_append, List.foldl_cons, List.foldl_nil, List.map_append, List.map_cons,
      List.map_nil, List.sum_append, List.sum_cons, List.sum_nil, List.map_reverse,
      List.sum_reverse] at added space
    omega
  obtain ⟨mode, bytes, file⟩ := offered.entry.resolve_right fun hidden => hidden.2 fits
  refine ⟨⟨mode, bytes, file⟩, _, ?_, Location.ofPathPath (tree.solid (by simp [held]))⟩
  have absolute := visitsRooted tree visits rooted
  have leads := within.leads.add legal within.isDir file (by simp)
  rw [origin, if_pos absolute, ← slotNamesJoin _ legal.solid legal.given] at leads
  have short : store.Short := fun entry mem => by
    have space := room entry mem
    omega
  exact resolveLeads listing tree short ((joinOnto legal.toSolidName within.given).trans absolute)
    (joinNoNull within.clean (noNullIff.mpr legal.clean)) leads file (by simp)

/-- A scan ends exactly if the path of every file that it is offered can be resolved, and what it has found then
is exact. From an absolute path, with room for all paths and listing the only call that fails, it always ends, and
finds the regular files of a wanted kind that stand outside the engine's directory. -/
theorem scanExact (system : host.OnlySystem) (clean : hasNull start = false) (kinds : List Text) :
    ((∃ scan, host.scan store kinds start = .ok scan) ↔ ∀ path dir name,
      Offered host store (kinds.map lower) start path dir name →
        ∃ real, host.resolve store (join path name) = .ok real) ∧
    (∀ scan, host.scan store kinds start = .ok scan → Exact host store kinds start scan) ∧
    (host.OnlyListing → isAbsolute start = true → store.Roomy start →
      ∃ scan, host.scan store kinds start = .ok scan ∧ ∀ file, file ∈ scan.files ↔
        ∃ path dir name, Offered host store (kinds.map lower) start path dir name ∧
          (∃ mode bytes, store.get? (name :: dir) = some (.file mode bytes)) ∧
          ¬ host.engine <:+ name :: dir ∧ file = join path name) := by
  refine ⟨offeredTold tree system clean, fun scan scanned => scannedExact tree scanned,
    fun listing rooted room => ?_⟩
  obtain ⟨scan, scanned⟩ := (offeredTold tree system clean).mpr fun path dir name offered =>
    have ⟨_, real, resolved, _⟩ := offeredOrdinary tree listing rooted room offered
    ⟨real, resolved⟩
  refine ⟨scan, scanned, fun file => (scannedIff tree scanned).trans ?_⟩
  constructor
  · rintro ⟨path, dir, name, offered, rfl, real, resolved, outside⟩
    obtain ⟨regular, _, resolved', place⟩ := offeredOrdinary tree listing rooted room offered
    cases resolved.symm.trans resolved'
    exact ⟨path, dir, name, offered, regular, place ▸ outside, rfl⟩
  · rintro ⟨path, dir, name, offered, regular, outside, rfl⟩
    obtain ⟨_, real, resolved, place⟩ := offeredOrdinary tree listing rooted room offered
    exact ⟨path, dir, name, offered, rfl, real, resolved, place.symm ▸ outside⟩

end

def scanHost : Host := ⟨[], ["engine".toList], [⟨.list, "/s/b".toList, .errno Errno.accessDenied⟩], []⟩

def sharedStore : Store :=
  (((((Store.empty.put [] (.dir dirMode)).put ["s".toList] (.dir dirMode)).put ["a.js".toList, "s".toList]
    (.file fileMode [104])).put ["l.js".toList, "s".toList] (.link "a.js".toList)).put
      ["b".toList, "s".toList] (.dir dirMode)).put ["c.js".toList, "b".toList, "s".toList] (.file fileMode [104])

theorem sharedScanned : sharedStore.Tree ∧ scanHost.OnlySystem ∧ hasNull "/s".toList = false ∧
    ∃ scan, scanHost.scan sharedStore scriptExtensions "/s".toList = .ok scan ∧
      Exact scanHost sharedStore scriptExtensions "/s".toList scan ∧
      scan.files = ["/s/a.js".toList] ∧ scan.failures.length = 1 := by
  have tree : sharedStore.Tree := by decide +kernel
  have system : scanHost.OnlySystem := by
    intro fault mem text
    rw [List.mem_singleton.mp mem]
    exact nofun
  have clean : hasNull "/s".toList = false := by decide
  obtain ⟨_, exact, ordinary⟩ := scanExact tree system clean scriptExtensions
  obtain ⟨scan, scanned, _⟩ := ordinary (by decide) (by decide) (by decide +kernel)
  have files : (scanHost.scan sharedStore scriptExtensions "/s".toList).map Scan.files =
      .ok ["/s/a.js".toList] := by decide +kernel
  have failures : (scanHost.scan sharedStore scriptExtensions "/s".toList).map (·.failures.length) =
      .ok 1 := by decide +kernel
  rw [scanned] at files failures
  exact ⟨tree, system, clean, scan, scanned, exact scan scanned, Except.ok.inj files, Except.ok.inj failures⟩

def plainHost : Host := ⟨[], ["engine".toList], [], []⟩

def linkedRoot (target : Text) : Store :=
  (Store.empty.put [] (.dir dirMode)).put ["l.js".toList] (.link target)

def slashes (count : Nat) : Text := List.replicate (count + 1) '/'

theorem slashesEnd (count : Nat) : (slashes count).getLast? = some '/' := by
  rw [slashes, List.replicate_succ', List.getLast?_concat]

theorem slashesSize (count : Nat) : Utf8.size (slashes count) = count + 1 := by
  have slash : Utf8.size ['/'] = 1 := by decide
  rw [slashes]
  induction count with
  | zero => exact slash
  | succ count ih =>
    rw [List.replicate_succ, ← List.singleton_append, sizeAppend, ih, slash]
    omega

theorem slashesSlots (count : Nat) : slotNames (slashes count) = [] := by
  have only : ∀ c ∈ slashes count, c = '/' := fun _ mem => List.eq_of_mem_replicate mem
  exact slotNamesSlashes only []

theorem slashesClean (count : Nat) : hasNull (slashes count) = false :=
  noNullIff.mpr fun mem => absurd (List.eq_of_mem_replicate mem) (by decide)

theorem slashesListed {count : Nat} (fits : count + 1 < pathLimit) (target : Text) :
    plainHost.list (linkedRoot target) (slashes count) = .ok [] := by
  have isDir : (linkedRoot target).isDir [] = true := rfl
  have taken : accept (slashes count) = .ok () := by
    rw [acceptIff, slashesSize]
    exact ⟨nofun, fits⟩
  have names : pathNames (slashes count) = [] := by
    have slots := slashesSlots count
    unfold slotNames at slots
    simp [pathNames, slots]
  have found : (linkedRoot target).find plainHost.workDir (slashes count) = .ok [] := by
    rw [findIff, names, origin, if_pos (show isAbsolute (slashes count) = true from rfl)]
    exact ⟨taken, .here _ _⟩
  have untroubled : plainHost.trouble? .list (slashes count) = none := rfl
  simp [list, seek, untroubled, slashesClean, found, isDir, bind, Except.bind]

theorem linkedRootHolds {target : Text} {name : Name} {dir : Location} {node : Node}
    (found : (linkedRoot target).get? (name :: dir) = some node) :
    name = "l.js".toList ∧ dir = [] ∧ node = .link target := by
  have entries : (linkedRoot target).entries = [(["l.js".toList], .link target), ([], .dir dirMode)] := rfl
  have mem := foundIff.mp found
  rw [entries] at mem
  simpa [and_assoc] using mem

theorem slashesJoin (count : Nat) : join (slashes count) "l.js".toList = slashes count ++ "l.js".toList := by
  have relative : isAbsolute "l.js".toList = false := by decide
  simp only [join, relative, slashesEnd, Bool.false_eq_true, if_false, decide_true, Bool.or_true, if_true]

theorem linkedRootOffers {target start path : Text} {wanted : List Text} {dir : Location} {name : Name}
    (offered : Offered plainHost (linkedRoot target) wanted start path dir name) :
    path = start ∧ name = "l.js".toList := by
  obtain ⟨⟨_, _, visits⟩, _, _, entry⟩ := offered
  have named : name = "l.js".toList := by
    rcases entry with ⟨_, _, held⟩ | ⟨⟨_, held⟩, _⟩ <;> exact (linkedRootHolds held).1
  cases visits with
  | here => exact ⟨rfl, named⟩
  | into listed isDir kept next =>
    obtain ⟨mode, held⟩ := isDirIff.mp isDir
    cases (linkedRootHolds held).2.2

section
variable {count : Nat} (fits : count + 1 < pathLimit) (long : pathLimit ≤ count + 5) (target : Text)
include fits long

theorem hiddenOffered : Offered plainHost (linkedRoot target) (scriptExtensions.map lower) (slashes count)
    (slashes count) [] "l.js".toList := by
  have refused : accept (join (slashes count) "l.js".toList) ≠ .ok () := by
    have size : Utf8.size "l.js".toList = 4 := by decide
    rw [Ne, acceptIff, slashesJoin, sizeAppend, slashesSize, size]
    exact fun small => absurd small.2 (by omega)
  obtain ⟨dots, body, parts⟩ := nameParted "l.js".toList
  exact ⟨⟨[], [], .here _ _⟩, slashesListed fits target, ⟨dots, body, _, parts, by decide +kernel⟩,
    .inr ⟨⟨target, rfl⟩, refused⟩⟩

omit fits in
theorem hiddenResolves : plainHost.resolve (linkedRoot target) (join (slashes count) "l.js".toList) =
    plainHost.resolve (linkedRoot target) "/l.js".toList := by
  have plain : SolidName "l.js".toList := ⟨by decide, by decide, by decide, by decide⟩
  have clean := joinNoNull (slashesClean count) (show hasNull "l.js".toList = false by decide)
  have names : slotNames (join (slashes count) "l.js".toList) = ["l.js".toList] := by
    rw [slotNamesJoin _ plain.solid plain.given, slashesSlots, List.nil_append]
  have start : rootSlashes (join (slashes count) "l.js".toList) = ['/'] := by
    obtain ⟨more, rfl⟩ : ∃ more, count = more + 2 := ⟨count - 2, by simp only [pathLimit] at long; omega⟩
    rw [slashesJoin]
    rfl
  have same : tidy (join (slashes count) "l.js".toList) = tidy "/l.js".toList := by
    rw [tidy, tidyNames, names, start]
    decide
  unfold resolve
  rw [clean, same]
  rfl

end

/- A link that leads nowhere is found by a path that is too long for it to be seen, and one that leads to itself
ends the scan. -/
theorem hiddenLinkFound : plainHost.OnlySystem ∧
    ((linkedRoot "gone".toList).Tree ∧
      (linkedRoot "gone".toList).get? ["l.js".toList] = some (.link "gone".toList) ∧
      ∃ scan, plainHost.scan (linkedRoot "gone".toList) scriptExtensions (slashes 4091) = .ok scan ∧
        join (slashes 4091) "l.js".toList ∈ scan.files) ∧
    ((linkedRoot "l.js".toList).Tree ∧
      (linkedRoot "l.js".toList).get? ["l.js".toList] = some (.link "l.js".toList) ∧
      ∀ scan, plainHost.scan (linkedRoot "l.js".toList) scriptExtensions (slashes 4091) ≠ .ok scan) := by
  have system : plainHost.OnlySystem := nofun
  have fits : 4091 + 1 < pathLimit := by decide
  have long : pathLimit ≤ 4091 + 5 := by decide
  have gone : (linkedRoot "gone".toList).Tree := by decide +kernel
  have looping : (linkedRoot "l.js".toList).Tree := by decide +kernel
  refine ⟨system, ⟨gone, rfl, ?_⟩, looping, rfl, fun scan scanned => ?_⟩
  · have resolved : plainHost.resolve (linkedRoot "gone".toList) "/l.js".toList = .ok "/gone".toList := by
      decide +kernel
    rw [← hiddenResolves long] at resolved
    obtain ⟨scan, scanned⟩ := (offeredTold gone system (slashesClean 4091)).mpr fun path dir name offered => by
      obtain ⟨rfl, rfl⟩ := linkedRootOffers offered
      exact ⟨_, resolved⟩
    exact ⟨scan, scanned, (scannedIff gone scanned).mpr
      ⟨_, _, _, hiddenOffered fits long _, rfl, _, resolved, by decide⟩⟩
  · have unresolved : (plainHost.resolve (linkedRoot "l.js".toList) "/l.js".toList).isOk = false := by
      decide +kernel
    obtain ⟨real, resolved⟩ := (offeredTold looping system (slashesClean 4091)).mp ⟨scan, scanned⟩ _ _ _
      (hiddenOffered fits long "l.js".toList)
    rw [hiddenResolves long] at resolved
    rw [resolved] at unresolved
    cases unresolved

end Host
end SourceSweep.Files
