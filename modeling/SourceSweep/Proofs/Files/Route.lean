import SourceSweep.Proofs.Files.Scanned

/-! The directories that a scan comes to, in the order in which it does. What it finds, what it reports and
whether it ends are put together from these, one directory at a time. -/
namespace SourceSweep.Files
open Text Store

namespace Host

def route (host : Host) (store : Store) : (depth : Nat) → Text → List Text
  | 0, _ => []
  | depth + 1, path => path ::
    match host.list store path with
    | .ok dir => (below host store path dir).flatMap (route host store depth)
    | .error _ => []

def takes (host : Host) (store : Store) (file : Text) : Bool :=
  !host.isLink store file &&
    match host.isEngineFile store file with
    | .ok own => !own
    | .error _ => false

def filesAt (host : Host) (store : Store) (wanted : List Text) (path : Text) : List Text :=
  match host.list store path with
  | .ok dir => (asked host store wanted path dir).filter (host.takes store)
  | .error _ => []

def failureAt (host : Host) (store : Store) (path : Text) : Option ListingFailure :=
  match host.list store path with
  | .ok _ => none
  | .error (.system error) => some (.ofError error)
  | .error _ => none

structure Passes (host : Host) (store : Store) (wanted : List Text) (path : Text) : Prop where
  reported : ∀ escape, host.list store path = .error escape → ∃ error, escape = .system error
  resolved : ∀ dir, host.list store path = .ok dir → ∀ file ∈ asked host store wanted path dir,
    host.isLink store file = false → ∃ real, host.resolve store file = .ok real

theorem engineTold {host : Host} {store : Store} {path : Text} :
    (∃ own, host.isEngineFile store path = .ok own) ↔ ∃ real, host.resolve store path = .ok real := by
  unfold isEngineFile
  cases host.resolve store path <;> simp [Except.map]

theorem takesIff {host : Host} {store : Store} {file : Text} : host.takes store file = true ↔
    host.isLink store file = false ∧ host.isEngineFile store file = .ok false := by
  unfold takes
  rcases host.isEngineFile store file with _ | _ | _ <;> simp

theorem ownFilesCons (host : Host) (store : Store) (path : Text) (rest : List Text) :
    host.ownFiles store (path :: rest) =
      (if host.isLink store path then .ok true else host.isEngineFile store path) >>= fun skipped =>
        host.ownFiles store rest >>= fun files => .ok (if skipped then files else path :: files) := by
  rw [ownFiles]
  split <;> rfl

theorem ownFilesTaken {host : Host} {store : Store} {paths files : List Text}
    (own : host.ownFiles store paths = .ok files) : files = paths.filter (host.takes store) := by
  induction paths generalizing files with
  | nil =>
    cases own
    rfl
  | cons path rest ih =>
    rw [ownFilesCons] at own
    obtain ⟨skipped, told, own⟩ := bindOkIff.mp own
    obtain ⟨later, found, own⟩ := bindOkIff.mp own
    cases own
    cases ih found
    cases link : host.isLink store path with
    | true =>
      simp only [link, if_true, Except.ok.injEq] at told
      simp [takes, link, ← told]
    | false =>
      simp only [link, Bool.false_eq_true, if_false] at told
      cases skipped <;> simp [takes, link, told]

theorem ownFilesTold {host : Host} {store : Store} {paths : List Text} :
    (∃ files, host.ownFiles store paths = .ok files) ↔
      ∀ path ∈ paths, host.isLink store path = false → ∃ real, host.resolve store path = .ok real := by
  induction paths with
  | nil => simp [ownFiles]
  | cons path rest ih =>
    rw [List.forall_mem_cons, ← ih, ← engineTold]
    simp only [ownFilesCons, bindOkIff]
    cases host.isLink store path with
    | true =>
      constructor
      · rintro ⟨_, _, _, later, found, _⟩
        exact ⟨(nomatch ·), later, found⟩
      · rintro ⟨_, later, found⟩
        exact ⟨_, true, rfl, later, found, rfl⟩
    | false =>
      constructor
      · rintro ⟨_, own, told, later, found, _⟩
        exact ⟨fun _ => ⟨own, told⟩, later, found⟩
      · rintro ⟨told, later, found⟩
        obtain ⟨own, told⟩ := told rfl
        exact ⟨_, own, told, later, found, rfl⟩

theorem gatherTold {scanOne : Text → Except Escape Scan} {paths : List Text} :
    (∃ scan, Scan.gather scanOne paths = .ok scan) ↔ ∀ path ∈ paths, ∃ scan, scanOne path = .ok scan := by
  induction paths with
  | nil => simp [Scan.gather]
  | cons path rest ih =>
    rw [List.forall_mem_cons, ← ih, Scan.gather]
    simp only [bindOkIff]
    constructor
    · rintro ⟨_, first, one, later, two, _⟩
      exact ⟨⟨first, one⟩, later, two⟩
    · rintro ⟨⟨first, one⟩, later, two⟩
      exact ⟨_, first, one, later, two, rfl⟩

theorem gatherParts {scanOne : Text → Except Escape Scan} {files : Text → List Text}
    {failures : Text → List ListingFailure}
    (each : ∀ path scan, scanOne path = .ok scan → scan = ⟨files path, failures path⟩) {paths : List Text}
    {scan : Scan} (gathered : Scan.gather scanOne paths = .ok scan) :
    scan = ⟨paths.flatMap files, paths.flatMap failures⟩ := by
  induction paths generalizing scan with
  | nil =>
    cases gathered
    rfl
  | cons path rest ih =>
    obtain ⟨first, one, gathered⟩ := bindOkIff.mp gathered
    obtain ⟨later, two, gathered⟩ := bindOkIff.mp gathered
    cases gathered
    rw [each path first one, ih two]
    rfl

section
variable {host : Host} {store : Store} {wanted : List Text}

theorem scanRoute {depth : Nat} {path : Text} {scan : Scan}
    (scanned : host.scanBelow store wanted depth path = .ok scan) :
    scan = ⟨(host.route store depth path).flatMap (host.filesAt store wanted),
      (host.route store depth path).filterMap (host.failureAt store)⟩ := by
  induction depth generalizing path scan with
  | zero =>
    cases scanned
    rfl
  | succ depth ih =>
    cases listed : host.list store path with
    | error escape =>
      have files : host.filesAt store wanted path = [] := by rw [filesAt, listed]
      unfold scanBelow at scanned
      rw [listed] at scanned
      cases escape <;> cases scanned
      rename_i error
      have failed : host.failureAt store path = some (.ofError error) := by rw [failureAt, listed]
      simp [route, listed, files, failed]
    | ok dir =>
      have passed : host.failureAt store path = none := by rw [failureAt, listed]
      have own : host.filesAt store wanted path =
          (asked host store wanted path dir).filter (host.takes store) := by rw [filesAt, listed]
      rw [scanStep listed] at scanned
      obtain ⟨files, found, scanned⟩ := bindOkIff.mp scanned
      obtain ⟨inner, gathered, scanned⟩ := bindOkIff.mp scanned
      cases scanned
      rw [gatherParts (fun _ _ => ih) gathered, ownFilesTaken found, ← own]
      simp [route, listed, passed, Scan.append, List.flatMap_assoc, List.filterMap_flatMap]

theorem passesUnlisted {path : Text} {escape : Escape} (listed : host.list store path = .error escape) :
    Passes host store wanted path ↔ ∃ error, escape = .system error := by
  refine ⟨fun passes => passes.reported escape listed, fun reported => ⟨fun other fails => ?_, ?_⟩⟩
  · cases listed.symm.trans fails
    exact reported
  · intro dir found
    cases listed.symm.trans found

theorem passesListed {path : Text} {dir : Location} (listed : host.list store path = .ok dir) :
    Passes host store wanted path ↔ ∀ file ∈ asked host store wanted path dir,
      host.isLink store file = false → ∃ real, host.resolve store file = .ok real := by
  refine ⟨fun passes => passes.resolved dir listed, fun resolved => ⟨?_, fun other found => ?_⟩⟩
  · intro escape fails
    cases listed.symm.trans fails
  · cases listed.symm.trans found
    exact resolved

theorem scanEndsIff {depth : Nat} {path : Text} :
    (∃ scan, host.scanBelow store wanted depth path = .ok scan) ↔
      ∀ inner ∈ host.route store depth path, Passes host store wanted inner := by
  induction depth generalizing path with
  | zero => simp [scanBelow, route]
  | succ depth ih =>
    cases listed : host.list store path with
    | error escape =>
      simp only [route, listed, List.mem_singleton, forall_eq, passesUnlisted listed]
      unfold scanBelow
      rw [listed]
      cases escape <;> simp
    | ok dir =>
      rw [scanStep listed]
      simp only [route, listed, List.forall_mem_cons, passesListed listed, ← ownFilesTold, List.mem_flatMap,
        bindOkIff]
      constructor
      · rintro ⟨_, files, own, rest, gathered, _⟩
        refine ⟨⟨files, own⟩, ?_⟩
        rintro inner ⟨next, among, further⟩
        exact ih.mp (gatherTold.mp ⟨rest, gathered⟩ next among) inner further
      · rintro ⟨⟨files, own⟩, deeper⟩
        obtain ⟨rest, gathered⟩ := gatherTold.mpr fun next among =>
          ih.mpr fun inner further => deeper inner ⟨next, among, further⟩
        exact ⟨_, files, own, rest, gathered, rfl⟩

end
end Host
end SourceSweep.Files
