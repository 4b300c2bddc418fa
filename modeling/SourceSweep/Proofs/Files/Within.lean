import SourceSweep.Files.Scan
import SourceSweep.Proofs.Files.Standing

/-! Directories by any path that leads to them, dots and slashes at its end included, and their entries by the
path with the entry's name added. -/
namespace SourceSweep.Files
open Text

namespace Store

structure Within (store : Store) (workDir : Location) (path : Text) (dir : Location) : Prop where
  given : path ≠ []
  clean : hasNull path = false
  leads : Leads store linkLimit (origin workDir path) (slotNames path) dir
  isDir : store.isDir dir = true

theorem Folder.within {store : Store} {path : Text} {dir : Location} (folder : Folder store path dir)
    (workDir : Location) : Within store workDir path dir :=
  ⟨folder.given, folder.clean, by rw [origin, if_pos folder.rooted]; exact folder.leads, folder.isDir⟩

theorem withinFound {store : Store} {workDir dir : Location} {path : Text} (clean : hasNull path = false)
    (found : store.find workDir path = .ok dir) (isDir : store.isDir dir = true) :
    Within store workDir path dir := by
  obtain ⟨taken, leads⟩ := findIff.mp found
  refine ⟨?_, clean, ?_, isDir⟩
  · rintro rfl
    cases taken
  -- A slash at the end asks for a directory, which makes no difference to the place.
  · simp only [pathNames] at leads
    split at leads
    · simpa using leads.dropSelf (slotNames path)
    · exact leads

section
variable {store : Store} {workDir : Location} {path : Text} {dir : Location}
  (within : Within store workDir path dir)
include within

theorem Within.same {other : Location} (again : Within store workDir path other) : dir = other :=
  within.leads.same again.leads

section
variable {name : Name} (legal : LegalName name)
include legal

theorem Within.origin : origin workDir (Files.join path name) = origin workDir path := by
  rw [Store.origin, Store.origin, joinOnto legal.toSolidName within.given]

theorem Within.inner (isDir : store.isDir (name :: dir) = true) :
    Within store workDir (Files.join path name) (name :: dir) := by
  obtain ⟨mode, found⟩ := isDirIff.mp isDir
  refine ⟨joinGiven legal.toSolidName path, joinNoNull within.clean (noNullIff.mpr legal.clean), ?_, isDir⟩
  rw [within.origin legal, slotNamesJoin _ legal.solid legal.given]
  exact within.leads.add legal within.isDir found (by simp)

theorem Within.findSlot : store.findSlot workDir (Files.join path name) =
    (accept (Files.join path name)).map fun _ => (dir, some name) := by
  have names := slotNamesJoin path legal.solid legal.given
  have walked := walkIff.mpr within.leads
  have start := within.origin legal
  simp only [slotNames] at names walked
  unfold Store.findSlot
  cases accept (Files.join path name) with
  | error number => rfl
  | ok =>
    simp [bind, Except.bind, Except.map, names, start, walked, within.isDir, legal.notSelf, legal.notUp]

theorem Within.linkTarget : store.linkTarget? workDir (Files.join path name) =
    match accept (Files.join path name), store.get? (name :: dir) with
    | .ok (), some (.link target) => some target
    | _, _ => none := by
  have entered : store.enter dir name = .ok (name :: dir) :=
    enterOkIff.mpr ⟨within.isDir, legal.short, rfl⟩
  have closed := joinClosed legal.toSolidName path
  unfold linkTarget? findEntry
  rw [within.findSlot legal]
  cases accept (Files.join path name) with
  | error number => rfl
  | ok =>
    cases found : store.get? (name :: dir) with
    | none => simp [bind, Except.bind, Except.map, closed, entered, found]
    | some node => cases node <;> simp [bind, Except.bind, Except.map, closed, entered, found]

end
end
end Store

namespace Host
open Store

theorem legalOf {store : Store} (tree : store.Tree) {dir : Location} {name : Name} {node : Node}
    (found : store.get? (name :: dir) = some node) : LegalName name :=
  tree.legal _ (foundIff.mp found) name List.mem_cons_self

theorem listWithin {host : Host} {store : Store} {path : Text} {dir : Location}
    (listed : host.list store path = .ok dir) : Within store host.workDir path dir := by
  unfold list at listed
  obtain ⟨found, sought, listed⟩ := bindOkIff.mp listed
  split at listed
  · rename_i isDir
    cases listed
    exact withinFound (seekClean sought) (seekFound sought) isDir
  · cases listed

theorem listInner {host : Host} {store : Store} (tree : store.Tree) {path : Text} {dir : Location}
    (listed : host.list store path = .ok dir) {name : Name} (isDir : store.isDir (name :: dir) = true) :
    Within store host.workDir (join path name) (name :: dir) :=
  (listWithin listed).inner (tree.legalDir isDir) isDir

section
variable {host : Host} {store : Store} {path : Text} {dir : Location}
  (within : Within store host.workDir path dir)
include within

theorem listSame {place : Location} (listed : host.list store path = .ok place) : place = dir :=
  (listWithin listed).same within

theorem isLinkIff {name : Name} (legal : LegalName name) :
    host.isLink store (join path name) = true ↔ accept (join path name) = .ok () ∧
      ∃ target, store.get? (name :: dir) = some (.link target) := by
  rw [isLink, within.linkTarget legal]
  cases accept (join path name) with
  | error number => simp
  | ok => rcases store.get? (name :: dir) with _ | ⟨_ | _ | _⟩ <;> simp

theorem entersIff {name : Name} (legal : LegalName name) :
    host.leadsToDir store path dir name = true ∧ host.isLink store (join path name) = false ↔
      store.isDir (name :: dir) = true := by
  rw [← Bool.not_eq_true, isLinkIff within legal]
  unfold leadsToDir Store.isDir
  rcases store.get? (name :: dir) with _ | ⟨_ | _ | target⟩
  · simp
  · simp
  · simp
  · simp only [Bool.false_eq_true, iff_false]
    rintro ⟨leads, noLink⟩
    unfold findsDir at leads
    split at leads
    · rename_i place found
      exact noLink ⟨(findIff.mp found).1, target, rfl⟩
    · cases leads

/- A link by a path that is too long to be looked at is not told from a file. -/
theorem offersIff {name : Name} (legal : LegalName name) : name ∈ store.namesIn dir ∧
    host.leadsToDir store path dir name = false ∧ host.isLink store (join path name) = false ↔
      (∃ mode bytes, store.get? (name :: dir) = some (.file mode bytes)) ∨
        (∃ target, store.get? (name :: dir) = some (.link target)) ∧ accept (join path name) ≠ .ok () := by
  rw [memNamesIn, ← Bool.not_eq_true (host.isLink _ _), isLinkIff within legal]
  unfold leadsToDir
  rcases store.get? (name :: dir) with _ | ⟨_ | _ | target⟩
  · simp
  · simp
  · simp
  · have unseen : accept (join path name) ≠ .ok () →
        store.findsDir host.workDir (join path name) = false := by
      intro refused
      unfold findsDir
      split
      · rename_i place found
        exact absurd (findIff.mp found).1 refused
      · rfl
    simpa using unseen

end
end Host
end SourceSweep.Files
