import SourceSweep.Proofs.Files.PathNames

/-! Stores that are trees: every entry has a name that a path can take, and stands in a directory.
The root stands in itself. -/
namespace SourceSweep.Files
open Text

structure LegalName (name : Name) : Prop extends SolidName name where
  clean : '\x00' ∉ name
  short : Utf8.size name ≤ nameLimit

theorem legalNameIff {name : Name} : LegalName name ↔ name ≠ [] ∧ '/' ∉ name ∧ name ≠ selfName ∧
    name ≠ parentName ∧ '\x00' ∉ name ∧ Utf8.size name ≤ nameLimit := by
  constructor
  · intro parts
    obtain ⟨⟨given, solid, notSelf, notUp⟩, clean, short⟩ := parts
    exact ⟨given, solid, notSelf, notUp, clean, short⟩
  · intro parts
    obtain ⟨given, solid, notSelf, notUp, clean, short⟩ := parts
    exact ⟨⟨given, solid, notSelf, notUp⟩, clean, short⟩

instance (name : Name) : Decidable (LegalName name) := decidable_of_iff _ legalNameIff.symm

namespace Store

structure Tree (store : Store) : Prop where
  legal : ∀ entry ∈ store.entries, ∀ name ∈ entry.1, LegalName name
  inside : ∀ entry ∈ store.entries, store.isDir entry.1.tail = true

theorem treeIff {store : Store} : store.Tree ↔ (∀ entry ∈ store.entries, ∀ name ∈ entry.1,
    LegalName name) ∧ ∀ entry ∈ store.entries, store.isDir entry.1.tail = true :=
  ⟨fun ⟨legal, inside⟩ => ⟨legal, inside⟩, fun ⟨legal, inside⟩ => ⟨legal, inside⟩⟩

instance (store : Store) : Decidable store.Tree := decidable_of_iff _ treeIff.symm

theorem lookupIff {entries : List (Location × Node)} (distinct : (entries.map Prod.fst).Nodup)
    {location : Location} {node : Node} :
    entries.lookup location = some node ↔ (location, node) ∈ entries := by
  induction entries with
  | nil => simp
  | cons entry rest ih =>
    obtain ⟨key, held⟩ := entry
    rw [List.map_cons, List.nodup_cons] at distinct
    rw [List.lookup_cons, List.mem_cons, Prod.mk.injEq]
    by_cases same : location = key
    · subst same
      have once : (location, node) ∉ rest := fun mem =>
        distinct.1 (List.mem_map.mpr ⟨_, mem, rfl⟩)
      simp [once, eq_comm]
    · have missed : (location == key) = false := by simpa using same
      simp only [missed, ih distinct.2, same, false_and, false_or]

theorem foundIff {store : Store} {location : Location} {node : Node} :
    store.get? location = some node ↔ (location, node) ∈ store.entries :=
  lookupIff store.distinct

theorem isDirIff {store : Store} {location : Location} :
    store.isDir location = true ↔ ∃ mode, store.get? location = some (.dir mode) := by
  unfold isDir
  split
  · rename_i mode found
    simp [found]
  · rename_i other
    simp only [Bool.false_eq_true, false_iff, not_exists]
    exact other

theorem dirPresent {store : Store} {location : Location} (isDir : store.isDir location = true) :
    store.get? location ≠ none := by
  obtain ⟨mode, found⟩ := isDirIff.mp isDir
  simp [found]

theorem Tree.names {store : Store} (tree : store.Tree) {place : Location}
    (present : store.get? place ≠ none) : ∀ name ∈ place, LegalName name := by
  obtain ⟨node, found⟩ := Option.ne_none_iff_exists'.mp present
  exact tree.legal _ (foundIff.mp found)

theorem Tree.solid {store : Store} (tree : store.Tree) {place : Location}
    (present : store.get? place ≠ none) : ∀ name ∈ place, SolidName name :=
  fun name mem => (tree.names present name mem).toSolidName

theorem Tree.legalDir {store : Store} (tree : store.Tree) {dir : Location} {name : Name}
    (isDir : store.isDir (name :: dir) = true) : LegalName name :=
  tree.names (dirPresent isDir) name List.mem_cons_self

theorem Tree.dirAbove {store : Store} (tree : store.Tree) {location : Location}
    (isDir : store.isDir location = true) : store.isDir location.tail = true := by
  obtain ⟨mode, found⟩ := isDirIff.mp isDir
  exact tree.inside _ (foundIff.mp found)

theorem memNamesIn {store : Store} {dir : Location} {name : Name} :
    name ∈ store.namesIn dir ↔ ∃ node, store.get? (name :: dir) = some node := by
  unfold namesIn
  rw [(sortPerm _).mem_iff, List.mem_filterMap]
  constructor
  · intro parts
    obtain ⟨⟨location, node⟩, mem, named⟩ := parts
    cases location with
    | nil => cases named
    | cons first parent =>
      simp only [Option.ite_none_right_eq_some, Option.some.injEq] at named
      obtain ⟨rfl, rfl⟩ := named
      exact ⟨node, foundIff.mpr mem⟩
  · intro parts
    obtain ⟨node, found⟩ := parts
    exact ⟨(name :: dir, node), foundIff.mp found, by simp⟩

theorem namesInNodup (store : Store) (dir : Location) : (store.namesIn dir).Nodup := by
  unfold namesIn
  rw [(sortPerm _).nodup_iff]
  refine (List.Pairwise.of_map Prod.fst (fun _ _ differ => differ) store.distinct).filterMap _ ?_
  rintro ⟨location, node⟩ ⟨other, held⟩ differ name named name' named' same
  cases location with
  | nil => cases named
  | cons first parent =>
    cases other with
    | nil => cases named'
    | cons second parent' =>
      simp only [Option.ite_none_right_eq_some, Option.some.injEq] at named named'
      obtain ⟨rfl, rfl⟩ := named
      obtain ⟨rfl, rfl⟩ := named'
      exact differ (by rw [same])

end Store
end SourceSweep.Files
