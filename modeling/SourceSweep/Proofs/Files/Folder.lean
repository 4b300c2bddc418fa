import SourceSweep.Proofs.Files.Growth
import SourceSweep.Proofs.Files.PathNames
import SourceSweep.Proofs.Files.Tree

/-! Directories known by an absolute path that holds no dots, and what is found below them by adding
names to the path. -/
namespace SourceSweep.Files
open Text

namespace Store

structure Trunk (path : Text) : Prop where
  rooted : isAbsolute path = true
  clean : hasNull path = false
  plain : ∀ name ∈ slotNames path, name ≠ selfName ∧ name ≠ parentName

theorem joinRelative {name : Name} (solid : SolidName name) (dir : Text) :
    join dir name = dir ++ name ∨ join dir name = dir ++ '/' :: name := by
  simp only [join, nameRelative solid.solid solid.given, Bool.false_eq_true, if_false]
  split
  · exact .inl rfl
  · exact .inr rfl

theorem joinGiven {name : Name} (solid : SolidName name) (dir : Text) : join dir name ≠ [] := by
  rcases joinRelative solid dir with joined | joined <;> simp [joined, solid.given]

theorem joinClosed {name : Name} (solid : SolidName name) (dir : Text) :
    (join dir name).getLast? ≠ some '/' := by
  have last := List.getLast?_eq_some_getLast solid.given
  have other : name.getLast solid.given ≠ '/' := fun slash =>
    solid.solid (slash ▸ List.getLast_mem solid.given)
  rcases joinRelative solid dir with joined | joined
  · simp [joined, List.getLast?_append, last, other]
  · simp [joined, List.getLast?_append, List.getLast?_cons, last, other]

theorem joinOnto {name : Name} (solid : SolidName name) {dir : Text} (given : dir ≠ []) :
    isAbsolute (join dir name) = isAbsolute dir := by
  obtain ⟨c, rest, rfl⟩ := List.exists_cons_of_ne_nil given
  rcases joinRelative solid (c :: rest) with joined | joined <;> rw [joined] <;> rfl

theorem Trunk.given {path : Text} (trunk : Trunk path) : path ≠ [] := by
  intro same
  subst same
  cases trunk.rooted

theorem Trunk.join {path : Text} (trunk : Trunk path) {name : Name} (legal : LegalName name) :
    Trunk (join path name) := by
  refine ⟨(joinOnto legal.toSolidName trunk.given).trans trunk.rooted,
    joinNoNull trunk.clean (noNullIff.mpr legal.clean), fun other mem => ?_⟩
  rw [slotNamesJoin _ legal.solid legal.given, List.mem_append, List.mem_singleton] at mem
  rcases mem with mem | rfl
  · exact trunk.plain other mem
  · exact ⟨legal.notSelf, legal.notUp⟩

structure Folder (store : Store) (path : Text) (dir : Location) : Prop extends Trunk path where
  closed : path.getLast? ≠ some '/'
  leads : Leads store linkLimit [] (slotNames path) dir
  isDir : store.isDir dir = true

section
variable {store : Store} {path : Text} {dir : Location} (folder : Folder store path dir)
include folder

theorem Folder.grown {later : Store} (grown : store.Grown later) : Folder later path dir :=
  ⟨folder.toTrunk, folder.closed, grown.leads folder.leads, grown.isDir dir ▸ folder.isDir⟩

theorem Folder.find (workDir : Location) : store.find workDir path = (accept path).map fun _ => dir := by
  unfold Store.find
  rw [pathNamesClosed folder.closed, origin, if_pos folder.rooted, walkIff.mpr folder.leads]
  cases accept path <;> rfl

end

theorem Leads.add {store : Store} {links : Nat} {here dir : Location} {names : List Name}
    (leads : Leads store links here names dir) {name : Name} (legal : LegalName name)
    (isDir : store.isDir dir = true) {node : Node} (found : store.get? (name :: dir) = some node)
    (plain : ∀ target, node ≠ .link target) :
    Leads store links here (names ++ [name]) (name :: dir) := by
  have entered : store.enter dir name = .ok (name :: dir) := enterOkIff.mpr ⟨isDir, legal.short, rfl⟩
  induction leads with
  | here links dir => exact .entry legal.notSelf legal.notUp entered found plain (.here links _)
  | self here next ih => exact .self here (ih isDir found entered)
  | up here next ih => exact .up here (ih isDir found entered)
  | link notSelf notUp into linked next ih =>
    have next := ih isDir found entered
    rw [List.append_assoc] at next
    exact .link notSelf notUp into linked next
  | entry notSelf notUp into held other next ih =>
    exact .entry notSelf notUp into held other (ih isDir found entered)

theorem Folder.inner {store : Store} {path : Text} {dir : Location} (folder : Folder store path dir)
    {name : Name} (legal : LegalName name) (isDir : store.isDir (name :: dir) = true) :
    Folder store (Files.join path name) (name :: dir) := by
  obtain ⟨mode, found⟩ := isDirIff.mp isDir
  refine ⟨folder.toTrunk.join legal, joinClosed legal.toSolidName path, ?_, isDir⟩
  rw [slotNamesJoin _ legal.solid legal.given]
  exact folder.leads.add legal folder.isDir found (by simp)

end Store
end SourceSweep.Files
