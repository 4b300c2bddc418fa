import SourceSweep.Proofs.Files.Within

/-! The path of a place: the one that is absolute and holds neither links nor dots. Paths of places are built by
adding names, and taking the last name away gives the path of the directory. -/
namespace SourceSweep.Files
open Text Store

theorem joinWithConcat (separator : Char) {front : List Text} (some : front ≠ []) (last : Text) :
    joinWith separator (front ++ [last]) = joinWith separator front ++ separator :: last := by
  induction front with
  | nil => exact absurd rfl some
  | cons piece rest ih =>
    cases rest with
    | nil => rfl
    | cons next rest =>
      rw [List.cons_append, joinWithCons piece (by simp), ih (by simp), joinWithCons piece (by simp)]
      simp

theorem rootApart {name : Name} (solid : SolidName name) :
    baseName ('/' :: name) = name ∧ dirName ('/' :: name) = ['/'] := by
  have plain : ∀ c ∈ name.reverse, notSlash c = true := by
    intro c mem
    have other : c ≠ '/' := fun same => solid.solid (same ▸ List.mem_reverse.mp mem)
    simpa [notSlash] using other
  have stops : notSlash '/' = false := by decide
  constructor
  · simp [baseName, List.takeWhile_append_of_pos plain, stops]
  · simp [dirName, List.dropWhile_append_of_pos plain, stops]

namespace Location

section
variable {place : Location} (solid : ∀ name ∈ place, SolidName name)
include solid

theorem namesOfPath : slotNames place.path = place.reverse := by
  rw [path, show '/' :: joinWith '/' place.reverse = [] ++ '/' :: joinWith '/' place.reverse from rfl,
    slotNamesBoth, slotNamesJoined]
  · rfl
  · exact fun name mem => ⟨(solid name (List.mem_reverse.mp mem)).given,
      (solid name (List.mem_reverse.mp mem)).solid⟩

theorem pathClosed (below : place ≠ []) : place.path.getLast? ≠ some '/' := by
  obtain ⟨name, dir, rfl⟩ := List.exists_cons_of_ne_nil below
  have named := solid name List.mem_cons_self
  have last : name.getLast named.given ≠ '/' := fun slash =>
    named.solid (slash ▸ List.getLast_mem named.given)
  have ending := List.getLast?_eq_some_getLast named.given
  rw [path, List.reverse_cons]
  by_cases top : dir = []
  · subst top
    simp [joinWith, List.getLast?_cons, ending, last]
  · rw [joinWithConcat '/' (List.reverse_ne_nil_iff.mpr top)]
    simp [List.getLast?_cons, List.getLast?_append, ending, last]

end

theorem pathJoin {name : Name} {dir : Location} (solid : ∀ other ∈ name :: dir, SolidName other) :
    Files.join (path dir) name = path (name :: dir) := by
  obtain ⟨named, upward⟩ := List.forall_mem_cons.mp solid
  obtain ⟨c, rest, rfl⟩ := List.exists_cons_of_ne_nil named.given
  have other : c ≠ '/' := (List.ne_of_not_mem_cons named.solid).symm
  by_cases top : dir = []
  · subst top
    simp [Files.join, path, joinWith, isAbsolute, other]
  · have closed := pathClosed upward top
    simp only [Files.join, isAbsolute, List.head?_cons, Option.some.injEq, other, decide_false,
      Bool.false_eq_true, if_false, closed]
    rw [path, path, List.reverse_cons, joinWithConcat '/' (List.reverse_ne_nil_iff.mpr top)]
    rfl

section
variable {place : Location} (solid : ∀ name ∈ place, SolidName name)
include solid

theorem ofPathPath : ofPath place.path = place := by
  have names := namesOfPath solid
  rw [ofPath, pathNames, ← slotNames, names]
  by_cases top : place = []
  · subst top
    rfl
  · have closed := pathClosed solid top
    simp [closed]

theorem abovePath : above place.path = path place.tail := by
  cases place with
  | nil => decide
  | cons name dir =>
    obtain ⟨named, upward⟩ := List.forall_mem_cons.mp solid
    obtain ⟨base, front⟩ : baseName (path (name :: dir)) = name ∧
        dirName (path (name :: dir)) = path dir := by
      by_cases top : dir = []
      · subst top
        exact rootApart named
      · rw [← pathJoin solid]
        exact joinApart (List.cons_ne_nil _ _) (pathClosed upward top) named
    rw [above, base, front, if_neg (show ¬ (path (name :: dir)).isEmpty = true from nofun), if_neg named.notUp]
    rfl

theorem rootSlashesPath : rootSlashes place.path = ['/'] := by
  cases below : place.reverse with
  | nil => rw [path, below]; rfl
  | cons first rest =>
    have named := solid first (List.mem_reverse.mp (below ▸ List.mem_cons_self))
    obtain ⟨c, tail, rfl⟩ := List.exists_cons_of_ne_nil named.given
    have other : c ≠ '/' := (List.ne_of_not_mem_cons named.solid).symm
    obtain ⟨behind, joined⟩ : ∃ behind, joinWith '/' ((c :: tail) :: rest) = c :: behind := by
      cases rest <;> exact ⟨_, rfl⟩
    simp [path, below, joined, rootSlashes, other]

theorem normalPath : normal place.path = place.path := by
  have rooted : isAbsolute place.path = true := rfl
  have plain : ∀ name ∈ slotNames place.path, name ≠ selfName ∧ name ≠ parentName := by
    rw [namesOfPath solid]
    exact fun name mem => ⟨(solid name (List.mem_reverse.mp mem)).notSelf,
      (solid name (List.mem_reverse.mp mem)).notUp⟩
  have names := (normalNames rooted).2
  rw [normalSame rooted plain, namesOfPath solid] at names
  have climbed : (cutAt '/' place.path).foldl (climb true) [] = place := (List.reverse_inj.mp names).symm
  unfold normal
  simp only [rootSlashesPath solid, List.isEmpty_cons, Bool.not_false, climbed]
  rfl

theorem pathSame {other : Location} (solid' : ∀ name ∈ other, SolidName name)
    (same : place.path = other.path) : place = other :=
  (ofPathPath solid).symm.trans (same ▸ ofPathPath solid')

end
end Location

namespace Store

theorem Tree.pathJoin {store : Store} (tree : store.Tree) {dir : Location} {name : Name}
    (present : store.get? (name :: dir) ≠ none) : join dir.path name = Location.path (name :: dir) :=
  Location.pathJoin (tree.solid present)

theorem Tree.within {store : Store} (tree : store.Tree) {dir : Location} (isDir : store.isDir dir = true)
    (workDir : Location) : Within store workDir (Location.path dir) dir := by
  induction dir with
  | nil => exact ⟨List.cons_ne_nil _ _, by decide, .here _ _, isDir⟩
  | cons name dir ih =>
    rw [← tree.pathJoin (dirPresent isDir)]
    exact (ih (tree.dirAbove isDir)).inner (tree.legalDir isDir) isDir

section
variable {store : Store} (tree : store.Tree) {place : Location} {node : Node}
  (found : store.get? place = some node) (plain : ∀ target, node ≠ .link target)
include tree found

theorem Tree.pathNoNull : hasNull place.path = false := by
  have present : store.get? place ≠ none := by simp [found]
  rw [noNullIff, Location.path, List.mem_cons, not_or]
  refine ⟨by decide, fun mem => ?_⟩
  obtain same | ⟨name, among, within⟩ := joinWithChar mem
  · exact absurd same (by decide)
  · exact (tree.names present name (List.mem_reverse.mp among)).clean within

include plain

theorem Tree.pathLeads : Leads store linkLimit [] (slotNames place.path) place := by
  cases place with
  | nil => exact .here _ _
  | cons name dir =>
    have present : store.get? (name :: dir) ≠ none := by simp [found]
    have legal := tree.names present name List.mem_cons_self
    have isDir : store.isDir dir = true := tree.inside _ (foundIff.mp found)
    rw [← tree.pathJoin present, slotNamesJoin _ legal.solid legal.given]
    exact (tree.within isDir []).leads.add legal isDir found plain

theorem Tree.pathFound (workDir : Location) :
    store.find workDir place.path = (accept place.path).map fun _ => place := by
  have names : pathNames place.path = slotNames place.path := by
    by_cases top : place = []
    · subst top
      rfl
    · exact pathNamesClosed (Location.pathClosed (tree.solid (by simp [found])) top)
  have walked := walkIff.mpr (tree.pathLeads found plain)
  unfold Store.find
  rw [names, show origin workDir place.path = [] from rfl, walked]
  cases accept place.path <;> rfl

end

end Store
end SourceSweep.Files
