import SourceSweep.Proofs.Files.PlacePath

/-! The path that a write makes up for its temporary file: its names and its size, told from the target,
the working directory and the tag, and the null characters in it, which can only come from these. -/
namespace SourceSweep.Files
open Text

theorem climbAmong {rooted : Bool} {names before : List Name} {name : Name}
    (mem : name ∈ names.foldl (climb rooted) before) : name ∈ names ∨ name ∈ before := by
  induction names generalizing before with
  | nil => exact .inr mem
  | cons first rest ih =>
    rcases ih mem with later | here
    · exact .inl (List.mem_cons_of_mem first later)
    · have pushed : name ∈ first :: before := by
        unfold climb at here
        grind [List.mem_cons_of_mem]
      rcases List.mem_cons.mp pushed with rfl | earlier
      · exact .inl List.mem_cons_self
      · exact .inr earlier

theorem normalNoNull {path : Text} (clean : hasNull path = false) : hasNull (normal path) = false := by
  rw [noNullIff] at clean ⊢
  have slashes : '\x00' ∉ rootSlashes path := by
    unfold rootSlashes
    split <;> decide
  have names : '\x00' ∉ joinWith '/'
      ((cutAt '/' path).foldl (climb !(rootSlashes path).isEmpty) []).reverse := by
    intro mem
    obtain same | ⟨name, among, within⟩ := joinWithChar mem
    · exact absurd same (by decide)
    · have piece := (climbAmong (List.mem_reverse.mp among)).resolve_right (List.not_mem_nil)
      exact clean (joinWithCutAt '/' path ▸ pieceChar piece within)
  simp only [normal]
  split
  · decide
  · exact List.not_mem_append slashes names

namespace Host
open Store

structure NullFree (host : Host) : Prop where
  workDir : ∀ name ∈ host.workDir, hasNull name = false
  tags : ∀ tag ∈ host.tags, hasNull tag = false

theorem nullFreeIff {host : Host} : host.NullFree ↔
    (∀ name ∈ host.workDir, hasNull name = false) ∧ ∀ tag ∈ host.tags, hasNull tag = false :=
  ⟨fun ⟨workDir, tags⟩ => ⟨workDir, tags⟩, fun ⟨workDir, tags⟩ => ⟨workDir, tags⟩⟩

instance (host : Host) : Decidable host.NullFree := decidable_of_iff _ nullFreeIff.symm

section
variable {host : Host} (free : host.NullFree)
include free

theorem workDirNoNull : hasNull host.workDir.path = false := by
  rw [noNullIff, Location.path, List.mem_cons, not_or]
  refine ⟨by decide, fun mem => ?_⟩
  obtain same | ⟨name, among, within⟩ := joinWithChar mem
  · exact absurd same (by decide)
  · exact noNullIff.mp (free.workDir name (List.mem_reverse.mp among)) within

theorem tempNoNull {target path : Text} (clean : hasNull target = false)
    (listed : path ∈ host.tempPaths target) : hasNull path = false := by
  rw [tempPathsEq] at listed
  obtain ⟨tag, mem, rfl⟩ := List.mem_map.mp listed
  have target' := noNullIff.mp clean
  have dir : hasNull (dirName target) = false := by
    rw [noNullIff, dirName]
    intro mem
    refine target' (List.mem_reverse.mp ((List.dropWhile_sublist notSlash).subset ?_))
    split at mem
    · exact List.mem_reverse.mp mem
    · exact (List.dropWhile_sublist _).subset (List.mem_reverse.mp mem)
  have base : '\x00' ∉ baseName target := fun mem =>
    target' (List.mem_reverse.mp ((List.takeWhile_sublist notSlash).subset (List.mem_reverse.mp mem)))
  have tag' := noNullIff.mp (free.tags tag mem)
  refine joinNoNull (normalNoNull (joinNoNull (workDirNoNull free) ?_)) ?_
  · split
    · decide
    · exact dir
  · have ending : '\x00' ∉ ".tmp".toList := by decide
    have dot : '\x00' ≠ '.' := by decide
    simp [noNullIff, tempName, base, tag', dot]

end

theorem tempDirRooted (host : Host) (target : Text) : isAbsolute (host.tempDir target) = true :=
  (normalNames (joinRooted host.workDir _)).1

theorem tempNameSize {target tag : Text} (eight : Utf8.size tag = 8) :
    Utf8.size (tempName target tag) = Utf8.size (baseName target) + 14 := by
  have split : tempName target tag = ['.'] ++ baseName target ++ ['.'] ++ tag ++ ".tmp".toList := by
    simp [tempName]
  rw [split]
  simp only [sizeAppend, eight]
  have dot : Utf8.size ['.'] = 1 := by decide
  have ending : Utf8.size ".tmp".toList = 4 := by decide
  omega

theorem tempPathSize {host : Host} {target tag : Text} (eight : Utf8.size tag = 8) :
    Utf8.size (join (host.tempDir target) (tempName target tag)) =
      Utf8.size (join (host.tempDir target) []) + Utf8.size (baseName target) + 14 := by
  rw [joinBare (show isAbsolute (tempName target tag) = false from rfl), sizeAppend, tempNameSize eight]
  omega

/- Without double dots the directory of the temporary file is that of the target, its names counted from
the root. -/
theorem tempDirNames {host : Host} (legal : ∀ name ∈ host.workDir, SolidName name) {target : Text}
    (given : target ≠ []) (closed : target.getLast? ≠ some '/') (noUp : parentName ∉ slotNames target) :
    slotNames (host.tempDir target) =
      (if isAbsolute target then (slotNames target).dropLast
        else host.workDir.reverse ++ (slotNames target).dropLast).filter (· ≠ selfName) := by
  obtain ⟨dirNames, rooted⟩ := slotNamesDir given closed
  have above : parentName ∉ slotNames (dirName target) := fun mem =>
    noUp (List.dropLast_subset _ (dirNames ▸ mem))
  have beside : ∃ dir, host.tempDir target = normal (join host.workDir.path dir) ∧
      isAbsolute dir = isAbsolute target ∧ parentName ∉ slotNames dir ∧
      (slotNames dir).filter (· ≠ selfName) = (slotNames target).dropLast.filter (· ≠ selfName) := by
    by_cases empty : dirName target = []
    · rw [empty] at dirNames rooted
      refine ⟨selfName, by simp [tempDir, absolute, empty], rooted, by decide, ?_⟩
      rw [← dirNames]
      rfl
    · exact ⟨dirName target, by simp [tempDir, absolute, empty], rooted, above, by rw [dirNames]⟩
  obtain ⟨dir, same, rooted, noUpDir, dirNames⟩ := beside
  have joined := joinRooted host.workDir dir
  have noUpWork : parentName ∉ host.workDir.reverse := fun mem =>
    (legal _ (List.mem_reverse.mp mem)).notUp rfl
  rw [same, ← rooted]
  cases relative : isAbsolute dir with
  | true =>
    have alone : join host.workDir.path dir = dir := by simp [join, relative]
    rw [alone] at joined ⊢
    rw [normalNoUp joined noUpDir, dirNames]
    rfl
  | false =>
    have names := slotNamesJoinPath relative host.workDir.path
    rw [Location.namesOfPath legal] at names
    rw [normalNoUp joined (names ▸ List.not_mem_append noUpWork noUpDir), names]
    simp only [List.filter_append, dirNames, Bool.false_eq_true, if_false]

end Host
end SourceSweep.Files
