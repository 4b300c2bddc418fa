import Mathlib.Data.List.TakeWhile
import SourceSweep.Proofs.Files.Leads

/-! The names that a path is made of, and how they change when a name is added to it. -/
namespace SourceSweep.Files
open Text

theorem pieceChar {separator : Char} {pieces : List Text} {piece : Text} (mem : piece ∈ pieces)
    {c : Char} (within : c ∈ piece) : c ∈ joinWith separator pieces := by
  induction pieces with
  | nil => cases mem
  | cons first rest ih =>
    by_cases last : rest = []
    · subst last
      rwa [List.mem_singleton.mp mem] at within
    · rw [joinWithCons first last, List.mem_append, List.mem_cons]
      rcases List.mem_cons.mp mem with rfl | later
      · exact .inl within
      · exact .inr (.inr (ih later))

theorem joinWithChar {separator : Char} {pieces : List Text} {c : Char}
    (mem : c ∈ joinWith separator pieces) : c = separator ∨ ∃ piece ∈ pieces, c ∈ piece := by
  induction pieces with
  | nil => cases mem
  | cons first rest ih =>
    by_cases last : rest = []
    · subst last
      exact .inr ⟨first, List.mem_cons_self, mem⟩
    · rw [joinWithCons first last, List.mem_append, List.mem_cons] at mem
      rcases mem with mem | mem | mem
      · exact .inr ⟨first, List.mem_cons_self, mem⟩
      · exact .inl mem
      · exact (ih mem).imp_right fun ⟨piece, among, within⟩ =>
          ⟨piece, List.mem_cons_of_mem first among, within⟩

theorem splitBase (path : Text) : ∃ front, path = front ++ baseName path ∧ '/' ∉ baseName path ∧
    (front = [] ∨ ∃ dir, front = dir ++ ['/']) := by
  refine ⟨(path.reverse.dropWhile notSlash).reverse, ?_, ?_, ?_⟩
  · rw [baseName, ← List.reverse_append, List.takeWhile_append_dropWhile, List.reverse_reverse]
  · intro mem
    have slash := List.mem_takeWhile_imp (List.mem_reverse.mp mem)
    simp [notSlash] at slash
  · by_cases free : path.reverse.dropWhile notSlash = []
    · exact .inl (by rw [free]; rfl)
    · obtain ⟨c, rest, split⟩ := List.exists_cons_of_ne_nil free
      have stopped := List.head_dropWhile_not notSlash free
      have slash : c = '/' := by simpa [split, notSlash] using stopped
      exact .inr ⟨rest.reverse, by simp [split, slash]⟩

theorem noNullIff {path : Text} : hasNull path = false ↔ '\x00' ∉ path := by
  simp [hasNull]

theorem joinNoNull {dir name : Text} (above : hasNull dir = false) (clean : hasNull name = false) :
    hasNull (join dir name) = false := by
  rw [noNullIff] at above clean ⊢
  have slash : '\x00' ≠ '/' := by decide
  unfold join
  split_ifs
  · exact clean
  · exact List.not_mem_append above clean
  · exact List.not_mem_append above (List.not_mem_cons_of_ne_of_not_mem slash clean)

theorem sizeAppend (front rest : Text) : Utf8.size (front ++ rest) = Utf8.size front + Utf8.size rest := by
  simp [Utf8.size, Utf8.encode]

theorem joinBare {name : Text} (relative : isAbsolute name = false) (dir : Text) :
    join dir name = join dir [] ++ name := by
  have bare : isAbsolute [] = false := rfl
  unfold join
  rw [relative, bare]
  simp only [Bool.false_eq_true, if_false]
  split_ifs <;> simp

theorem nameRelative {name : Name} (solid : '/' ∉ name) (given : name ≠ []) : isAbsolute name = false := by
  obtain ⟨c, rest, rfl⟩ := List.exists_cons_of_ne_nil given
  have other : c ≠ '/' := (List.ne_of_not_mem_cons solid).symm
  simp [isAbsolute, other]

structure SolidName (name : Name) : Prop where
  given : name ≠ []
  solid : '/' ∉ name
  notSelf : name ≠ selfName
  notUp : name ≠ parentName

namespace Store

theorem slotNamesBoth (front rest : Text) :
    slotNames (front ++ '/' :: rest) = slotNames front ++ slotNames rest := by
  simp [slotNames, cutAtBoth]

theorem slotNamesOfName {name : Name} (solid : '/' ∉ name) (given : name ≠ []) :
    slotNames name = [name] := by
  simp [slotNames, cutAtOfFree solid, given]

theorem slotNamesBehind {front : Text} (ends : front = [] ∨ ∃ dir, front = dir ++ ['/'])
    {name : Name} (solid : '/' ∉ name) (given : name ≠ []) :
    slotNames (front ++ name) = slotNames front ++ [name] := by
  rcases ends with rfl | ⟨dir, rfl⟩
  · exact slotNamesOfName solid given
  · rw [List.append_assoc]
    change slotNames (dir ++ '/' :: name) = _
    rw [slotNamesBoth, slotNamesBoth, slotNamesOfName solid given]
    simp [slotNames, cutAt]

theorem slotNamesSplit {path : Text} (given : path ≠ []) (closed : path.getLast? ≠ some '/') :
    ∃ front, path = front ++ baseName path ∧ '/' ∉ baseName path ∧ baseName path ≠ [] ∧
      (front = [] ∨ ∃ dir, front = dir ++ ['/']) ∧ slotNames path = slotNames front ++ [baseName path] := by
  obtain ⟨front, split, solid, ends⟩ := splitBase path
  have base : baseName path ≠ [] := by
    intro empty
    rw [empty, List.append_nil] at split
    rcases ends with rfl | ⟨dir, rfl⟩
    · exact given split
    · exact closed (by simp [split])
  have names := slotNamesBehind ends solid base
  rw [← split] at names
  exact ⟨front, split, solid, base, ends, names⟩

theorem lastSlotName {path : Text} (given : path ≠ []) (closed : path.getLast? ≠ some '/') :
    (slotNames path).getLast? = some (baseName path) := by
  obtain ⟨front, _, _, _, _, names⟩ := slotNamesSplit given closed
  simp [names]

theorem slotNamesBare (path rest : Text) :
    slotNames (join path [] ++ rest) = slotNames path ++ slotNames rest := by
  have bare : isAbsolute [] = false := rfl
  simp only [join, bare, Bool.false_eq_true, if_false]
  split
  · rename_i ends
    rw [List.append_nil]
    rcases Bool.or_eq_true_iff.mp ends with empty | slash
    · rw [List.isEmpty_iff.mp empty]
      rfl
    · obtain ⟨front, rfl⟩ := List.getLast?_eq_some_iff.mp (show path.getLast? = some '/' by simpa using slash)
      rw [List.append_assoc, List.singleton_append, slotNamesBoth, slotNamesBoth]
      simp [slotNames, cutAt]
  · rw [List.append_assoc]
    exact slotNamesBoth path rest

theorem slotNamesJoinPath {name : Text} (relative : isAbsolute name = false) (dir : Text) :
    slotNames (join dir name) = slotNames dir ++ slotNames name := by
  rw [joinBare relative, slotNamesBare]

theorem slotNamesJoin (dir : Text) {name : Name} (solid : '/' ∉ name) (given : name ≠ []) :
    slotNames (join dir name) = slotNames dir ++ [name] := by
  rw [slotNamesJoinPath (nameRelative solid given), slotNamesOfName solid given]

theorem slotNamesSlashes {slashes : Text} (only : ∀ c ∈ slashes, c = '/') (front : Text) :
    slotNames (front ++ slashes) = slotNames front := by
  induction slashes generalizing front with
  | nil => rw [List.append_nil]
  | cons c rest ih =>
    obtain ⟨rfl, later⟩ := List.forall_mem_cons.mp only
    have none : slotNames rest = [] := ih later []
    rw [slotNamesBoth, none, List.append_nil]

theorem slotNamesDir {path : Text} (given : path ≠ []) (closed : path.getLast? ≠ some '/') :
    slotNames (dirName path) = (slotNames path).dropLast ∧
      isAbsolute (dirName path) = isAbsolute path := by
  obtain ⟨front, split, solid, base, ends, names⟩ := slotNamesSplit given closed
  have plain : ∀ c ∈ (baseName path).reverse, notSlash c = true := by
    intro c mem
    have other : c ≠ '/' := fun same => solid (same ▸ List.mem_reverse.mp mem)
    simpa [notSlash] using other
  have head : path.reverse.dropWhile notSlash = front.reverse := by
    have reversed : path.reverse = (baseName path).reverse ++ front.reverse := by
      rw [← List.reverse_append, ← split]
    rw [reversed, List.dropWhile_append_of_pos plain]
    rcases ends with rfl | ⟨dir, rfl⟩
    · rfl
    · simp [notSlash]
  have slashes : ∀ c ∈ (front.reverse.takeWhile (!notSlash ·)).reverse, c = '/' := by
    intro c mem
    simpa [notSlash] using List.mem_takeWhile_imp (List.mem_reverse.mp mem)
  have whole : front = (front.reverse.dropWhile (!notSlash ·)).reverse ++
      (front.reverse.takeWhile (!notSlash ·)).reverse := by
    rw [← List.reverse_append, List.takeWhile_append_dropWhile, List.reverse_reverse]
  rw [names, List.dropLast_concat, dirName, head]
  generalize front.reverse.dropWhile (!notSlash ·) = kept at whole ⊢
  generalize (front.reverse.takeWhile (!notSlash ·)).reverse = ending at slashes whole
  cases kept with
  | nil =>
    refine ⟨by simp, ?_⟩
    rw [split, List.reverse_reverse]
    cases front with
    | nil =>
      obtain ⟨c, rest, shape⟩ := List.exists_cons_of_ne_nil base
      have other : c ≠ '/' := fun same => solid (by simp [shape, same])
      simp [isAbsolute, shape, other]
    | cons c rest => simp [isAbsolute]
  | cons last before =>
    refine ⟨?_, ?_⟩
    · rw [whole, slotNamesSlashes slashes]
      simp
    · rw [split, whole]
      obtain ⟨c, rest, shape⟩ := List.exists_cons_of_ne_nil (List.reverse_ne_nil_iff.mpr
        (List.cons_ne_nil last before))
      simp [isAbsolute, shape]

theorem pathNamesClosed {path : Text} (closed : path.getLast? ≠ some '/') :
    pathNames path = slotNames path := by
  simp [pathNames, slotNames, closed]

theorem climbSolid {names before : List Name} (solid : ∀ name ∈ names, '/' ∉ name)
    (clean : ∀ name ∈ before, SolidName name) :
    ∀ name ∈ names.foldl (climb true) before, SolidName name := by
  induction names generalizing before with
  | nil => exact clean
  | cons name rest ih =>
    refine ih (fun other mem => solid other (List.mem_cons_of_mem name mem)) ?_
    unfold climb
    split
    · exact clean
    · rename_i entry
      split
      · split
        · simp
        · rename_i last before'
          have notUp := (clean last List.mem_cons_self).notUp
          simp only [notUp, if_false]
          exact fun other mem => clean other (List.mem_cons_of_mem last mem)
      · rename_i notUp
        simp only [Bool.or_eq_true, List.isEmpty_iff, decide_eq_true_eq, not_or] at entry
        intro other mem
        rcases List.mem_cons.mp mem with rfl | mem
        · exact ⟨entry.1, solid other List.mem_cons_self, entry.2, notUp⟩
        · exact clean other mem

theorem climbNoUp {names before : List Name} (noUp : parentName ∉ names) :
    names.foldl (climb true) before =
      ((names.filter (!·.isEmpty)).filter (· ≠ selfName)).reverse ++ before := by
  induction names generalizing before with
  | nil => rfl
  | cons name rest ih =>
    rw [List.mem_cons, not_or] at noUp
    rw [List.foldl_cons, ih noUp.2]
    cases name with
    | nil => simp [climb]
    | cons c name =>
      by_cases dot : c :: name = selfName
      · simp [climb, dot]
      · simp [climb, dot, Ne.symm noUp.1]

theorem slotNamesJoined {names : List Name} (clean : ∀ name ∈ names, name ≠ [] ∧ '/' ∉ name) :
    slotNames (joinWith '/' names) = names := by
  by_cases empty : names = []
  · simp [empty, joinWith, slotNames, cutAt]
  · rw [slotNames, cutAtJoinWith empty fun name mem => (clean name mem).2]
    exact List.filter_eq_self.mpr fun name mem => by simpa using (clean name mem).1

theorem rootSlashesCases {path : Text} (rooted : isAbsolute path = true) :
    rootSlashes path = ['/'] ∨ rootSlashes path = ['/', '/'] := by
  unfold rootSlashes
  split
  · exact .inl rfl
  · exact .inr rfl
  · exact .inl rfl
  · rename_i notSlash
    cases path with
    | nil => cases rooted
    | cons c rest =>
      have slash : c = '/' := by simpa [isAbsolute] using rooted
      exact absurd (slash ▸ rfl) (notSlash rest)

theorem normalNames {path : Text} (rooted : isAbsolute path = true) :
    isAbsolute (normal path) = true ∧
      slotNames (normal path) = ((cutAt '/' path).foldl (climb true) []).reverse := by
  have clean : ∀ name ∈ ((cutAt '/' path).foldl (climb true) []).reverse, name ≠ [] ∧ '/' ∉ name := by
    intro name mem
    have solid := climbSolid (cutAtFree '/' path) (by simp) name (List.mem_reverse.mp mem)
    exact ⟨solid.given, solid.solid⟩
  have joined := slotNamesJoined clean
  have behind : ∀ rest, slotNames ('/' :: rest) = slotNames rest := fun rest => slotNamesBoth [] rest
  unfold normal
  rcases rootSlashesCases rooted with slashes | slashes
  · simp [slashes, isAbsolute, behind, joined]
  · simp [slashes, isAbsolute, behind, joined]

theorem normalSolid {path name : Text} (rooted : isAbsolute path = true)
    (mem : name ∈ slotNames (normal path)) : SolidName name := by
  rw [(normalNames rooted).2] at mem
  exact climbSolid (cutAtFree '/' path) (by simp) name (List.mem_reverse.mp mem)

theorem normalNoUp {path : Text} (rooted : isAbsolute path = true) (noUp : parentName ∉ slotNames path) :
    slotNames (normal path) = (slotNames path).filter (· ≠ selfName) := by
  rw [(normalNames rooted).2, climbNoUp, List.append_nil, List.reverse_reverse, slotNames]
  exact fun mem => noUp (List.mem_filter.mpr ⟨mem, by decide⟩)

theorem normalSame {path : Text} (rooted : isAbsolute path = true)
    (plain : ∀ name ∈ slotNames path, name ≠ selfName ∧ name ≠ parentName) :
    slotNames (normal path) = slotNames path := by
  rw [normalNoUp rooted fun mem => (plain _ mem).2 rfl]
  exact List.filter_eq_self.mpr fun name mem => by simpa using (plain name mem).1

theorem joinRooted (workDir : Location) (path : Text) : isAbsolute (join workDir.path path) = true := by
  unfold join
  split
  · assumption
  · split <;> rfl

end Store
end SourceSweep.Files
