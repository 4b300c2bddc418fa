import SourceSweep.Proofs.Files.Replacement
import SourceSweep.Proofs.Files.Tree

/-! A write is atomic. What stands at a path is looked up here without following a link at its end;
only a path that ends in a slash or in dots is followed, to the directory that it asks for. -/
namespace SourceSweep.Files
open Text

namespace Store

def atPath? (store : Store) (workDir : Location) (path : Text) : Option Node :=
  match store.findEntry workDir path with
  | .ok place => store.get? place
  | .error _ => none

def asksForDir (path : Text) : Prop :=
  (pathNames path).getLast? = none ∨ (pathNames path).getLast? = some selfName ∨
    (pathNames path).getLast? = some parentName

theorem Leads.ofNone {store : Store} {links : Nat} {here place : Location}
    (leads : Leads store links here [] place) : place = here := by
  cases leads
  rfl

theorem Leads.toDir {store : Store} (above : ∀ spot, store.isDir spot = true → store.isDir spot.tail = true)
    {links : Nat} {here place : Location} {names : List Name}
    (leads : Leads store links here names place) {dots : Name} (last : names.getLast? = some dots)
    (isDots : dots = selfName ∨ dots = parentName) : store.isDir place = true := by
  induction leads with
  | here => cases last
  | @self links here rest place dir next ih =>
    cases rest with
    | nil => exact next.ofNone ▸ dir
    | cons name rest => exact ih (by simpa using last)
  | @up links here rest place dir next ih =>
    cases rest with
    | nil => exact next.ofNone ▸ above here dir
    | cons name rest => exact ih (by simpa using last)
  | @link links here name rest spot target place notSelf notUp entered found next ih =>
    cases rest with
    | nil =>
      cases last
      exact absurd isDots (not_or.mpr ⟨notSelf, notUp⟩)
    | cons other rest => exact ih (by simpa using last)
  | @entry links here name rest spot node place notSelf notUp entered found plain next ih =>
    cases rest with
    | nil =>
      cases last
      exact absurd isDots (not_or.mpr ⟨notSelf, notUp⟩)
    | cons other rest => exact ih (by simpa using last)

theorem absoluteOfNoNames {path : Text} (given : path ≠ []) (empty : pathNames path = []) :
    isAbsolute path = true := by
  obtain ⟨c, rest, rfl⟩ := List.exists_cons_of_ne_nil given
  by_cases slash : c = '/'
  · simp [isAbsolute, slash]
  · obtain ⟨piece, pieces, cut⟩ := List.exists_cons_of_ne_nil (cutAtNeNil '/' rest)
    have named : (c :: piece) ∈ pathNames (c :: rest) := by
      rw [pathNames, cutAtOther slash cut]
      split <;> simp
    exact absurd (empty ▸ named) List.not_mem_nil

theorem findSlotNone {store : Store} {workDir dir : Location} {path : Text} :
    store.findSlot workDir path = .ok (dir, none) ↔ accept path = .ok () ∧
      Leads store linkLimit (origin workDir path) (slotNames path).dropLast dir ∧
      (slotNames path = [] ∨ store.isDir dir = true ∧ ((slotNames path).getLast? = some selfName ∨
        (slotNames path).getLast? = some parentName)) := by
  unfold findSlot
  rw [bindOkIff]
  constructor
  · intro parts
    obtain ⟨_, taken, found⟩ := parts
    obtain ⟨dir', walked, found⟩ := bindOkIff.mp found
    have leads := walkIff.mp walked
    split at found
    · rename_i empty
      cases found
      exact ⟨taken, leads, .inl (List.getLast?_eq_none_iff.mp empty)⟩
    · rename_i name last
      split at found
      · cases found
      · rename_i isDir
        split at found
        · rename_i dots
          cases found
          simp only [Bool.or_eq_true, decide_eq_true_eq] at dots
          refine ⟨taken, leads, .inr ⟨by simpa using isDir, ?_⟩⟩
          rcases dots with rfl | rfl
          · exact .inl last
          · exact .inr last
        · cases found
  · intro parts
    obtain ⟨taken, leads, which⟩ := parts
    refine ⟨(), taken, bindOkIff.mpr ⟨dir, walkIff.mpr leads, ?_⟩⟩
    change (match (slotNames path).getLast? with
      | none => _
      | some name => _) = _
    rcases which with empty | ⟨isDir, last | last⟩
    · simp [empty]
    · simp [last, isDir]
    · simp [last, isDir]

def AtDir (store : Store) (workDir : Location) (path : Text) : Prop :=
  ∃ dir last, store.findSlot workDir path = .ok (dir, last) ∧
    (last = none ∨ path.getLast? = some '/')

theorem AtDir.asks {store : Store} {workDir : Location} {path : Text}
    (atDir : AtDir store workDir path) : asksForDir path := by
  obtain ⟨dir, last, found, which⟩ := atDir
  cases last with
  | none =>
    obtain ⟨_, _, empty | ⟨_, dots | dots⟩⟩ := findSlotNone.mp found
    · exact .inl (by simp only [slotNames] at empty; simp [pathNames, empty])
    all_goals
      simp only [slotNames] at dots
      unfold asksForDir pathNames
      simp only
      split <;> simp [dots]
  | some name =>
    have slash := which.resolve_left (by simp)
    have given : slotNames path ≠ [] := fun empty => by
      simpa [empty] using (findSlotIff.mp found).last
    simp only [slotNames] at given
    exact .inr (.inl (by simp [pathNames, slash, given]))

theorem entryIff {store : Store} {workDir : Location} {path : Text} {node : Node} :
    store.atPath? workDir path = some node ↔ ∃ place, store.get? place = some node ∧
      (path.getLast? ≠ some '/' ∧ store.newPlace workDir path = .ok place ∨
        AtDir store workDir path ∧ store.find workDir path = .ok place) := by
  have looked : store.atPath? workDir path = some node ↔
      ∃ place, store.findEntry workDir path = .ok place ∧ store.get? place = some node := by
    unfold atPath?
    cases store.findEntry workDir path <;> simp
  rw [looked]
  cases lookup : store.findSlot workDir path with
  | error number => simp [findEntry, newPlace, AtDir, lookup, bind, Except.bind]
  | ok slot =>
    obtain ⟨dir, last⟩ := slot
    have atDir : AtDir store workDir path ↔ last = none ∨ path.getLast? = some '/' := by
      constructor
      · intro parts
        obtain ⟨_, _, same, which⟩ := parts
        cases lookup.symm.trans same
        exact which
      · exact fun which => ⟨dir, last, lookup, which⟩
    rw [atDir]
    unfold findEntry newPlace
    simp only [lookup, bind, Except.bind]
    cases last with
    | none => simp [and_comm]
    | some name =>
      by_cases slash : path.getLast? = some '/'
      · simp [slash, and_comm]
      · dsimp only
        generalize store.enter dir name = entered
        cases entered with
        | error number => simp [slash]
        | ok place =>
          cases found : store.get? place with
          | none => simp [slash, found]
          | some held => simp [slash, found]

section
variable {store later : Store} (grown : store.Grown later) {workDir : Location} {path : Text}
include grown

theorem Grown.atDirIff : AtDir later workDir path ↔ AtDir store workDir path := by
  constructor
  · intro parts
    obtain ⟨dir, last, found, which⟩ := parts
    refine ⟨dir, last, ?_, which⟩
    cases last with
    | some name => exact findSlotIff.mpr (grown.slotIff.mp (findSlotIff.mp found))
    | none =>
      obtain ⟨taken, leads, ends⟩ := findSlotNone.mp found
      rw [grown.isDir] at ends
      refine findSlotNone.mpr ⟨taken, ?_, ends⟩
      rcases ends with empty | ⟨isDir, _⟩
      · rw [empty] at leads ⊢
        exact leads.ofNone ▸ .here _ _
      · rcases grown.leadsBack leads with leads | ⟨absent, _⟩
        · exact leads
        · simp [Store.isDir, absent] at isDir
  · intro parts
    obtain ⟨dir, last, found, which⟩ := parts
    refine ⟨dir, last, ?_, which⟩
    cases last with
    | some name => exact findSlotIff.mpr (grown.slotIff.mpr (findSlotIff.mp found))
    | none =>
      obtain ⟨taken, leads, ends⟩ := findSlotNone.mp found
      exact findSlotNone.mpr ⟨taken, grown.leads leads, by rwa [grown.isDir]⟩

theorem Grown.findDirBack (tree : store.Tree) {place : Location} (asks : asksForDir path)
    (found : later.find workDir path = .ok place) :
    store.find workDir path = .ok place ∧ (place = origin workDir path ∧ pathNames path = [] ∨
      store.isDir place = true) := by
  obtain ⟨taken, leads⟩ := findIff.mp found
  have above : ∀ spot, later.isDir spot = true → later.isDir spot.tail = true := by
    intro spot isDir
    rw [grown.isDir] at isDir ⊢
    exact tree.dirAbove isDir
  have toDir : ∀ dots, (pathNames path).getLast? = some dots → dots = selfName ∨ dots = parentName →
      store.find workDir path = .ok place ∧ store.isDir place = true := by
    intro dots last isDots
    have isDir := grown.isDir place ▸ leads.toDir above last isDots
    rcases grown.findBack found with found | ⟨absent, _⟩
    · exact ⟨found, isDir⟩
    · simp [Store.isDir, absent] at isDir
  rcases asks with last | last | last
  · have empty := List.getLast?_eq_none_iff.mp last
    rw [empty] at leads
    cases leads.ofNone
    exact ⟨findIff.mpr ⟨taken, empty ▸ .here _ _⟩, .inl ⟨rfl, empty⟩⟩
  · exact (toDir selfName last (.inl rfl)).imp_right .inr
  · exact (toDir parentName last (.inr rfl)).imp_right .inr

end
end Store

namespace Host
open Store

section
variable {host : Host} {store after : Store} {target : Text} (kept : Kept host store after target)
include kept

theorem Kept.old {location : Location} (old : store.isDir location = true ∨ location = []) :
    after.get? location = store.get? location := by
  by_contra changed
  obtain ⟨⟨path, _, named⟩, mode, bytes, found⟩ := kept.leftover location changed
  obtain ⟨dir, name, _, _, rfl⟩ := newPlaceIff.mp named
  rcases old with isDir | root
  · rw [← kept.grown.isDir] at isDir
    simp [Store.isDir, found] at isDir
  · cases root

theorem Kept.entrySame (tree : store.Tree) (plain : host.PlainTags) :
    after.atPath? host.workDir target = store.atPath? host.workDir target := by
  refine Option.ext fun node => ?_
  rw [entryIff, entryIff]
  constructor
  · intro parts
    obtain ⟨place, found, ⟨closed, named⟩ | ⟨atDir, leads⟩⟩ := parts
    · have named := kept.grown.newPlaceIff.mp named
      exact ⟨place, kept.entry plain closed named ▸ found, .inl ⟨closed, named⟩⟩
    · have atDir := kept.grown.atDirIff.mp atDir
      obtain ⟨leads, old⟩ := kept.grown.findDirBack tree atDir.asks leads
      refine ⟨place, ?_, .inr ⟨atDir, leads⟩⟩
      rw [← kept.old, found]
      refine old.symm.imp_right fun ⟨same, empty⟩ => ?_
      have given : target ≠ [] := by
        intro same
        subst same
        cases (findIff.mp leads).1
      simp [same, origin, absoluteOfNoNames given empty]
  · intro parts
    obtain ⟨place, found, ⟨closed, named⟩ | ⟨atDir, leads⟩⟩ := parts
    · exact ⟨place, (kept.entry plain closed named).trans found,
        .inl ⟨closed, kept.grown.newPlaceIff.mpr named⟩⟩
    · exact ⟨place, kept.present place node found,
        .inr ⟨kept.grown.atDirIff.mpr atDir, kept.grown.find leads⟩⟩

end

/-- Whatever calls fail, a write either puts the whole text in the place that the path names, or
leaves what stands at the path as it was. Nothing else that was there changes, and only a temporary
file that could not be removed stays behind. -/
theorem writeIsAtomic {host : Host} {store : Store} (tree : store.Tree) (plain : host.PlainTags)
    (target content : Text) :
    match host.write store target content with
    | (.ok (), after) => ∃ place,
      target.getLast? ≠ some '/' ∧ store.newPlace host.workDir target = .ok place ∧
      after.get? place = some (.file ((store.node? host.workDir target).elim privateMode Node.mode)
        (Utf8.encode content)) ∧
      ∀ other, other ≠ place → after.get? other = store.get? other
    | (.error _, after) =>
      after.atPath? host.workDir target = store.atPath? host.workDir target ∧
      (∀ location node, store.get? location = some node → after.get? location = some node) ∧
      (host.trouble? .removeTemp target = none →
        ∀ location, after.get? location = store.get? location) ∧
      ∀ location, after.get? location ≠ store.get? location →
        ∃ path ∈ host.tempPaths target, store.newPlace host.workDir path = .ok location := by
  have outcome := writeOutcome host store target content
  generalize host.write store target content = step at outcome ⊢
  obtain ⟨result, after⟩ := step
  cases result with
  | ok =>
    obtain ⟨place, replaced⟩ := outcome
    exact ⟨place, replaced.closed, replaced.named, replaced.file, replaced.others⟩
  | error failure =>
    have kept : Kept host store after target := outcome
    exact ⟨kept.entrySame tree plain, kept.present, kept.clean,
      fun location changed => (kept.leftover location changed).1⟩

theorem keptOrReplaced :
    let store := (Store.empty.put [] (.dir dirMode)).put ["a".toList] (.file 0o640 [104])
    let full : Host := ⟨[], [], [⟨.writeTemp, "/a".toList, .errno Errno.noSpace⟩], ["x".toList]⟩
    let spare : Host := ⟨[], [], [], ["x".toList]⟩
    store.Tree ∧ full.PlainTags ∧ spare.PlainTags ∧
      (∃ failure after, full.write store "/a".toList "new".toList = (.error failure, after) ∧
        ∀ location, after.get? location = store.get? location) ∧
      ∃ after, spare.write store "/a".toList "new".toList = (.ok (), after) ∧
        after.get? ["a".toList] = some (.file 0o640 (Utf8.encode "new".toList)) ∧
        ∀ other, other ≠ ["a".toList] → after.get? other = store.get? other := by
  intro store full spare
  have tree : store.Tree := by decide +kernel
  have plain : full.PlainTags ∧ spare.PlainTags := by decide
  have kept := writeIsAtomic tree plain.1 "/a".toList "new".toList
  have replaced := writeIsAtomic tree plain.2 "/a".toList "new".toList
  have outcomes : (full.write store "/a".toList "new".toList).1.isOk = false ∧
      (spare.write store "/a".toList "new".toList).1.isOk = true := by decide +kernel
  generalize full.write store "/a".toList "new".toList = failed at kept outcomes ⊢
  generalize spare.write store "/a".toList "new".toList = wrote at replaced outcomes ⊢
  have stays : full.trouble? .removeTemp "/a".toList = none := by decide +kernel
  obtain ⟨⟨failure⟩ | ⟨⟩, left⟩ := failed
  · obtain ⟨⟨⟩ | ⟨⟩, after⟩ := wrote
    · cases outcomes.2
    · obtain ⟨place, _, named, file, others⟩ := replaced
      have leads : store.newPlace spare.workDir "/a".toList = .ok ["a".toList] := by decide +kernel
      have mode : (store.node? spare.workDir "/a".toList).elim privateMode Node.mode = 0o640 := by decide +kernel
      cases leads.symm.trans named
      rw [mode] at file
      exact ⟨tree, plain.1, plain.2, ⟨failure, left, rfl, kept.2.2.1 stays⟩, ⟨after, rfl, file, others⟩⟩
  · cases outcomes.1

end Host
end SourceSweep.Files
