import SourceSweep.Proofs.Files.Atomicity
import SourceSweep.Proofs.Files.Visited
import SourceSweep.Proofs.Text.Order

/-! Scanning again in a store that has grown. New files that no scan asks for make no difference to where
links lead, to which directories there are, or to what stands in them. -/
namespace SourceSweep.Files
open Text

namespace Store

/-- What becomes of a walk where files are new: one that met nothing may end at such a file or stop at
it, but it does not run into links. -/
def Opened (before after : Except Errno Location) : Prop :=
  after = before ∨ before = .error Errno.noEntry ∧ after ≠ .error Errno.linkLoop

theorem openedBind (first : Except Errno Unit) {before after : Except Errno Location}
    (opened : Opened before after) : Opened (first >>= fun _ => before) (first >>= fun _ => after) := by
  cases first with
  | error number => exact .inl rfl
  | ok => exact opened

theorem linkTargetIff {store : Store} {workDir : Location} {path target : Text} :
    store.linkTarget? workDir path = some target ↔
      store.atPath? workDir path = some (.link target) := by
  unfold linkTarget? atPath?
  cases store.findEntry workDir path with
  | error number => simp
  | ok place =>
    dsimp only
    rcases store.get? place with _ | ⟨_ | _ | _⟩ <;> simp

theorem walkNamesFromFile {store : Store}
    (follow : Location → Text → List Name → Except Errno Location) {here : Location}
    (notDir : store.isDir here = false) (names : List Name) :
    store.walkNames follow here names = .ok here ∨
      store.walkNames follow here names = .error Errno.notDirectory := by
  cases names with
  | nil => exact .inl rfl
  | cons name rest => exact .inr (by simp [walkNames, enter, notDir])

theorem namesInSorted (store : Store) (dir : Location) : Sorted (store.namesIn dir) := sortSorted _

section
variable {store later : Store} (grown : store.Grown later)
include grown

theorem Grown.walkNames {before after : Location → Text → List Name → Except Errno Location}
    (onward : ∀ dir target rest, Opened (before dir target rest) (after dir target rest))
    (here : Location) (names : List Name) :
    Opened (store.walkNames before here names) (later.walkNames after here names) := by
  induction names generalizing here with
  | nil => exact .inl rfl
  | cons name rest ih =>
    unfold Store.walkNames
    rw [grown.isDir, grown.enter]
    split_ifs with self here' up here'
    · exact ih here
    · exact .inl rfl
    · exact ih here.tail
    · exact .inl rfl
    cases store.enter here name with
    | error number => exact .inl rfl
    | ok next =>
      have aged := grown next
      dsimp only
      generalize found : store.get? next = node at aged ⊢
      generalize later.get? next = other at aged ⊢
      cases aged with
      | same =>
        rcases node with _ | ⟨_ | _ | target⟩
        · exact .inl rfl
        · exact ih next
        · exact ih next
        · exact onward here target rest
      | created mode bytes =>
        -- Nothing stood here: the walk may end at the new file now, or stop at it.
        have notDir : later.isDir next = false := by
          rw [grown.isDir]
          simp [Store.isDir, found]
        refine .inr ⟨rfl, ?_⟩
        rcases walkNamesFromFile after notDir rest with stopped | stopped
        · simp [stopped]
        · simp [stopped, Errno.notDirectory, Errno.linkLoop]
      | rewritten mode old bytes => exact ih next

theorem Grown.walk (links : Nat) (here : Location) (names : List Name) :
    Opened (store.walk links here names) (later.walk links here names) := by
  induction links generalizing here names with
  | zero => exact grown.walkNames (fun _ _ _ => .inl rfl) here names
  | succ links ih => exact grown.walkNames (fun _ _ _ => ih _ _) here names

theorem Grown.opened (workDir : Location) (path : Text) :
    Opened (store.find workDir path) (later.find workDir path) :=
  openedBind (accept path) (grown.walk linkLimit _ _)

theorem Grown.findsDir (workDir : Location) (path : Text) :
    later.findsDir workDir path = store.findsDir workDir path := by
  unfold Store.findsDir
  cases before : store.find workDir path with
  | ok place =>
    rw [grown.find before]
    exact grown.isDir place
  | error number =>
    cases after : later.find workDir path with
    | error number => rfl
    | ok place =>
      rcases grown.findBack after with found | ⟨absent, _⟩
      · cases before.symm.trans found
      · have same := grown.isDir place
        simpa [Store.isDir, absent] using same

theorem Grown.linkTarget (workDir : Location) (path : Text) :
    later.linkTarget? workDir path = store.linkTarget? workDir path := by
  refine Option.ext fun target => ?_
  rw [linkTargetIff, linkTargetIff, entryIff, entryIff]
  constructor
  · rintro ⟨place, found, ⟨closed, named⟩ | ⟨atDir, sought⟩⟩
    · exact ⟨place, grown.linkIff.mp found, .inl ⟨closed, grown.newPlaceIff.mp named⟩⟩
    · rcases grown.findBack sought with sought | ⟨_, mode, bytes, file⟩
      · exact ⟨place, grown.linkIff.mp found, .inr ⟨grown.atDirIff.mp atDir, sought⟩⟩
      · cases found.symm.trans file
  · rintro ⟨place, found, ⟨closed, named⟩ | ⟨atDir, sought⟩⟩
    · exact ⟨place, grown.linkIff.mpr found, .inl ⟨closed, grown.newPlaceIff.mpr named⟩⟩
    · exact ⟨place, grown.linkIff.mpr found, .inr ⟨grown.atDirIff.mpr atDir, grown.find sought⟩⟩

theorem Grown.entries : store.entries.length ≤ later.entries.length := by
  have within : store.entries.map Prod.fst ⊆ later.entries.map Prod.fst := fun location mem => by
    obtain ⟨⟨_, node⟩, listed, rfl⟩ := List.mem_map.mp mem
    have present := Option.ne_none_iff_exists'.mpr ⟨node, foundIff.mpr listed⟩
    obtain ⟨other, found⟩ := Option.ne_none_iff_exists'.mp (grown.stillThere present)
    exact List.mem_map.mpr ⟨_, foundIff.mp found, rfl⟩
  simpa using (List.subperm_of_subset store.distinct within).length_le

end
end Store

namespace Host
open Store

section
variable (host : Host) {store later : Store} (grown : store.Grown later)
include grown

theorem resolveGrown (path : Text) : host.resolve later path = host.resolve store path := by
  unfold resolve realPath
  rw [funext (grown.linkTarget host.workDir)]
  dsimp only
  generalize absolute host.workDir _ = real
  have opened := grown.opened host.workDir real
  unfold stat seek
  cases host.trouble? .stat real with
  | some trouble => rfl
  | none =>
    cases hasNull real with
    | true => rfl
    | false =>
      obtain same | ⟨unfound, noLoop⟩ := opened
      · rw [same]
        cases store.find host.workDir real <;> rfl
      · rw [unfound]
        cases sought : later.find host.workDir real with
        | ok place => rfl
        | error number =>
          have other : number ≠ Errno.linkLoop := fun same => noLoop (same ▸ sought)
          have absent : Errno.noEntry ≠ Errno.linkLoop := by decide
          simp [Except.map, OsError.ofErrno, OsError.number?, other, absent]

theorem isLinkGrown (path : Text) : host.isLink later path = host.isLink store path := by
  rw [isLink, isLink, grown.linkTarget]

theorem ownFilesGrown (paths : List Text) : host.ownFiles later paths = host.ownFiles store paths := by
  induction paths with
  | nil => rfl
  | cons path rest ih =>
    rw [ownFilesCons, ownFilesCons, ih, isLinkGrown host grown, isEngineFile, isEngineFile,
      resolveGrown host grown]

theorem leadsToDirGrown (path : Text) (dir : Location) (name : Name) :
    host.leadsToDir later path dir name = host.leadsToDir store path dir name := by
  unfold leadsToDir
  rw [grown.findsDir]
  have aged := grown (name :: dir)
  generalize store.get? (name :: dir) = node at aged ⊢
  generalize later.get? (name :: dir) = other at aged ⊢
  cases aged <;> rfl

theorem listGrown {path : Text} {dir : Location} (folder : Folder store path dir) :
    host.list later path = host.list store path := by
  unfold list seek
  simp only [folder.find, (folder.grown grown).find, grown.isDir]

end

theorem gatherCongr {first second : Text → Except Escape Scan} {paths : List Text}
    (same : ∀ path ∈ paths, first path = second path) :
    Scan.gather first paths = Scan.gather second paths := by
  induction paths with
  | nil => rfl
  | cons path rest ih =>
    rw [List.forall_mem_cons] at same
    rw [Scan.gather, Scan.gather, same.1, ih same.2]

section
variable {host : Host} {store : Store} (tree : store.Tree)
include tree

theorem belowFolder {path : Text} {dir : Location} (folder : Folder store path dir) {inner : Text}
    (mem : inner ∈ below host store path dir) : ∃ name, Folder store inner (name :: dir) := by
  obtain ⟨name, isDir, _, rfl⟩ := (memBelow tree (folder.within _)).mp mem
  exact ⟨name, folder.inner (tree.legalDir isDir) isDir⟩

/- A scan that may go as deep as the store has entries goes to the end: allowing more changes nothing. -/
theorem scanDeep {wanted : List Text} {depth depth' : Nat} {path : Text} {dir : Location}
    (folder : Folder store path dir) (deep : store.entries.length ≤ depth + dir.length)
    (deep' : store.entries.length ≤ depth' + dir.length) :
    host.scanBelow store wanted depth' path = host.scanBelow store wanted depth path := by
  -- The directory stands in the store, so neither scan has come to its limit there.
  have shallow := tree.shallow (dirPresent folder.isDir)
  induction depth generalizing depth' path dir with
  | zero => omega
  | succ depth ih =>
    cases depth' with
    | zero => omega
    | succ depth' =>
      cases listed : host.list store path with
      | error escape =>
        unfold scanBelow
        rw [listed]
        cases escape <;> rfl
      | ok place =>
        cases listSame (folder.within _) listed
        rw [scanStep listed, scanStep listed, gatherCongr fun inner mem => ?_]
        obtain ⟨name, inside⟩ := belowFolder tree folder mem
        exact ih inside (by rw [List.length_cons]; omega) (by rw [List.length_cons]; omega)
          (tree.shallow (dirPresent inside.isDir))

end

/-! Stores strewn with temporary files. Their names are of a kind that no scan asks for. -/

def TempLike (name : Name) : Prop := extension name = [] ∨ extension name = ".tmp".toList

theorem tempExtension (front : Text) :
    extension (front ++ ".tmp".toList) = [] ∨ extension (front ++ ".tmp".toList) = ".tmp".toList := by
  unfold extension
  rw [List.dropWhile_append]
  split
  · exact .inl rfl
  · right
    simp

theorem tempNameLike (target tag : Text) : TempLike (tempName target tag) := tempExtension _

theorem noDir (host : Host) {store : Store} (path : Text) {dir : Location} {name : Name}
    (absent : store.get? (name :: dir) = none) : host.leadsToDir store path dir name = false := by
  unfold leadsToDir
  rw [absent]

structure Strewn (store later : Store) : Prop where
  grown : store.Grown later
  fresh : ∀ dir name, store.get? (name :: dir) = none → later.get? (name :: dir) ≠ none → TempLike name

theorem Strewn.trans {store middle later : Store} (one : Strewn store middle) (two : Strewn middle later) :
    Strewn store later := by
  refine ⟨one.grown.trans two.grown, fun dir name absent present => ?_⟩
  by_cases between : middle.get? (name :: dir) = none
  · exact two.fresh dir name between present
  · exact one.fresh dir name absent between

section
variable {host : Host} {store later : Store} (strewn : Strewn store later)
include strewn

theorem Strewn.names {dir : Location} {keep : Name → Bool}
    (passed : ∀ name, TempLike name → store.get? (name :: dir) = none → keep name = false) :
    (later.namesIn dir).filter keep = (store.namesIn dir).filter keep := by
  refine Sorted.same ((namesInSorted later dir).filter keep) ((namesInSorted store dir).filter keep)
    ((namesInNodup later dir).filter keep) ((namesInNodup store dir).filter keep) fun name => ?_
  simp only [List.mem_filter, memNamesIn, ← Option.ne_none_iff_exists']
  refine and_congr_left fun kept => ⟨fun present absent => ?_, strewn.grown.stillThere⟩
  have left := passed name (strewn.fresh dir name absent present) absent
  exact absurd (left.symm.trans kept) Bool.false_ne_true

theorem Strewn.below (path : Text) (dir : Location) :
    below host later path dir = below host store path dir := by
  unfold Host.below
  simp only [leadsToDirGrown host strewn.grown, isLinkGrown host strewn.grown]
  rw [strewn.names fun name like absent => ?_]
  rw [noDir host path absent, Bool.false_and]

variable {wanted : List Text} (plain : [] ∉ wanted) (noTemp : ".tmp".toList ∉ wanted)
include plain noTemp

theorem Strewn.asked (path : Text) (dir : Location) :
    asked host later wanted path dir = asked host store wanted path dir := by
  unfold Host.asked
  simp only [leadsToDirGrown host strewn.grown]
  rw [strewn.names fun name like absent => ?_]
  have unasked : lower (extension name) ∉ wanted := by
    rcases like with kind | kind
    · rwa [kind]
    · rw [kind]
      exact noTemp
  simp [unasked]

theorem Strewn.scanBelow (tree : store.Tree) (depth : Nat) {path : Text} {dir : Location}
    (folder : Folder store path dir) :
    host.scanBelow later wanted depth path = host.scanBelow store wanted depth path := by
  induction depth generalizing path dir with
  | zero => rfl
  | succ depth ih =>
    have listing := listGrown host strewn.grown folder
    cases listed : host.list store path with
    | error escape =>
      unfold Host.scanBelow
      rw [listing, listed]
      cases escape <;> rfl
    | ok place =>
      cases listSame (folder.within _) listed
      rw [scanStep listed, scanStep (listing.trans listed), ownFilesGrown host strewn.grown,
        strewn.asked plain noTemp, strewn.below, gatherCongr fun inner mem => ?_]
      obtain ⟨name, inside⟩ := belowFolder tree folder mem
      exact ih inside

end

theorem Strewn.scan {host : Host} {store later : Store} (strewn : Strewn store later) (tree : store.Tree)
    {kinds : List Text} (plain : [] ∉ kinds.map lower) (noTemp : ".tmp".toList ∉ kinds.map lower)
    {path : Text} {dir : Location} (folder : Folder store path dir) :
    host.scan later kinds path = host.scan store kinds path := by
  have grows := strewn.grown.entries
  unfold Host.scan
  rw [strewn.scanBelow plain noTemp tree _ folder]
  exact scanDeep tree folder (by omega) (by omega)

end Host
end SourceSweep.Files
