import Mathlib.Data.List.Perm.Subperm
import SourceSweep.Proofs.Files.Route

/-! The directories that a scan comes to, and the files that it looks at there. -/
namespace SourceSweep.Files
open Text Store

/-- From a path and its place into directories below, none of them a link or ignored, each in one that
could be listed. -/
inductive Visits (host : Host) (store : Store) : Text → Location → Text → Location → Prop where
  | here (path : Text) (dir : Location) : Visits host store path dir path dir
  | into {path dir name inner spot} (listed : host.list store path = .ok dir)
      (isDir : store.isDir (name :: dir) = true) (kept : name ∉ ignoredDirs)
      (next : Visits host store (join path name) (name :: dir) inner spot) :
      Visits host store path dir inner spot

/-- An entry of a listed directory that is taken for a file of a wanted kind. Before it is scanned the
path to it is resolved. -/
structure Checked (host : Host) (store : Store) (wanted : List Text) (inner : Text) (spot : Location)
    (name : Name) : Prop where
  listed : host.list store inner = .ok spot
  named : name ∈ store.namesIn spot
  other : host.leadsToDir store inner spot name = false
  kind : lower (extension name) ∈ wanted
  noLink : host.isLink store (join inner name) = false

namespace Store

theorem Tree.above {store : Store} (tree : store.Tree) {location : Location}
    (present : store.get? location ≠ none) (count : Nat) : store.get? (location.drop count) ≠ none := by
  induction count with
  | zero => exact present
  | succ count ih =>
    obtain ⟨node, found⟩ := Option.ne_none_iff_exists'.mp ih
    have isDir := tree.inside _ (foundIff.mp found)
    rw [List.tail_drop] at isDir
    obtain ⟨mode, above⟩ := isDirIff.mp isDir
    exact Option.ne_none_iff_exists'.mpr ⟨_, above⟩

theorem Tree.shallow {store : Store} (tree : store.Tree) {location : Location}
    (present : store.get? location ≠ none) : location.length < store.entries.length := by
  let above := (List.range (location.length + 1)).map (location.drop ·)
  have once : above.Nodup := by
    refine List.Nodup.map_on (fun first mem second mem' same => ?_) List.nodup_range
    have lengths := congrArg List.length same
    rw [List.mem_range] at mem mem'
    simp only [List.length_drop] at lengths
    omega
  have within : above ⊆ store.entries.map Prod.fst := fun place mem => by
    obtain ⟨count, _, rfl⟩ := List.mem_map.mp mem
    obtain ⟨node, found⟩ := Option.ne_none_iff_exists'.mp (tree.above present count)
    exact List.mem_map_of_mem (foundIff.mp found)
  have bound := (List.subperm_of_subset once within).length_le
  simp only [above, List.length_map, List.length_range] at bound
  omega

theorem Folder.same {store : Store} {path : Text} {dir dir' : Location} (folder : Folder store path dir)
    (other : Folder store path dir') : dir = dir' :=
  (folder.within []).same (other.within [])

end Store

namespace Host

def OnlySystem (host : Host) : Prop := ∀ fault ∈ host.faults, ∀ text, fault.trouble ≠ .foreign text

theorem troubleSystem {host : Host} (system : host.OnlySystem) {call : Call} {path : Text}
    {trouble : Trouble} (fails : host.trouble? call path = some trouble) (paths : List Text) :
    ∃ error, trouble.escape paths = .system error := by
  obtain ⟨fault, found, rfl⟩ := Option.map_eq_some_iff.mp fails
  have listed := List.mem_of_find?_eq_some found
  cases trouble : fault.trouble with
  | errno number => exact ⟨_, rfl⟩
  | remark text => exact ⟨_, rfl⟩
  | foreign text => exact absurd trouble (system fault listed text)

theorem seekFails {host : Host} (system : host.OnlySystem) {store : Store} {call : Call} {path : Text}
    {escape : Escape} (fails : host.seek store call path = .error escape) :
    escape = .nullInPath ∧ hasNull path = true ∨ ∃ error, escape = .system error := by
  unfold seek at fails
  split at fails
  · rename_i trouble found
    obtain ⟨error, named⟩ := troubleSystem system found [path]
    cases fails
    exact .inr ⟨error, named⟩
  · split at fails
    · rename_i null
      cases fails
      exact .inl ⟨rfl, null⟩
    · split at fails <;> cases fails
      exact .inr ⟨_, rfl⟩

theorem listFails {host : Host} (system : host.OnlySystem) {store : Store} {path : Text}
    (clean : hasNull path = false) {escape : Escape} (fails : host.list store path = .error escape) :
    ∃ error, escape = .system error := by
  unfold list at fails
  cases sought : host.seek store .list path with
  | error escape' =>
    rw [sought] at fails
    cases fails
    exact (seekFails system sought).resolve_left fun null => absurd (clean.symm.trans null.2) (by decide)
  | ok place =>
    rw [sought] at fails
    simp only [bind, Except.bind] at fails
    split at fails <;> cases fails
    exact ⟨_, rfl⟩

end Host

namespace Visits

section
variable {host : Host} {store : Store} {path inner : Text} {dir spot : Location}

theorem listed (visits : Visits host store path dir inner spot)
    (found : host.list store inner = .ok spot) : host.list store path = .ok dir := by
  cases visits with
  | here => exact found
  | into listed => exact listed

variable (tree : store.Tree)
include tree

theorem folder (visits : Visits host store path dir inner spot) (folder : Folder store path dir) :
    Folder store inner spot := by
  induction visits with
  | here => exact folder
  | into listed isDir kept next ih =>
    exact ih (folder.inner (tree.legalDir isDir) isDir)

theorem within (visits : Visits host store path dir inner spot)
    (within : Within store host.workDir path dir) : Within store host.workDir inner spot := by
  induction visits with
  | here => exact within
  | into listed isDir kept next ih =>
    exact ih (within.inner (tree.legalDir isDir) isDir)

theorem clean (visits : Visits host store path dir inner spot) (clean : hasNull path = false) :
    hasNull inner = false := by
  cases visits with
  | here => exact clean
  | into listed isDir kept next =>
    exact (next.within tree (Host.listInner tree listed isDir)).clean

theorem placed {place : Location} (visits : Visits host store path dir inner spot)
    (found : host.list store inner = .ok place) : ∃ start, Visits host store path start inner place := by
  cases visits with
  | here => exact ⟨place, .here path place⟩
  | into listed isDir kept next =>
    cases Host.listSame (next.within tree (Host.listInner tree listed isDir)) found
    exact ⟨dir, .into listed isDir kept next⟩

theorem before {start : Location} {name : Name} (listed : host.list store path = .ok dir)
    (isDir : store.isDir (name :: dir) = true) (kept : name ∉ ignoredDirs)
    (visits : Visits host store (join path name) start inner spot) :
    ∃ place, Visits host store path dir inner place := by
  cases visits with
  | here => exact ⟨name :: dir, .into listed isDir kept (.here _ _)⟩
  | into listed' isDir' kept' visits =>
    cases Host.listSame (Host.listInner tree listed isDir) listed'
    exact ⟨spot, .into listed isDir kept (.into listed' isDir' kept' visits)⟩

theorem names (visits : Visits host store path dir inner spot) : ∃ names : List Name,
    inner = names.foldl join path ∧ slotNames inner = slotNames path ++ names ∧
      spot = names.reverse ++ dir := by
  induction visits with
  | here path dir => exact ⟨[], rfl, by simp, rfl⟩
  | @into path dir name inner spot listed isDir kept next ih =>
    have legal := tree.legalDir isDir
    obtain ⟨names, rfl, slots, rfl⟩ := ih
    rw [slotNamesJoin _ legal.solid legal.given] at slots
    exact ⟨name :: names, rfl, by simp [slots], by simp⟩

end
end Visits

namespace Host

theorem memFilesAt {host : Host} {store : Store} {wanted : List Text} {path file : Text} :
    file ∈ host.filesAt store wanted path ↔ ∃ dir name, Checked host store wanted path dir name ∧
      file = join path name ∧ host.isEngineFile store file = .ok false := by
  unfold filesAt
  cases listed : host.list store path with
  | error escape =>
    refine ⟨(nomatch ·), ?_⟩
    rintro ⟨dir, name, checked, _⟩
    cases listed.symm.trans checked.listed
  | ok dir =>
    simp only [List.mem_filter, memAsked, takesIff]
    constructor
    · rintro ⟨⟨name, named, other, kind, rfl⟩, noLink, foreign⟩
      exact ⟨dir, name, ⟨listed, named, other, kind, noLink⟩, rfl, foreign⟩
    · rintro ⟨dir', name, checked, rfl, foreign⟩
      cases listed.symm.trans checked.listed
      exact ⟨⟨name, checked.named, checked.other, checked.kind, rfl⟩, checked.noLink, foreign⟩

section
variable {host : Host} {store : Store} (tree : store.Tree)
include tree

theorem routeVisits {depth : Nat} {path inner : Text} (mem : inner ∈ host.route store depth path) :
    ∃ dir spot, Visits host store path dir inner spot := by
  induction depth generalizing path with
  | zero => cases mem
  | succ depth ih =>
    rcases List.mem_cons.mp mem with rfl | mem
    · exact ⟨[], [], .here inner []⟩
    · cases listed : host.list store path with
      | error escape => simp [listed] at mem
      | ok dir =>
        have within := listWithin listed
        simp only [listed, List.mem_flatMap] at mem
        obtain ⟨next, among, mem⟩ := mem
        obtain ⟨name, isDir, kept, rfl⟩ := (memBelow tree within).mp among
        obtain ⟨_, _, visits⟩ := ih mem
        exact ⟨dir, visits.before tree listed isDir kept⟩

theorem visitsRoute {depth : Nat} {path inner : Text} {dir spot : Location} (deeper : 0 < depth)
    (deep : ∀ place, host.list store path = .ok place → store.entries.length ≤ depth + place.length)
    (visits : Visits host store path dir inner spot) : inner ∈ host.route store depth path := by
  induction visits generalizing depth with
  | here path dir =>
    obtain ⟨depth, rfl⟩ := Nat.exists_eq_add_of_lt deeper
    rw [Nat.zero_add]
    exact List.mem_cons_self
  | @into path dir name inner spot listed isDir kept visits ih =>
    have bound := deep dir listed
    have shallow := tree.shallow (dirPresent isDir)
    rw [List.length_cons] at shallow
    obtain ⟨depth, rfl⟩ := Nat.exists_eq_add_of_lt deeper
    rw [Nat.zero_add] at bound ⊢
    refine List.mem_cons_of_mem path ?_
    simp only [listed, List.mem_flatMap]
    refine ⟨_, (memBelow tree (listWithin listed)).mpr ⟨name, isDir, kept, rfl⟩, ih (by omega) fun place found => ?_⟩
    cases listSame (listInner tree listed isDir) found
    rw [List.length_cons]
    omega

/- No directory is come to twice: the names on the way tell them apart. -/
theorem routeOnce (depth : Nat) (path : Text) : (host.route store depth path).Nodup := by
  induction depth generalizing path with
  | zero => exact .nil
  | succ depth ih =>
    rw [route, List.nodup_cons]
    cases listed : host.list store path with
    | error escape => simp
    | ok dir =>
      have within := listWithin listed
      have behind : ∀ next ∈ below host store path dir, ∃ name, join path name = next ∧
          ∀ inner ∈ host.route store depth next, ∃ rest, slotNames inner = slotNames path ++ name :: rest := by
        intro next among
        obtain ⟨name, isDir, kept, rfl⟩ := (memBelow tree within).mp among
        refine ⟨name, rfl, fun inner mem => ?_⟩
        have legal := tree.legalDir isDir
        obtain ⟨_, _, visits⟩ := routeVisits tree mem
        obtain ⟨rest, _, slots, _⟩ := visits.names tree
        rw [slotNamesJoin _ legal.solid legal.given] at slots
        exact ⟨rest, by simp [slots]⟩
      refine ⟨fun mem => ?_, List.nodup_flatMap.mpr ⟨fun next _ => ih next, ?_⟩⟩
      · obtain ⟨next, among, mem⟩ := List.mem_flatMap.mp mem
        obtain ⟨name, _, inside⟩ := behind next among
        obtain ⟨rest, slots⟩ := inside path mem
        simp at slots
      · refine ((joinedOnce tree path dir _).filter _).imp_of_mem fun {next other} among among' differ => ?_
        obtain ⟨name, rfl, inside⟩ := behind next among
        obtain ⟨name', rfl, inside'⟩ := behind other among'
        rintro inner mem mem'
        obtain ⟨rest, slots⟩ := inside inner mem
        obtain ⟨rest', slots'⟩ := inside' inner mem'
        rw [slots] at slots'
        exact differ (by simp_all)

theorem routeIff {path inner : Text} : inner ∈ host.route store (store.entries.length + 1) path ↔
    ∃ dir spot, Visits host store path dir inner spot :=
  ⟨routeVisits tree, fun ⟨_, _, visits⟩ => visitsRoute tree (by omega) (fun _ _ => by omega) visits⟩

variable {kinds : List Text} {path : Text}

theorem memScan {scan : Scan} (scanned : host.scan store kinds path = .ok scan) {file : Text} :
    file ∈ scan.files ↔ ∃ dir inner spot name, Visits host store path dir inner spot ∧
      Checked host store (kinds.map lower) inner spot name ∧ file = join inner name ∧
      host.isEngineFile store file = .ok false := by
  rw [scanRoute scanned, List.mem_flatMap]
  simp only [routeIff tree, memFilesAt]
  constructor
  · rintro ⟨inner, ⟨_, _, visits⟩, spot, name, checked, same, foreign⟩
    obtain ⟨dir, visits⟩ := visits.placed tree checked.listed
    exact ⟨dir, inner, spot, name, visits, checked, same, foreign⟩
  · rintro ⟨dir, inner, spot, name, visits, checked, same, foreign⟩
    exact ⟨inner, ⟨dir, spot, visits⟩, spot, name, checked, same, foreign⟩

theorem scanTold (system : host.OnlySystem) (clean : hasNull path = false) :
    (∃ scan, host.scan store kinds path = .ok scan) ↔ ∀ dir inner spot name,
      Visits host store path dir inner spot → Checked host store (kinds.map lower) inner spot name →
      ∃ real, host.resolve store (join inner name) = .ok real := by
  unfold scan
  rw [scanEndsIff]
  simp only [routeIff tree]
  constructor
  · intro passes dir inner spot name visits checked
    exact (passes inner ⟨dir, spot, visits⟩).resolved spot checked.listed _
      (memAsked.mpr ⟨name, checked.named, checked.other, checked.kind, rfl⟩) checked.noLink
  · rintro told inner ⟨_, _, visits⟩
    refine ⟨fun escape fails => listFails system (visits.clean tree clean) fails, ?_⟩
    intro spot listed file mem noLink
    obtain ⟨dir, visits⟩ := visits.placed tree listed
    obtain ⟨name, named, other, kind, rfl⟩ := memAsked.mp mem
    exact told dir inner spot name visits ⟨listed, named, other, kind, noLink⟩

theorem scanOnce {scan : Scan} (scanned : host.scan store kinds path = .ok scan) : scan.files.Nodup := by
  rw [scanRoute scanned]
  refine List.nodup_flatMap.mpr ⟨fun inner _ => ?_, ?_⟩
  · unfold filesAt
    split
    · rename_i dir listed
      exact (joinedOnce tree inner dir _).filter _
    · exact .nil
  · refine (routeOnce tree _ path).imp_of_mem fun {inner other} mem mem' differ file among among' => ?_
    obtain ⟨_, _, visits⟩ := routeVisits tree mem
    obtain ⟨_, _, visits'⟩ := routeVisits tree mem'
    obtain ⟨names, rfl, slots, _⟩ := visits.names tree
    obtain ⟨names', rfl, slots', _⟩ := visits'.names tree
    obtain ⟨_, name, checked, rfl, _⟩ := memFilesAt.mp among
    obtain ⟨_, name', checked', same, _⟩ := memFilesAt.mp among'
    obtain ⟨node, held⟩ := memNamesIn.mp checked.named
    obtain ⟨node', held'⟩ := memNamesIn.mp checked'.named
    have legal := legalOf tree held
    have legal' := legalOf tree held'
    have equal := congrArg slotNames same
    rw [slotNamesJoin _ legal.solid legal.given, slotNamesJoin _ legal'.solid legal'.given, slots, slots',
      List.append_assoc, List.append_assoc] at equal
    exact differ (by rw [(List.append_inj' (List.append_cancel_left equal) rfl).1])

theorem scanFailures {scan : Scan} (scanned : host.scan store kinds path = .ok scan) :
    ∃ unlisted : List Text, unlisted.Nodup ∧
      (∀ inner, inner ∈ unlisted ↔ (∃ dir spot, Visits host store path dir inner spot) ∧
        ∃ error, host.list store inner = .error (.system error)) ∧
      scan.failures.map some = unlisted.map (host.failureAt store) := by
  rw [scanRoute scanned]
  generalize onRoute : host.route store (store.entries.length + 1) path = route
  refine ⟨route.filter fun inner => (host.failureAt store inner).isSome, ?_, fun inner => ?_, ?_⟩
  · exact (onRoute ▸ routeOnce tree _ path).filter _
  · rw [List.mem_filter, ← onRoute, routeIff tree]
    refine and_congr_right fun _ => ?_
    unfold failureAt
    split <;> simp_all
  · clear onRoute
    induction route with
    | nil => rfl
    | cons inner rest ih =>
      cases failed : host.failureAt store inner <;> simp_all

end
end Host
end SourceSweep.Files
