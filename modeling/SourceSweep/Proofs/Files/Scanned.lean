import Mathlib.Data.List.Nodup
import SourceSweep.Proofs.Files.Within

/-! What a scan finds: files of the store, each at a place of its own. -/
namespace SourceSweep.Files
open Text Store

structure Sites (store : Store) (dir : Location) (wanted : List Text) (sites : List Site) : Prop where
  standing : ∀ site ∈ sites, Standing store site
  below : ∀ site ∈ sites, dir <:+ site.dir
  kind : ∀ site ∈ sites, lower (extension site.name) ∈ wanted
  apart : (sites.map Site.place).Nodup

theorem noSites (store : Store) (dir : Location) (wanted : List Text) : Sites store dir wanted [] :=
  ⟨by simp, by simp, by simp, .nil⟩

namespace Host

def asked (host : Host) (store : Store) (wanted : List Text) (path : Text) (dir : Location) :
    List Text :=
  ((store.namesIn dir).filter fun name =>
    !host.leadsToDir store path dir name && wanted.contains (lower (extension name))).map (join path)

def below (host : Host) (store : Store) (path : Text) (dir : Location) : List Text :=
  (((store.namesIn dir).filter fun name =>
    host.leadsToDir store path dir name && !ignoredDirs.contains name).map (join path)).filter
      (!host.isLink store ·)

theorem memAsked {host : Host} {store : Store} {wanted : List Text} {path file : Text} {dir : Location} :
    file ∈ asked host store wanted path dir ↔ ∃ name ∈ store.namesIn dir,
      host.leadsToDir store path dir name = false ∧ lower (extension name) ∈ wanted ∧
        join path name = file := by
  simp [asked, and_assoc]

theorem memBelow {host : Host} {store : Store} (tree : store.Tree) {path inner : Text} {dir : Location}
    (within : Within store host.workDir path dir) : inner ∈ below host store path dir ↔
      ∃ name, store.isDir (name :: dir) = true ∧ name ∉ ignoredDirs ∧ join path name = inner := by
  simp only [below, List.mem_filter, List.mem_map, Bool.and_eq_true, Bool.not_eq_true',
    List.contains_eq_mem, decide_eq_false_iff_not]
  constructor
  · rintro ⟨⟨name, ⟨named, wide, kept⟩, rfl⟩, noLink⟩
    obtain ⟨node, held⟩ := memNamesIn.mp named
    exact ⟨name, (entersIff within (legalOf tree held)).mp ⟨wide, noLink⟩, kept, rfl⟩
  · rintro ⟨name, isDir, kept, rfl⟩
    obtain ⟨mode, held⟩ := isDirIff.mp isDir
    obtain ⟨wide, noLink⟩ := (entersIff within (tree.legalDir isDir)).mpr isDir
    exact ⟨⟨name, ⟨memNamesIn.mpr ⟨_, held⟩, wide, kept⟩, rfl⟩, noLink⟩

theorem joinedOnce {store : Store} (tree : store.Tree) (path : Text) (dir : Location)
    (keep : Name → Bool) : (((store.namesIn dir).filter keep).map (join path)).Nodup := by
  refine List.Nodup.map_on (fun name mem other mem' same => ?_) ((namesInNodup store dir).filter keep)
  obtain ⟨node, held⟩ := memNamesIn.mp (List.mem_filter.mp mem).1
  obtain ⟨node', held'⟩ := memNamesIn.mp (List.mem_filter.mp mem').1
  have legal := legalOf tree held
  have legal' := legalOf tree held'
  have slots := congrArg slotNames same
  rw [slotNamesJoin _ legal.solid legal.given, slotNamesJoin _ legal'.solid legal'.given] at slots
  simpa using slots

theorem scanStep {host : Host} {store : Store} {wanted : List Text} {depth : Nat} {path : Text}
    {dir : Location} (listed : host.list store path = .ok dir) :
    host.scanBelow store wanted (depth + 1) path =
      host.ownFiles store (asked host store wanted path dir) >>= fun files =>
        Scan.gather (host.scanBelow store wanted depth) (below host store path dir) >>= fun inner =>
          .ok ((Scan.mk files []).append inner) := by
  unfold scanBelow
  rw [listed]
  rfl

theorem ownFilesSublist {host : Host} {store : Store} {paths files : List Text}
    (own : host.ownFiles store paths = .ok files) :
    files.Sublist paths ∧ ∀ path ∈ files, host.isLink store path = false := by
  induction paths generalizing files with
  | nil =>
    cases own
    exact ⟨.slnil, by simp⟩
  | cons path rest ih =>
    unfold ownFiles at own
    cases link : host.isLink store path with
    | true =>
      simp only [link, if_true] at own
      obtain ⟨skipped, skips, own⟩ := bindOkIff.mp own
      cases skips
      obtain ⟨later, found, own⟩ := bindOkIff.mp own
      obtain ⟨sublist, plain⟩ := ih found
      cases own
      exact ⟨sublist.cons path, plain⟩
    | false =>
      simp only [link, Bool.false_eq_true, if_false] at own
      obtain ⟨skipped, _, own⟩ := bindOkIff.mp own
      obtain ⟨later, found, own⟩ := bindOkIff.mp own
      obtain ⟨sublist, plain⟩ := ih found
      cases own
      cases skipped with
      | true => exact ⟨sublist.cons path, plain⟩
      | false => exact ⟨sublist.cons_cons path, List.forall_mem_cons.mpr ⟨link, plain⟩⟩

end Host

section
variable {store : Store} {dir : Location} {wanted : List Text}

theorem suffixHead {first second : Name} {location : Location} (one : (first :: dir) <:+ location)
    (two : (second :: dir) <:+ location) : first = second := by
  have within := List.suffix_of_suffix_length_le one two (Nat.le_refl _)
  exact (List.cons.inj (within.eq_of_length rfl)).1

theorem Sites.append {first second : List Site} (one : Sites store dir wanted first)
    (two : Sites store dir wanted second)
    (differ : ∀ site ∈ first, ∀ other ∈ second, site.dir ≠ other.dir) :
    Sites store dir wanted (first ++ second) where
  standing site mem := (List.mem_append.mp mem).elim (one.standing site) (two.standing site)
  below site mem := (List.mem_append.mp mem).elim (one.below site) (two.below site)
  kind site mem := (List.mem_append.mp mem).elim (one.kind site) (two.kind site)
  apart := by
    rw [List.map_append, List.nodup_append]
    refine ⟨one.apart, two.apart, fun place mem place' mem' same => ?_⟩
    obtain ⟨site, first, rfl⟩ := List.mem_map.mp mem
    obtain ⟨other, second, rfl⟩ := List.mem_map.mp mem'
    exact differ site first other second (List.cons.inj same).2

theorem Sites.widen {name : Name} {sites : List Site} (inner : Sites store (name :: dir) wanted sites) :
    Sites store dir wanted sites :=
  ⟨inner.standing, fun site mem => (List.suffix_cons name dir).trans (inner.below site mem),
    inner.kind, inner.apart⟩

theorem gatherSites {scanOne : Text → Except Escape Scan} {path : Text} {names : List Name}
    (once : names.Nodup)
    (each : ∀ name ∈ names, ∀ scan, scanOne (join path name) = .ok scan →
      ∃ sites, scan.files = sites.map Site.path ∧ Sites store (name :: dir) wanted sites)
    {scan : Scan} (gathered : Scan.gather scanOne (names.map (join path)) = .ok scan) :
    ∃ sites, scan.files = sites.map Site.path ∧ Sites store dir wanted sites ∧
      ∀ site ∈ sites, ∃ name ∈ names, (name :: dir) <:+ site.dir := by
  induction names generalizing scan with
  | nil =>
    cases gathered
    exact ⟨[], rfl, noSites store dir wanted, by simp⟩
  | cons name rest ih =>
    obtain ⟨new, once⟩ := List.nodup_cons.mp once
    obtain ⟨first, one, gathered⟩ := bindOkIff.mp gathered
    obtain ⟨later, two, gathered⟩ := bindOkIff.mp gathered
    cases gathered
    obtain ⟨sites, files, inner⟩ := each name List.mem_cons_self first one
    obtain ⟨others, files', outer, origins⟩ :=
      ih once (fun other mem => each other (List.mem_cons_of_mem name mem)) two
    refine ⟨sites ++ others, by simp [Scan.append, files, files'], inner.widen.append outer ?_, ?_⟩
    · intro site mem other mem' same
      obtain ⟨name', listed, under⟩ := origins other mem'
      have below := inner.below site mem
      rw [same] at below
      exact new (suffixHead below under ▸ listed)
    · intro site mem
      rcases List.mem_append.mp mem with mem | mem
      · exact ⟨name, List.mem_cons_self, inner.below site mem⟩
      · obtain ⟨name', listed, under⟩ := origins site mem
        exact ⟨name', List.mem_cons_of_mem name listed, under⟩

end

namespace Host

section
variable {host : Host} {store : Store} (tree : store.Tree) {wanted : List Text}
include tree

theorem ownSites {path : Text} {dir : Location} (folder : Folder store path dir) {files : List Text}
    (own : host.ownFiles store (asked host store wanted path dir) = .ok files) :
    ∃ sites, files = sites.map Site.path ∧ Sites store dir wanted sites ∧
      ∀ site ∈ sites, site.dir = dir := by
  obtain ⟨sublist, plain⟩ := ownFilesSublist own
  obtain ⟨names, among, rfl⟩ := List.sublist_map_iff.mp sublist
  refine ⟨names.map fun name => ⟨path, dir, name⟩, by simp, ⟨?_, ?_, ?_, ?_⟩, by simp⟩
  · intro site mem
    obtain ⟨name, chosen, rfl⟩ := List.mem_map.mp mem
    obtain ⟨listed, kind⟩ := List.mem_filter.mp (among.subset chosen)
    obtain ⟨node, found⟩ := memNamesIn.mp listed
    have legal := legalOf tree found
    refine ⟨folder, legal, by simp [found], fun taken => ?_⟩
    have other : host.leadsToDir store path dir name = false := by
      simpa using (Bool.and_eq_true_iff.mp kind).1
    have noLink := plain _ (List.mem_map_of_mem chosen)
    obtain file | ⟨_, refused⟩ := (offersIff (folder.within _) legal).mp ⟨listed, other, noLink⟩
    · exact file
    · exact absurd taken refused
  · intro site mem
    obtain ⟨name, _, rfl⟩ := List.mem_map.mp mem
    exact List.suffix_refl dir
  · intro site mem
    obtain ⟨name, chosen, rfl⟩ := List.mem_map.mp mem
    have kind := (List.mem_filter.mp (among.subset chosen)).2
    exact List.contains_iff_mem.mp (Bool.and_eq_true_iff.mp kind).2
  · have once := ((namesInNodup store dir).filter _).sublist among
    rw [List.map_map]
    exact List.Pairwise.map _ (fun name other differ same => differ (List.cons.inj same).1) once

theorem scanBelowSites {depth : Nat} {path : Text} {dir : Location}
    (folder : Folder store path dir) {scan : Scan}
    (scanned : host.scanBelow store wanted depth path = .ok scan) :
    ∃ sites, scan.files = sites.map Site.path ∧ Sites store dir wanted sites := by
  induction depth generalizing path dir scan with
  | zero =>
    cases scanned
    exact ⟨[], rfl, noSites store dir wanted⟩
  | succ depth ih =>
    cases listed : host.list store path with
    | error escape =>
      unfold scanBelow at scanned
      rw [listed] at scanned
      cases escape <;> cases scanned
      exact ⟨[], rfl, noSites store dir wanted⟩
    | ok place =>
      cases listSame (folder.within _) listed
      rw [scanStep listed] at scanned
      obtain ⟨files, own, scanned⟩ := bindOkIff.mp scanned
      obtain ⟨inner, gathered, scanned⟩ := bindOkIff.mp scanned
      cases scanned
      obtain ⟨sites, rfl, ownOnes, atDir⟩ := ownSites tree folder own
      rw [below, List.filter_map] at gathered
      have once := ((namesInNodup store dir).filter (fun name =>
        host.leadsToDir store path dir name && !ignoredDirs.contains name)).filter
          ((!host.isLink store ·) ∘ join path)
      obtain ⟨others, files, outer, origins⟩ := gatherSites once (fun name mem scan found => by
        obtain ⟨mem, noLink⟩ := List.mem_filter.mp mem
        obtain ⟨listed, wide⟩ := List.mem_filter.mp mem
        obtain ⟨node, held⟩ := memNamesIn.mp listed
        have legal := legalOf tree held
        have isDir := (entersIff (folder.within _) legal).mp
          ⟨(Bool.and_eq_true_iff.mp wide).1, by simpa using noLink⟩
        exact ih (folder.inner legal isDir) found) gathered
      refine ⟨sites ++ others, by simp [Scan.append, files], ownOnes.append outer ?_⟩
      intro site mem other mem' same
      obtain ⟨name, _, under⟩ := origins other mem'
      rw [← same, atDir site mem] at under
      exact absurd under.length_le (by simp)

end
end Host
end SourceSweep.Files
