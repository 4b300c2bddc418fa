import SourceSweep.Proofs.Files.Standing

/-! Editing files one after the other. What editing a file comes to, and what the file holds then, can
be told from the store before the first edit: no edit gets in the way of another. -/
namespace SourceSweep.Files
open Text Store

abbrev Edit := Text → Except Escape Text

namespace Host

def rewrite (host : Host) (edit : Edit) (store : Store) (path : Text) :
    Except Failure (Text × Text) × Store :=
  match host.read store path with
  | .error failure => (.error failure, store)
  | .ok old =>
    match edit old with
    | .error escape => (.error (.escape escape), store)
    | .ok new =>
      if new = old then (.ok (old, new), store)
      else match host.write store path new with
        | (.ok (), store) => (.ok (old, new), store)
        | (.error failure, store) => (.error failure, store)

def settled (outcome : Except Failure (Text × Text)) (node : Option Node) : Option Node :=
  match outcome, node with
  | .ok (old, new), some (.file mode bytes) =>
    some (.file mode (if new = old then bytes else Utf8.encode new))
  | _, node => node

structure Leftover (host : Host) (store : Store) (site : Site) (location : Location) : Prop where
  taken : accept site.path = .ok ()
  absent : store.get? location = none
  unremoved : host.trouble? .removeTemp site.path ≠ none
  named : ∃ tag ∈ host.tags, location = tempName site.path tag :: site.dir

structure Rewritten (host : Host) (store : Store) (site : Site)
    (outcome : Except Failure (Text × Text)) (after : Store) : Prop where
  grown : store.Grown after
  held : after.get? site.place = settled outcome (store.get? site.place)
  others : ∀ location, location ≠ site.place → after.get? location ≠ store.get? location →
    Leftover host store site location

theorem rewrittenSelf (host : Host) (store : Store) (site : Site) (failure : Failure) :
    Rewritten host store site (.error failure) store :=
  ⟨store.grownSelf, rfl, fun _ _ changed => absurd rfl changed⟩

section
variable {host : Host} {store : Store} {site : Site} (standing : Standing store site)
include standing

theorem leftBeside (plain : host.PlainTags) (taken : accept site.path = .ok ()) {after : Store}
    (kept : Kept host store after site.path)
    {location : Location} (changed : after.get? location ≠ store.get? location) :
    Leftover host store site location := by
  refine ⟨taken, ?_, fun removed => changed (kept.clean removed location), ?_⟩
  · cases found : store.get? location with
    | none => rfl
    | some node => exact absurd ((kept.present location node found).trans found.symm) changed
  · obtain ⟨⟨path, listed, named⟩, _⟩ := kept.leftover location changed
    rw [tempPathsOf standing] at listed
    obtain ⟨tag, mem, rfl⟩ := List.mem_map.mp listed
    rw [tempPlace standing (plain tag mem).1] at named
    obtain ⟨_, _, entered⟩ := bindOkIff.mp named
    exact ⟨tag, mem, (enterOkIff.mp entered).2.2⟩

theorem writeRewrites (plain : host.PlainTags) (taken : accept site.path = .ok ()) {old new : Text}
    (changed : new ≠ old) : Rewritten host store site
      ((host.write store site.path new).1.map fun _ => (old, new)) (host.write store site.path new).2 := by
  obtain ⟨mode, bytes, found⟩ := standing.file taken
  have named : store.newPlace host.workDir site.path = .ok site.place := by
    rw [standing.newPlace, taken]
    rfl
  have outcome := writeOutcome host store site.path new
  generalize host.write store site.path new = step at outcome ⊢
  obtain ⟨result, after⟩ := step
  cases result with
  | ok =>
    obtain ⟨place, replaced⟩ := outcome
    cases replaced.named.symm.trans named
    have file := replaced.file
    rw [standing.node _ taken, found] at file
    refine ⟨replaced.grown (.inr ⟨bytes, ?_⟩), ?_, fun location differ changed => ?_⟩
    · rw [standing.node _ taken, found]
      rfl
    · simpa [Except.map, settled, found, changed, Node.mode] using file
    · exact absurd (replaced.others location differ) changed
  | error failure =>
    have kept : Kept host store after site.path := outcome
    have closed := joinClosed standing.legal.toSolidName site.folder
    exact ⟨kept.grown, kept.entry plain closed named, fun _ _ => leftBeside standing plain taken kept⟩

theorem rewritten (plain : host.PlainTags) (edit : Edit) :
    Rewritten host store site (host.rewrite edit store site.path).1
      (host.rewrite edit store site.path).2 := by
  unfold rewrite
  split
  · exact rewrittenSelf host store site _
  · rename_i old found
    split
    · exact rewrittenSelf host store site _
    · rename_i new edited
      split_ifs with same
      · obtain ⟨mode, bytes, held, _⟩ := readHeld standing found
        exact ⟨store.grownSelf, by simp [settled, held, same], fun _ _ changed => absurd rfl changed⟩
      · have written := writeRewrites standing plain (readTaken standing found) same
        generalize host.write store site.path new = step at written ⊢
        obtain ⟨result, after⟩ := step
        cases result <;> exact written

end

theorem Leftover.earlier {host : Host} {store later : Store} (grown : store.Grown later) {site : Site}
    {location : Location} (left : Leftover host later site location) : Leftover host store site location := by
  refine ⟨left.taken, ?_, left.unremoved, left.named⟩
  by_contra present
  exact grown.stillThere present left.absent

theorem besideApart {host : Host} {store : Store} {site other : Site} (here : Standing store site)
    (there : Standing store other) (plain : host.PlainTags) {tag tag' : Text} (mem : tag ∈ host.tags)
    (mem' : tag' ∈ host.tags)
    (same : tempName site.path tag :: site.dir = tempName other.path tag' :: other.dir) :
    site.place = other.place := by
  obtain ⟨sameName, sameDir⟩ := List.cons.inj same
  have sameBase := tempNameBase (plain tag mem).2 (plain tag' mem').2 sameName
  rw [(joinApart here.folder.given here.folder.closed here.legal.toSolidName).1,
    (joinApart there.folder.given there.folder.closed there.legal.toSolidName).1] at sameBase
  rw [Site.place, Site.place, sameBase, sameDir]

structure Swept (host : Host) (edit : Edit) (store : Store) (done : List Site) (now : Store) :
    Prop where
  grown : store.Grown now
  held : ∀ site ∈ done,
    now.get? site.place = settled (host.rewrite edit store site.path).1 (store.get? site.place)
  others : ∀ location, (∀ site ∈ done, location ≠ site.place) →
    now.get? location ≠ store.get? location → ∃ site ∈ done, Leftover host store site location

theorem sweptNone (host : Host) (edit : Edit) (store : Store) : Swept host edit store [] store :=
  ⟨store.grownSelf, by simp, fun _ _ changed => absurd rfl changed⟩

section
variable {host : Host} {edit : Edit} {store now : Store} {done : List Site}
  (swept : Swept host edit store done now)
include swept

theorem Swept.untouched {location : Location} (present : store.get? location ≠ none)
    (apart : ∀ site ∈ done, location ≠ site.place) : now.get? location = store.get? location := by
  by_contra changed
  obtain ⟨_, _, left⟩ := swept.others location apart changed
  exact present left.absent

variable (standing : ∀ site ∈ done, Standing store site) {site : Site} (here : Standing store site)
  (apart : ∀ other ∈ done, site.place ≠ other.place)
include here apart

theorem Swept.read : host.read now site.path = host.read store site.path :=
  readStanding here (here.grown swept.grown) (swept.untouched here.present apart)

include standing

theorem Swept.makeTemp (plain : host.PlainTags) :
    host.makeTemp now site.path = host.makeTemp store site.path := by
  refine makeTempSame here swept.grown plain fun tag mem free => ?_
  by_contra taken
  have elsewhere : ∀ other ∈ done, tempName site.path tag :: site.dir ≠ other.place := by
    intro other mem same
    exact (standing other mem).present (same ▸ free)
  have changed : now.get? (tempName site.path tag :: site.dir) ≠
      store.get? (tempName site.path tag :: site.dir) := by
    rwa [free]
  obtain ⟨other, listed, left⟩ := swept.others _ elsewhere changed
  obtain ⟨tag', mem', same⟩ := left.named
  exact apart other listed (besideApart here (standing other listed) plain mem mem' same)

theorem Swept.rewrite (plain : host.PlainTags) (other : Edit) :
    (host.rewrite other now site.path).1 = (host.rewrite other store site.path).1 := by
  unfold Host.rewrite
  rw [swept.read here apart]
  cases found : host.read store site.path with
  | error failure => rfl
  | ok old =>
    dsimp only
    cases other old with
    | error escape => rfl
    | ok new =>
      dsimp only
      split_ifs
      · rfl
      · have taken := readTaken here found
        have made := swept.makeTemp standing here apart plain
        have same : (host.write now site.path new).1 = (host.write store site.path new).1 := by
          rw [writeStanding here taken, writeStanding (here.grown swept.grown) taken, made]
        generalize host.write now site.path new = step at same ⊢
        generalize host.write store site.path new = step' at same ⊢
        obtain ⟨result, after⟩ := step
        obtain ⟨result', after'⟩ := step'
        cases same
        cases result <;> rfl

theorem Swept.step (plain : host.PlainTags) :
    Swept host edit store (done ++ [site]) (host.rewrite edit now site.path).2 := by
  have outcome := swept.rewrite standing here apart plain edit
  have step := rewritten (here.grown swept.grown) plain edit
  rw [outcome] at step
  have undone : ∀ other ∈ done, (host.rewrite edit now site.path).2.get? other.place =
      now.get? other.place := by
    intro other mem
    by_contra changed
    have differ : other.place ≠ site.place := (apart other mem).symm
    exact ((standing other mem).grown swept.grown).present (step.others _ differ changed).absent
  refine ⟨swept.grown.trans step.grown, fun other mem => ?_, fun location away changed => ?_⟩
  · rcases List.mem_append.mp mem with mem | mem
    · rw [undone other mem, swept.held other mem]
    · cases List.mem_singleton.mp mem
      rw [step.held, swept.untouched here.present apart]
  · simp only [List.mem_append, List.mem_singleton] at away ⊢
    by_cases before : now.get? location = store.get? location
    · rw [← before] at changed
      obtain ⟨taken, absent, unremoved, named⟩ := step.others location (away site (.inr rfl)) changed
      exact ⟨site, .inr rfl, taken, before ▸ absent, unremoved, named⟩
    · obtain ⟨other, mem, left⟩ :=
        swept.others location (fun other mem => away other (.inl mem)) before
      exact ⟨other, .inl mem, left⟩

end
end Host
end SourceSweep.Files
