import SourceSweep.Proofs.Files.Rewrite

/-! What edits leave behind, place by place: each place holds what the one edit that changes it leaves there,
whatever was edited before, so that edits of different files can be made in any order. -/
namespace SourceSweep.Files
open Text Store

namespace Store

def Alike (store later : Store) : Prop := ∀ location, later.get? location = store.get? location

theorem Alike.grown {store later : Store} (alike : Alike store later) : store.Grown later := fun location => by
  rw [alike location]
  exact .same _

section
variable {first second : Store} {location : Location} (alike : second.get? location = first.get? location)
include alike

theorem putAlike (place : Location) (node : Node) :
    (second.put place node).get? location = (first.put place node).get? location := by
  by_cases same : location = place
  · rw [same, getPutSame, getPutSame]
  · rw [getPutOther _ _ same, getPutOther _ _ same, alike]

theorem eraseAlike (place : Location) :
    (second.erase place).get? location = (first.erase place).get? location := by
  by_cases same : location = place
  · rw [same, getEraseSame, getEraseSame]
  · rw [getEraseOther _ same, getEraseOther _ same, alike]

end
end Store

namespace Host

section
variable {store now : Store} {site : Site} (standing : Standing store site)
  (grown : store.Grown now) (same : now.get? site.place = store.get? site.place) {location : Location}
include standing grown same

theorem installAlike (host : Host) {first second : Store} {temp : Temp} (free : store.get? temp.place = none)
    (free' : now.get? temp.place = none) (before : Holding store temp.place privateMode [] first)
    (before' : Holding now temp.place privateMode [] second) (taken : accept site.path = .ok ())
    (content : Text) (alike : second.get? location = first.get? location) :
    (host.install second temp site.path content).2.get? location =
      (host.install first temp site.path content).2.get? location := by
  have clean := standing.trunk.clean
  obtain ⟨mode, bytes, found⟩ := standing.file taken
  unfold install fill
  cases host.trouble? .openTemp site.path with
  | some trouble => exact alike
  | none =>
    cases host.trouble? .writeTemp site.path with
    | some trouble => exact putAlike alike _ _
    | none =>
      have filled := before.put privateMode (Utf8.encode content)
      have filled' := before'.put privateMode (Utf8.encode content)
      have led := (standsBeside standing free filled taken host.workDir).trans found
      have led' := (standsBeside (standing.grown grown) free' filled' taken host.workDir).trans
        (same.trans found)
      simp only [copyMode, led, led', filled.file, filled'.file]
      cases host.trouble? .copyMode site.path with
      | some trouble => exact putAlike alike _ _
      | none =>
        have copied := filled.put mode (Utf8.encode content)
        have copied' := filled'.put mode (Utf8.encode content)
        have moved := (standing.grown (copied.grown free)).moveOver taken copied.file host.workDir
        have moved' := ((standing.grown grown).grown (copied'.grown free')).moveOver taken copied'.file
          host.workDir
        simp only [replace, clean, Node.mode, moved, moved']
        have copies := putAlike (putAlike alike temp.place (.file privateMode (Utf8.encode content)))
          temp.place (.file mode (Utf8.encode content))
        cases host.trouble? .replace site.path with
        | some trouble => exact copies
        | none => exact putAlike (eraseAlike copies temp.place) _ _

variable {host : Host} (made : host.makeTemp now site.path = host.makeTemp store site.path)
  (alike : now.get? location = store.get? location)
include made alike

theorem writeAlike (taken : accept site.path = .ok ()) (content : Text) :
    (host.write now site.path content).2.get? location =
      (host.write store site.path content).2.get? location := by
  have later := standing.grown grown
  obtain ⟨mode, bytes, found⟩ := standing.file taken
  rw [write, write, later.node _ taken, standing.node _ taken, same, found, made]
  simp only [Option.isSome_some, Bool.true_and]
  split_ifs with refused
  · exact alike
  · cases temps : host.makeTemp store site.path with
    | error escape => exact alike
    | ok temp =>
      obtain ⟨_, _, free⟩ := makeTempOk temps
      obtain ⟨_, _, free'⟩ := makeTempOk (made.trans temps)
      have before := holdingPut store temp.place privateMode []
      have before' := holdingPut now temp.place privateMode []
      have told : (host.install (now.put temp.place (.file privateMode [])) temp site.path content).1 =
          (host.install (store.put temp.place (.file privateMode [])) temp site.path content).1 := by
        rw [installStanding later free' before' taken, installStanding standing free before taken]
      have left := installAlike standing grown same host free free' before before' taken content
        (putAlike alike temp.place (.file privateMode []))
      dsimp only
      generalize host.install (now.put temp.place _) temp site.path content = step at told left ⊢
      generalize host.install (store.put temp.place _) temp site.path content = step' at told left ⊢
      obtain ⟨result, after⟩ := step
      obtain ⟨result', after'⟩ := step'
      cases told
      cases result with
      | ok => exact left
      | error escape =>
        unfold discard
        cases host.trouble? .removeTemp site.path with
        | some trouble => exact left
        | none => exact eraseAlike left temp.place

theorem rewriteAlike (edit : Edit) : (host.rewrite edit now site.path).2.get? location =
    (host.rewrite edit store site.path).2.get? location := by
  have read : host.read now site.path = host.read store site.path :=
    readStanding standing (standing.grown grown) same
  unfold Host.rewrite
  rw [read]
  cases found : host.read store site.path with
  | error failure => exact alike
  | ok old =>
    dsimp only
    cases edit old with
    | error escape => exact alike
    | ok new =>
      dsimp only
      split_ifs
      · exact alike
      · have written := writeAlike standing grown same made alike (readTaken standing found) new
        generalize host.write now site.path new = step at written ⊢
        generalize host.write store site.path new = step' at written ⊢
        obtain ⟨result, after⟩ := step
        obtain ⟨result', after'⟩ := step'
        cases result <;> cases result' <;> exact written

end

def Reaches (host : Host) (store : Store) (site : Site) (location : Location) : Prop :=
  location = site.place ∨ Leftover host store site location

theorem rewriteReaches {host : Host} {store : Store} {site : Site} (standing : Standing store site)
    (plain : host.PlainTags) {edit : Edit} {location : Location}
    (changed : (host.rewrite edit store site.path).2.get? location ≠ store.get? location) :
    Reaches host store site location := by
  by_cases own : location = site.place
  · exact .inl own
  · exact .inr ((rewritten standing plain edit).others location own changed)

theorem reachApart {host : Host} {store : Store} {site other : Site} (here : Standing store site)
    (there : Standing store other) (plain : host.PlainTags) (apart : site.place ≠ other.place)
    {location : Location} (reaches : Reaches host store site location) :
    ¬ Reaches host store other location := by
  rintro (rfl | left')
  · rcases reaches with same | left
    · exact apart same.symm
    · exact there.present left.absent
  · rcases reaches with rfl | left
    · exact here.present left'.absent
    · obtain ⟨tag, mem, rfl⟩ := left.named
      obtain ⟨tag', mem', same⟩ := left'.named
      exact apart (besideApart here there plain mem mem' same)

/-- A store after edits of some sites, told from the store before: where one of them changes something
it is as that one leaves it, and elsewhere nothing has changed. -/
structure Traced (host : Host) (edit : Edit) (store : Store) (done : List Site) (now : Store) : Prop where
  marks : ∀ site ∈ done, ∀ location,
    (host.rewrite edit store site.path).2.get? location ≠ store.get? location →
      now.get? location = (host.rewrite edit store site.path).2.get? location
  rest : ∀ location,
    (∀ site ∈ done, (host.rewrite edit store site.path).2.get? location = store.get? location) →
      now.get? location = store.get? location

theorem tracedNone (host : Host) (edit : Edit) (store : Store) : Traced host edit store [] store :=
  ⟨by simp, fun _ _ => rfl⟩

theorem sweptAlike {host : Host} {edit : Edit} {store now : Store} (alike : Alike store now) :
    Swept host edit store [] now :=
  ⟨alike.grown, by simp, fun location _ changed => absurd (alike location) changed⟩

section
variable {host : Host} {edit : Edit} {store now : Store} {done : List Site}
  (traced : Traced host edit store done now)
include traced

theorem Traced.step (swept : Swept host edit store done now)
    (standing : ∀ site ∈ done, Standing store site) {site : Site} (here : Standing store site)
    (apart : ∀ other ∈ done, site.place ≠ other.place) (plain : host.PlainTags) :
    Traced host edit store (done ++ [site]) (host.rewrite edit now site.path).2 := by
  have own := swept.untouched here.present apart
  have made := swept.makeTemp standing here apart plain
  have all : ∀ other ∈ done ++ [site], Standing store other :=
    List.forall_mem_append.mpr ⟨standing, List.forall_mem_singleton.mpr here⟩
  constructor
  · intro other mem location changed
    have reach := rewriteReaches (all other mem) plain changed
    rcases List.mem_append.mp mem with mem | mem
    · rw [← traced.marks other mem location changed]
      by_contra again
      have reach' := rewriteReaches (here.grown swept.grown) plain again
      exact reachApart here (standing other mem) plain (apart other mem)
        (reach'.imp_right (Leftover.earlier swept.grown)) reach
    · cases List.mem_singleton.mp mem
      refine rewriteAlike here swept.grown own made (traced.rest location fun other mem => ?_) edit
      by_contra changed'
      exact reachApart here (standing other mem) plain (apart other mem) reach
        (rewriteReaches (standing other mem) plain changed')
  · intro location same
    have before := traced.rest location fun other mem => same other (List.mem_append_left [site] mem)
    rw [rewriteAlike here swept.grown own made before]
    exact same site (List.mem_append_right done List.mem_cons_self)

theorem Traced.alike {store' now' : Store} {done' : List Site} (perm : done'.Perm done)
    (traced' : Traced host edit store' done' now') (start : Alike store store')
    (rewrites : ∀ site ∈ done, ∀ location, (host.rewrite edit store' site.path).2.get? location =
      (host.rewrite edit store site.path).2.get? location) : Alike now now' := by
  intro location
  by_cases quiet : ∀ site ∈ done,
    (host.rewrite edit store site.path).2.get? location = store.get? location
  · rw [traced.rest location quiet, traced'.rest location fun site mem => ?_, start location]
    rw [rewrites site (perm.mem_iff.mp mem), quiet site (perm.mem_iff.mp mem), start location]
  · obtain ⟨site, mem, changed⟩ : ∃ site ∈ done,
        (host.rewrite edit store site.path).2.get? location ≠ store.get? location := by
      simpa using quiet
    rw [traced.marks site mem location changed, traced'.marks site (perm.mem_iff.mpr mem) location ?_,
      rewrites site mem]
    rwa [rewrites site mem, start location]

end
end Host
end SourceSweep.Files
