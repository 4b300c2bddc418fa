import Mathlib.Order.Nat
import SourceSweep.Files.RealPath
import SourceSweep.Proofs.Files.PlacePath

/-! Resolving an absolute path comes to the path of the place that it leads to, where all paths of the store
are short enough to be looked at. What is remembered of links on the way is right, and no link that is still
being resolved is met again. -/
namespace SourceSweep.Files
open Text Store

/-- What is remembered of links while names are followed through at most `budget` of them. A link whose
resolution has begun is one that cannot be passed within the budget. -/
structure Recalls (store : Store) (budget : Nat) (met : Met) : Prop where
  known : ∀ dir name target real, store.get? (name :: dir) = some (.link target) →
    met.lookup (Location.path (name :: dir)) = some (some real) →
    ∃ links place, Leads store links dir [name] place ∧ real = Location.path place
  begun : ∀ dir name target, store.get? (name :: dir) = some (.link target) →
    met.lookup (Location.path (name :: dir)) = some none → ∀ place, ¬ Leads store budget dir [name] place

structure ResolvesTo (store : Store) (budget : Nat) (met : Met) (resolved : Resolved) (place : Location) :
    Prop where
  complete : resolved.complete = true
  path : resolved.path = place.path
  recalls : Recalls store budget resolved.met
  begun : ∀ text, resolved.met.lookup text = some none → met.lookup text = some none

theorem Recalls.less {store : Store} {budget fewer : Nat} {met : Met} (recalls : Recalls store budget met)
    (bound : fewer ≤ budget) : Recalls store fewer met :=
  ⟨recalls.known, fun dir name target found lookup place leads =>
    recalls.begun dir name target found lookup place (leads.mono bound)⟩

theorem Store.Leads.fewest {store : Store} {links : Nat} {dir place : Location} {names : List Name}
    (leads : Leads store links dir names place) : ∃ fewest ≤ links, Leads store fewest dir names place ∧
      ∀ fewer < fewest, ∀ other, ¬ Leads store fewer dir names other := by
  induction links using Nat.strong_induction_on with
  | _ links ih =>
    by_cases less : ∃ fewer < links, Leads store fewer dir names place
    · obtain ⟨fewer, bound, shorter⟩ := less
      obtain ⟨fewest, within, found, least⟩ := ih fewer bound shorter
      exact ⟨fewest, by omega, found, least⟩
    · refine ⟨links, Nat.le_refl links, leads, fun fewer bound other shorter => less ⟨fewer, bound, ?_⟩⟩
      rwa [leads.same shorter]

def Store.Short (store : Store) : Prop :=
  ∀ entry ∈ store.entries, Utf8.size (Location.path entry.1) < pathLimit

instance (store : Store) : Decidable store.Short :=
  inferInstanceAs (Decidable (∀ entry ∈ store.entries, _))

theorem Store.Short.accept {store : Store} (short : store.Short) {place : Location}
    (present : store.get? place ≠ none) : Store.accept place.path = .ok () := by
  obtain ⟨node, found⟩ := Option.ne_none_iff_exists'.mp present
  exact acceptIff.mpr ⟨List.cons_ne_nil _ _, short _ (foundIff.mp found)⟩

section
variable {store : Store} (tree : store.Tree)
include tree

theorem entrySame {place other : Location} (present : store.get? place ≠ none)
    (present' : store.get? other ≠ none) (same : place.path = other.path) : place = other :=
  Location.pathSame (tree.solid present) (tree.solid present') same

variable (short : store.Short) (workDir : Location)
include short

theorem linkAtIff {dir : Location} {name : Name} (present : store.get? (name :: dir) ≠ none)
    {target : Text} : store.linkTarget? workDir (join dir.path name) = some target ↔
      store.get? (name :: dir) = some (.link target) := by
  have legal := tree.names present name List.mem_cons_self
  have taken : accept (join dir.path name) = .ok () := by
    rw [tree.pathJoin present]
    exact short.accept present
  obtain ⟨node, found⟩ := Option.ne_none_iff_exists'.mp present
  have isDir : store.isDir dir = true := tree.inside _ (foundIff.mp found)
  rw [(tree.within isDir workDir).linkTarget legal, taken]
  rcases store.get? (name :: dir) with _ | ⟨_ | _ | _⟩ <;> simp

def ResolvesNames (store : Store) (workDir : Location) (depth : Nat) : Prop :=
  ∀ {budget : Nat} {met : Met} {dir place : Location} {names : List Name}, budget ≤ depth →
    Recalls store budget met → Leads store budget dir (names.filter (!·.isEmpty)) place →
    ResolvesTo store budget met (resolveNames (store.linkTarget? workDir)
      (resolveFrom (store.linkTarget? workDir) depth) met dir.path names) place

omit short in
/- A link is resolved with the fewest links that its names can be followed through, so that it is not passed
again within them. -/
theorem expands {depth : Nat} (deeper : ResolvesNames store workDir depth) {links : Nat}
    (bound : links ≤ depth + 1) {met : Met} (recalls : Recalls store links met) {dir middle : Location}
    {name : Name} {target : Text} (found : store.get? (name :: dir) = some (.link target))
    (leads : Leads store links dir [name] middle) : ∃ budget,
      ResolvesTo store budget ((Location.path (name :: dir), none) :: met)
        (resolveFrom (store.linkTarget? workDir) (depth + 1)
          ((Location.path (name :: dir), none) :: met) dir.path target) middle := by
  have legal := tree.names (show store.get? (name :: dir) ≠ none by simp [found]) name List.mem_cons_self
  obtain ⟨fewest, within, fewestLeads, least⟩ := leads.fewest
  obtain ⟨node, held, behind⟩ := fewestLeads.behind legal.notSelf legal.notUp
  cases found.symm.trans held
  obtain ⟨budget, rfl, next⟩ := behind
  have start : (if isAbsolute target then ['/'] else dir.path) = (origin dir target).path := by
    unfold origin
    split <;> rfl
  have names : Leads store budget (origin dir target) ((cutAt '/' target).filter (!·.isEmpty)) middle := by
    rw [List.append_nil] at next
    simp only [pathNames] at next
    split at next
    · simpa using next.dropSelf _
    · exact next
  refine ⟨budget, ?_⟩
  rw [resolveFrom, start]
  refine deeper (by omega) ⟨fun dir' name' target' real found' lookup => ?_,
    fun dir' name' target' found' lookup place => ?_⟩ names
  · rw [List.lookup_cons] at lookup
    split at lookup
    · cases lookup
    · exact recalls.known dir' name' target' real found' lookup
  · rw [List.lookup_cons] at lookup
    split at lookup
    · rename_i same
      cases entrySame tree (by simp [found']) (by simp [found]) (beq_iff_eq.mp same)
      exact least budget (by omega) place
    · exact (recalls.less (by omega)).begun dir' name' target' found' lookup place

omit short in
theorem remembers {links budget : Nat} {met : Met} (recalls : Recalls store links met)
    {dir middle : Location} {name : Name} (present : store.get? (name :: dir) ≠ none)
    (leads : Leads store links dir [name] middle) {inner : Resolved}
    (resolved : ResolvesTo store budget ((Location.path (name :: dir), none) :: met) inner middle) :
    Recalls store links ((Location.path (name :: dir), some inner.path) :: inner.met) ∧ ∀ text,
      ((Location.path (name :: dir), some inner.path) :: inner.met).lookup text = some none →
        met.lookup text = some none := by
  have begun : ∀ text, ((Location.path (name :: dir), some inner.path) :: inner.met).lookup text =
      some none → met.lookup text = some none := by
    intro text lookup
    rw [List.lookup_cons] at lookup
    split at lookup
    · cases lookup
    · rename_i other
      have before := resolved.begun text lookup
      rwa [List.lookup_cons, other] at before
  refine ⟨⟨fun dir' name' target real found lookup => ?_, fun dir' name' target found lookup => ?_⟩, begun⟩
  · rw [List.lookup_cons] at lookup
    split at lookup
    · rename_i same
      cases entrySame tree (by simp [found]) present (beq_iff_eq.mp same)
      cases lookup
      exact ⟨links, middle, leads, resolved.path⟩
    · exact resolved.recalls.known dir' name' target real found lookup
  · exact recalls.begun dir' name' target found (begun _ lookup)

theorem resolvesLink {depth : Nat}
    (deeper : ∀ shallower, depth = shallower + 1 → ResolvesNames store workDir shallower) {budget : Nat}
    (bound : budget ≤ depth) {dir place : Location} {name : Name} {rest : List Name}
    (further : ∀ {met : Met} {dir : Location}, Recalls store budget met →
      Leads store budget dir (rest.filter (!·.isEmpty)) place → ResolvesTo store budget met
        (resolveNames (store.linkTarget? workDir) (resolveFrom (store.linkTarget? workDir) depth) met
          dir.path rest) place)
    {met : Met} (recalls : Recalls store budget met) {target : Text}
    (found : store.get? (name :: dir) = some (.link target))
    (leads : Leads store budget dir (name :: rest.filter (!·.isEmpty)) place) :
    ResolvesTo store budget met (resolveNames (store.linkTarget? workDir)
      (resolveFrom (store.linkTarget? workDir) depth) met dir.path (name :: rest)) place := by
  have present : store.get? (name :: dir) ≠ none := by simp [found]
  have legal := tree.names present name List.mem_cons_self
  have ways : Leads store budget dir ([name] ++ rest.filter (!·.isEmpty)) place := leads
  obtain ⟨fewer, middle, within, before, after⟩ := ways.split
  replace after := after.mono within
  have entry : ¬ ((name.isEmpty || decide (name = selfName)) = true) := by
    simp [legal.given, legal.notSelf]
  rw [resolveNames, if_neg entry, if_neg legal.notUp]
  simp only [(linkAtIff tree short workDir present).mpr found]
  rw [tree.pathJoin present]
  cases lookup : met.lookup (Location.path (name :: dir)) with
  | some remembered =>
    cases remembered with
    | none => exact absurd before (recalls.begun dir name target found lookup middle)
    | some known =>
      obtain ⟨_, place', other, rfl⟩ := recalls.known dir name target known found lookup
      cases before.same other
      exact further recalls after
  | none =>
    obtain ⟨_, held, behind⟩ := before.behind legal.notSelf legal.notUp
    cases found.symm.trans held
    obtain ⟨_, rfl, _⟩ := behind
    obtain ⟨shallower, rfl⟩ : ∃ shallower, depth = shallower + 1 := ⟨depth - 1, by omega⟩
    obtain ⟨_, inner⟩ := expands tree workDir (deeper shallower rfl) bound recalls found before
    obtain ⟨recalls', begun⟩ := remembers tree recalls present before inner
    have rest := further recalls' after
    simp only [inner.complete, if_true]
    rw [inner.path]
    rw [inner.path] at rest begun
    exact ⟨rest.complete, rest.path, rest.recalls, fun text lookup => begun text (rest.begun text lookup)⟩

/- By induction on the names, with what is remembered growing on the way. -/
theorem resolvesAt {depth : Nat}
    (deeper : ∀ shallower, depth = shallower + 1 → ResolvesNames store workDir shallower) :
    ResolvesNames store workDir depth := by
  intro budget met dir place names bound recalls leads
  induction names generalizing met dir with
  | nil =>
    cases leads
    exact ⟨rfl, rfl, recalls, fun _ begun => begun⟩
  | cons name rest further =>
    by_cases empty : name = []
    · subst empty
      rw [resolveNames]
      exact further recalls leads
    rw [List.filter_cons_of_pos (by simpa using empty)] at leads
    cases leads with
    | self isDir next =>
      rw [resolveNames, if_pos (by decide)]
      exact further recalls next
    | up isDir next =>
      rw [resolveNames, if_neg (by decide), if_pos rfl, Location.abovePath (tree.solid (dirPresent isDir))]
      exact further recalls next
    | link notSelf notUp entered found next =>
      obtain ⟨_, _, rfl⟩ := enterOkIff.mp entered
      exact resolvesLink tree short workDir deeper bound (fun recalls leads => further recalls leads) recalls
        found (.link notSelf notUp entered found next)
    | entry notSelf notUp entered found plain next =>
      obtain ⟨_, _, rfl⟩ := enterOkIff.mp entered
      have present : store.get? (name :: dir) ≠ none := by simp [found]
      have noLink : store.linkTarget? workDir (join dir.path name) = none := by
        refine Option.eq_none_iff_forall_ne_some.mpr fun target linked => ?_
        have link := (linkAtIff tree short workDir present).mp linked
        exact plain target (Option.some.inj (found.symm.trans link))
      rw [resolveNames, if_neg (by simp [empty, notSelf]), if_neg notUp]
      simp only [noLink]
      rw [tree.pathJoin present]
      exact further recalls next

theorem resolvesNames (depth : Nat) : ResolvesNames store workDir depth := by
  induction depth with
  | zero => exact resolvesAt tree short workDir fun _ deeper => absurd deeper (by omega)
  | succ depth ih =>
    refine resolvesAt tree short workDir fun shallower deeper => ?_
    cases deeper
    exact ih

theorem realPathLeads {path : Text} {place : Location} (rooted : isAbsolute path = true)
    (leads : Leads store linkLimit [] (slotNames path) place) (present : store.get? place ≠ none) :
    store.realPath workDir path = place.path := by
  have nothing : Recalls store linkLimit [] := ⟨nofun, nofun⟩
  obtain ⟨_, resolved, _, _⟩ := resolvesNames tree short workDir 999 (by decide) nothing leads
  have start : (resolveFrom (store.linkTarget? workDir) resolveDepth [] [] path).path = place.path := by
    rw [← resolved, show resolveDepth = 999 + 1 from rfl, resolveFrom, if_pos rooted]
    rfl
  have alone : join workDir.path place.path = place.path := by simp [join, Location.path, isAbsolute]
  rw [realPath, start, absolute, alone,
    Location.normalPath (tree.solid present)]

end

theorem tidyNames (path : Text) : (cutAt '/' path).filter (fun name => !name.isEmpty && name ≠ selfName) =
    (slotNames path).filter (· ≠ selfName) := by
  rw [slotNames, List.filter_filter]
  exact List.filter_congr fun name _ => by simp [Bool.and_comm]

theorem tidyRooted {path : Text} (rooted : isAbsolute path = true) : isAbsolute (tidy path) = true ∧
    slotNames (tidy path) = (slotNames path).filter (· ≠ selfName) := by
  have clean : ∀ name ∈ (slotNames path).filter (· ≠ selfName), name ≠ [] ∧ '/' ∉ name := by
    intro name mem
    have slot := (List.mem_filter.mp mem).1
    exact ⟨by simpa using (List.mem_filter.mp slot).2, cutAtFree '/' path name (List.mem_filter.mp slot).1⟩
  have joined := slotNamesJoined clean
  have behind : ∀ rest, slotNames ('/' :: rest) = slotNames rest := fun rest => slotNamesBoth [] rest
  unfold tidy
  rcases rootSlashesCases rooted with slashes | slashes
  · simp only [slashes, tidyNames]
    exact ⟨rfl, (behind _).trans joined⟩
  · simp only [slashes, tidyNames]
    exact ⟨rfl, (behind _).trans ((behind _).trans joined)⟩

namespace Host

def OnlyListing (host : Host) : Prop := ∀ fault ∈ host.faults, fault.call = .list

instance (host : Host) : Decidable host.OnlyListing :=
  inferInstanceAs (Decidable (∀ fault ∈ host.faults, _))

theorem resolveLeads {host : Host} (listing : host.OnlyListing) {store : Store} (tree : store.Tree)
    (short : store.Short) {path : Text} {place : Location} (rooted : isAbsolute path = true)
    (clean : hasNull path = false) (leads : Leads store linkLimit [] (slotNames path) place) {node : Node}
    (found : store.get? place = some node) (plain : ∀ target, node ≠ .link target) :
    host.resolve store path = .ok place.path := by
  have present : store.get? place ≠ none := by simp [found]
  obtain ⟨tidied, names⟩ := tidyRooted rooted
  have straight : Leads store linkLimit [] (slotNames (tidy path)) place := by
    rw [names]
    exact leads.dropSelf []
  have real := realPathLeads tree short host.workDir tidied straight present
  have untroubled : host.trouble? .stat place.path = none := by
    rw [trouble?, Option.map_eq_none_iff, List.find?_eq_none]
    intro fault mem
    simp [listing fault mem]
  have sought := tree.pathFound found plain host.workDir
  rw [short.accept present] at sought
  simp [resolve, clean, real, stat, seek, untroubled, sought, tree.pathNoNull found, Except.map]

end Host
end SourceSweep.Files
