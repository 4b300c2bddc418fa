import SourceSweep.Proofs.Files.Leads

/-! Stores in which nothing goes. New entries are files, and a file that was there may hold other
bytes in the same mode. A path that led somewhere leads there still, and one that newly leads
somewhere leads to a new file. -/
namespace SourceSweep.Files
open Text

inductive Aged : Option Node → Option Node → Prop where
  | same (node : Option Node) : Aged node node
  | created (mode : Nat) (bytes : Utf8.Bytes) : Aged none (some (.file mode bytes))
  | rewritten (mode : Nat) (old bytes : Utf8.Bytes) :
      Aged (some (.file mode old)) (some (.file mode bytes))

theorem Aged.trans {first second third : Option Node} (one : Aged first second)
    (two : Aged second third) : Aged first third := by
  cases one with
  | same => exact two
  | created mode bytes =>
    cases two with
    | same => exact .created mode bytes
    | rewritten => exact .created mode _
  | rewritten mode old bytes =>
    cases two with
    | same => exact .rewritten mode old bytes
    | rewritten => exact .rewritten mode old _

namespace Store

def Grown (store later : Store) : Prop :=
  ∀ location, Aged (store.get? location) (later.get? location)

theorem grownSelf (store : Store) : store.Grown store := fun _ => .same _

theorem Grown.trans {store middle later : Store} (one : store.Grown middle)
    (two : middle.Grown later) : store.Grown later := fun location => (one location).trans (two location)

section
variable {store later : Store} (grown : store.Grown later)
include grown

theorem Grown.isDir (location : Location) : later.isDir location = store.isDir location := by
  unfold Store.isDir
  generalize before : store.get? location = node
  generalize after : later.get? location = other
  have aged := grown location
  rw [before, after] at aged
  cases aged <;> rfl

theorem Grown.enter (dir : Location) (name : Name) : later.enter dir name = store.enter dir name := by
  unfold Store.enter
  rw [grown.isDir]

theorem Grown.stillThere {location : Location} (present : store.get? location ≠ none) :
    later.get? location ≠ none := by
  have aged := grown location
  generalize store.get? location = node at aged present
  generalize later.get? location = other at aged ⊢
  cases aged with
  | same => exact present
  | created mode bytes => exact Option.some_ne_none _
  | rewritten mode old bytes => exact Option.some_ne_none _

theorem Grown.stays {location : Location} {node : Node} (found : store.get? location = some node)
    (plain : ∀ target, node ≠ .link target) :
    ∃ other, later.get? location = some other ∧ ∀ target, other ≠ .link target := by
  have aged := grown location
  rw [found] at aged
  generalize later.get? location = other at aged ⊢
  cases aged with
  | same => exact ⟨node, rfl, plain⟩
  | rewritten mode old bytes => exact ⟨_, rfl, by simp⟩

theorem Grown.linkIff {location : Location} {target : Text} :
    later.get? location = some (.link target) ↔ store.get? location = some (.link target) := by
  have aged := grown location
  generalize store.get? location = node at aged ⊢
  generalize later.get? location = other at aged ⊢
  cases aged <;> simp

theorem Grown.before {location : Location} {node : Node} (found : later.get? location = some node)
    (plain : ∀ target, node ≠ .link target) :
    (store.get? location = none ∧ ∃ mode bytes, node = .file mode bytes) ∨
      ∃ other, store.get? location = some other ∧ ∀ target, other ≠ .link target := by
  have aged := grown location
  rw [found] at aged
  generalize store.get? location = other at aged ⊢
  cases aged with
  | same => exact .inr ⟨node, rfl, plain⟩
  | created mode bytes => exact .inl ⟨rfl, mode, bytes, rfl⟩
  | rewritten mode old bytes => exact .inr ⟨_, rfl, by simp⟩

theorem Grown.leads {links : Nat} {here place : Location} {names : List Name}
    (leads : Leads store links here names place) : Leads later links here names place := by
  induction leads with
  | here links place => exact .here links place
  | self dir next ih => exact .self (grown.isDir _ ▸ dir) ih
  | up dir next ih => exact .up (grown.isDir _ ▸ dir) ih
  | link notSelf notUp entered found next ih =>
    exact .link notSelf notUp (grown.enter _ _ ▸ entered) (grown.linkIff.mpr found) ih
  | entry notSelf notUp entered found plain next ih =>
    obtain ⟨other, found, plain⟩ := grown.stays found plain
    exact .entry notSelf notUp (grown.enter _ _ ▸ entered) found plain ih

end

theorem Leads.fromFile {store : Store} {links : Nat} {here place : Location} {names : List Name}
    (leads : Leads store links here names place) (notDir : store.isDir here = false) :
    place = here := by
  cases leads with
  | here => rfl
  | self dir => exact absurd (notDir.symm.trans dir) Bool.false_ne_true
  | up dir => exact absurd (notDir.symm.trans dir) Bool.false_ne_true
  | link _ _ entered => simp [enter, notDir] at entered
  | entry _ _ entered => simp [enter, notDir] at entered

theorem Grown.leadsBack {store later : Store} (grown : store.Grown later) {links : Nat}
    {here place : Location} {names : List Name} (leads : Leads later links here names place) :
    Leads store links here names place ∨
      store.get? place = none ∧ ∃ mode bytes, later.get? place = some (.file mode bytes) := by
  induction leads with
  | here links place => exact .inl (.here links place)
  | self dir next ih => exact ih.imp_left (.self (grown.isDir _ ▸ dir))
  | up dir next ih => exact ih.imp_left (.up (grown.isDir _ ▸ dir))
  | link notSelf notUp entered found next ih =>
    exact ih.imp_left (.link notSelf notUp (grown.enter _ _ ▸ entered) (grown.linkIff.mp found))
  | entry notSelf notUp entered found plain next ih =>
    rcases grown.before found plain with ⟨absent, mode, bytes, rfl⟩ | ⟨other, present, otherPlain⟩
    · have ended := next.fromFile (by simp [Store.isDir, found])
      subst ended
      exact .inr ⟨absent, mode, bytes, found⟩
    · exact ih.imp_left (.entry notSelf notUp (grown.enter _ _ ▸ entered) present otherPlain)

theorem Grown.slotIff {store later : Store} (grown : store.Grown later) {workDir dir : Location}
    {path : Text} {name : Name} :
    Slot later workDir path dir name ↔ Slot store workDir path dir name := by
  constructor
  · intro parts
    obtain ⟨taken, leads, last, isDir, notSelf, notUp⟩ := parts
    rw [grown.isDir] at isDir
    rcases grown.leadsBack leads with leads | ⟨absent, _⟩
    · exact ⟨taken, leads, last, isDir, notSelf, notUp⟩
    · simp [Store.isDir, absent] at isDir
  · intro parts
    obtain ⟨taken, leads, last, isDir, notSelf, notUp⟩ := parts
    exact ⟨taken, grown.leads leads, last, grown.isDir _ ▸ isDir, notSelf, notUp⟩

theorem Grown.find {store later : Store} (grown : store.Grown later) {workDir place : Location}
    {path : Text} (found : store.find workDir path = .ok place) :
    later.find workDir path = .ok place := by
  obtain ⟨taken, leads⟩ := findIff.mp found
  exact findIff.mpr ⟨taken, grown.leads leads⟩

theorem Grown.findBack {store later : Store} (grown : store.Grown later) {workDir place : Location}
    {path : Text} (found : later.find workDir path = .ok place) :
    store.find workDir path = .ok place ∨
      store.get? place = none ∧ ∃ mode bytes, later.get? place = some (.file mode bytes) := by
  obtain ⟨taken, leads⟩ := findIff.mp found
  exact (grown.leadsBack leads).imp_left fun leads => findIff.mpr ⟨taken, leads⟩

end Store
end SourceSweep.Files
