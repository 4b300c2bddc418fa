import SourceSweep.Files.Lookup

/-! Where names lead, said as a relation: one constructor for each kind of name that a walk can
meet. A walk finds a place exactly if the names lead there through as many links as it may follow. -/
namespace SourceSweep.Files

theorem bindOkIff {ε α β : Type} {first : Except ε α} {next : α → Except ε β} {value : β} :
    (first >>= next) = .ok value ↔ ∃ middle, first = .ok middle ∧ next middle = .ok value := by
  cases first with
  | error failure => simp [bind, Except.bind]
  | ok middle => simp [bind, Except.bind]

namespace Store
open Text

inductive Leads (store : Store) : (links : Nat) → Location → List Name → Location → Prop where
  | here (links : Nat) (place : Location) : Leads store links place [] place
  | self {links here rest place} (dir : store.isDir here = true)
      (next : Leads store links here rest place) : Leads store links here (selfName :: rest) place
  | up {links here rest place} (dir : store.isDir here = true)
      (next : Leads store links here.tail rest place) :
      Leads store links here (parentName :: rest) place
  | link {links here name rest spot target place} (notSelf : name ≠ selfName)
      (notUp : name ≠ parentName) (entered : store.enter here name = .ok spot)
      (found : store.get? spot = some (.link target))
      (next : Leads store links (origin here target) (pathNames target ++ rest) place) :
      Leads store (links + 1) here (name :: rest) place
  | entry {links here name rest spot node place} (notSelf : name ≠ selfName)
      (notUp : name ≠ parentName) (entered : store.enter here name = .ok spot)
      (found : store.get? spot = some node) (plain : ∀ target, node ≠ .link target)
      (next : Leads store links spot rest place) : Leads store links here (name :: rest) place

theorem walkNamesSound {store : Store} {follow : Location → Text → List Name → Except Errno Location}
    {links : Nat}
    (onward : ∀ here target rest place name spot, name ≠ selfName → name ≠ parentName →
      store.enter here name = .ok spot → store.get? spot = some (.link target) →
      follow here target rest = .ok place → Leads store links here (name :: rest) place)
    {here place : Location} {names : List Name}
    (walked : store.walkNames follow here names = .ok place) : Leads store links here names place := by
  induction names generalizing here with
  | nil => cases walked; exact .here links place
  | cons name rest ih =>
    unfold walkNames at walked
    split at walked
    · rename_i same
      split at walked <;> try contradiction
      subst same
      exact .self (by assumption) (ih walked)
    · rename_i notSelf
      split at walked
      · rename_i same
        split at walked <;> try contradiction
        subst same
        exact .up (by assumption) (ih walked)
      · rename_i notUp
        split at walked
        · contradiction
        · rename_i spot entered
          split at walked
          · contradiction
          · rename_i target found
            exact onward here target rest place name spot notSelf notUp entered found walked
          · rename_i node plain found
            exact .entry notSelf notUp entered found (fun target same => plain target same) (ih walked)

theorem walkSound {store : Store} {links : Nat} {here place : Location} {names : List Name}
    (walked : store.walk links here names = .ok place) : Leads store links here names place := by
  induction links generalizing here names place with
  | zero => exact walkNamesSound (fun _ _ _ _ _ _ _ _ _ _ refused => by cases refused) walked
  | succ links ih =>
    exact walkNamesSound (fun _ _ _ _ _ _ notSelf notUp entered found followed =>
      .link notSelf notUp entered found (ih followed)) walked

theorem walkEntry {store : Store} {links : Nat} {here spot : Location} {name : Name}
    {rest : List Name} {node : Node} (notSelf : name ≠ selfName) (notUp : name ≠ parentName)
    (entered : store.enter here name = .ok spot) (found : store.get? spot = some node)
    (plain : ∀ target, node ≠ .link target) :
    store.walk links here (name :: rest) = store.walk links spot rest := by
  cases links <;> cases node <;>
    simp_all [walk, walkNames]

theorem walkComplete {store : Store} {links : Nat} {here place : Location} {names : List Name}
    (leads : Leads store links here names place) : store.walk links here names = .ok place := by
  induction leads with
  | here links place => cases links <;> rfl
  | @self links here rest place dir next ih => cases links <;> simpa [walk, walkNames, dir] using ih
  | @up links here rest place dir next ih =>
    have other : parentName ≠ selfName := by decide
    cases links <;> simpa [walk, walkNames, dir, other] using ih
  | link notSelf notUp entered found next ih => simpa [walk, walkNames, notSelf, notUp, entered, found] using ih
  | entry notSelf notUp entered found plain next ih =>
    rw [walkEntry notSelf notUp entered found plain]
    exact ih

theorem walkIff {store : Store} {links : Nat} {here place : Location} {names : List Name} :
    store.walk links here names = .ok place ↔ Leads store links here names place :=
  ⟨walkSound, walkComplete⟩

def slotNames (path : Text) : List Name := (cutAt '/' path).filter (!·.isEmpty)

theorem acceptIff {path : Text} : accept path = .ok () ↔ path ≠ [] ∧ Utf8.size path < pathLimit := by
  unfold accept
  by_cases empty : path = []
  · simp [empty]
  · by_cases long : pathLimit ≤ Utf8.size path
    · simp [empty, long]
    · simp [empty, long, Nat.not_le.mp long]

theorem findIff {store : Store} {workDir place : Location} {path : Text} :
    store.find workDir path = .ok place ↔ accept path = .ok () ∧
      Leads store linkLimit (origin workDir path) (pathNames path) place := by
  unfold find
  rw [bindOkIff, ← walkIff]
  exact ⟨fun ⟨_, taken, walked⟩ => ⟨taken, walked⟩, fun ⟨taken, walked⟩ => ⟨(), taken, walked⟩⟩

structure Slot (store : Store) (workDir : Location) (path : Text) (dir : Location) (name : Name) :
    Prop where
  taken : accept path = .ok ()
  leads : Leads store linkLimit (origin workDir path) (slotNames path).dropLast dir
  last : (slotNames path).getLast? = some name
  isDir : store.isDir dir = true
  notSelf : name ≠ selfName
  notUp : name ≠ parentName

theorem findSlotIff {store : Store} {workDir dir : Location} {path : Text} {name : Name} :
    store.findSlot workDir path = .ok (dir, some name) ↔ Slot store workDir path dir name := by
  unfold findSlot
  rw [bindOkIff]
  constructor
  · intro parts
    obtain ⟨_, taken, found⟩ := parts
    obtain ⟨dir', walked, found⟩ := bindOkIff.mp found
    split at found
    · cases found
    · rename_i name' last
      split at found
      · cases found
      · split at found
        · cases found
        · rename_i isDir dots
          cases found
          simp only [Bool.or_eq_true, decide_eq_true_eq, not_or] at dots
          exact ⟨taken, walkIff.mp walked, last, by simpa using isDir, dots.1, dots.2⟩
  · intro parts
    obtain ⟨taken, leads, last, isDir, notSelf, notUp⟩ := parts
    refine ⟨(), taken, bindOkIff.mpr ⟨dir, walkIff.mpr leads, ?_⟩⟩
    simp only [slotNames] at last
    simp [last, isDir, notSelf, notUp]

theorem enterOkIff {store : Store} {dir place : Location} {name : Name} :
    store.enter dir name = .ok place ↔
      store.isDir dir = true ∧ Utf8.size name ≤ nameLimit ∧ place = name :: dir := by
  unfold enter
  cases store.isDir dir with
  | false => simp
  | true =>
    by_cases long : nameLimit < Utf8.size name
    · simp [long, Nat.not_le_of_lt long]
    · simp [long, Nat.le_of_not_lt long, eq_comm]

theorem Leads.behind {store : Store} {links : Nat} {here place : Location} {name : Name}
    {rest : List Name} (leads : Leads store links here (name :: rest) place) (notSelf : name ≠ selfName)
    (notUp : name ≠ parentName) : ∃ node, store.get? (name :: here) = some node ∧
      match node with
      | .link target => ∃ fewer, links = fewer + 1 ∧
        Leads store fewer (origin here target) (pathNames target ++ rest) place
      | _ => Leads store links (name :: here) rest place := by
  cases leads with
  | self => exact absurd rfl notSelf
  | up => exact absurd rfl notUp
  | link _ _ entered found next =>
    rw [(enterOkIff.mp entered).2.2] at found
    exact ⟨_, found, _, rfl, next⟩
  | @entry _ _ _ _ _ node _ _ _ entered found plain next =>
    rw [(enterOkIff.mp entered).2.2] at found next
    refine ⟨node, found, ?_⟩
    cases node with
    | link target => exact absurd rfl (plain target)
    | file => exact next
    | dir => exact next

theorem Leads.split {store : Store} {links : Nat} {here place : Location} {front rest : List Name}
    (leads : Leads store links here (front ++ rest) place) : ∃ fewer middle,
      fewer ≤ links ∧ Leads store links here front middle ∧ Leads store fewer middle rest place := by
  generalize names : front ++ rest = all at leads
  induction leads generalizing front with
  | here links place =>
    obtain ⟨rfl, rfl⟩ := List.append_eq_nil_iff.mp names
    exact ⟨links, place, Nat.le_refl _, .here links place, .here links place⟩
  | @self links here tail place dir next ih =>
    cases front with
    | nil =>
      cases (show rest = selfName :: tail from names)
      exact ⟨links, here, Nat.le_refl _, .here links here, .self dir next⟩
    | cons first front =>
      cases names
      obtain ⟨fewer, middle, bound, before, after⟩ := ih rfl
      exact ⟨fewer, middle, bound, .self dir before, after⟩
  | @up links here tail place dir next ih =>
    cases front with
    | nil =>
      cases (show rest = parentName :: tail from names)
      exact ⟨links, here, Nat.le_refl _, .here links here, .up dir next⟩
    | cons first front =>
      cases names
      obtain ⟨fewer, middle, bound, before, after⟩ := ih rfl
      exact ⟨fewer, middle, bound, .up dir before, after⟩
  | @link links here name tail spot target place notSelf notUp entered found next ih =>
    cases front with
    | nil =>
      cases (show rest = name :: tail from names)
      exact ⟨links + 1, here, Nat.le_refl _, .here _ here, .link notSelf notUp entered found next⟩
    | cons first front =>
      cases names
      obtain ⟨fewer, middle, bound, before, after⟩ := ih (List.append_assoc _ _ _)
      exact ⟨fewer, middle, Nat.le_succ_of_le bound, .link notSelf notUp entered found before, after⟩
  | @entry links here name tail spot node place notSelf notUp entered found plain next ih =>
    cases front with
    | nil =>
      cases (show rest = name :: tail from names)
      exact ⟨links, here, Nat.le_refl _, .here _ here, .entry notSelf notUp entered found plain next⟩
    | cons first front =>
      cases names
      obtain ⟨fewer, middle, bound, before, after⟩ := ih rfl
      exact ⟨fewer, middle, bound, .entry notSelf notUp entered found plain before, after⟩

theorem Leads.mono {store : Store} {links more : Nat} {here place : Location} {names : List Name}
    (leads : Leads store links here names place) (bound : links ≤ more) :
    Leads store more here names place := by
  induction leads generalizing more with
  | here links place => exact .here more place
  | self dir next ih => exact .self dir (ih bound)
  | up dir next ih => exact .up dir (ih bound)
  | link notSelf notUp entered found next ih =>
    obtain ⟨fewer, rfl⟩ := Nat.exists_eq_add_of_lt bound
    exact .link notSelf notUp entered found (ih (by omega))
  | entry notSelf notUp entered found plain next ih => exact .entry notSelf notUp entered found plain (ih bound)

theorem Leads.same {store : Store} {links links' : Nat} {here place place' : Location} {names : List Name}
    (leads : Leads store links here names place) (other : Leads store links' here names place') :
    place = place' :=
  Except.ok.inj ((walkIff.mpr (leads.mono (Nat.le_max_left links links'))).symm.trans
    (walkIff.mpr (other.mono (Nat.le_max_right links links'))))

theorem Leads.dropSelf {store : Store} {links : Nat} {here place : Location} (front : List Name)
    {names : List Name} (leads : Leads store links here (front ++ names) place) :
    Leads store links here (front ++ names.filter (· ≠ selfName)) place := by
  generalize whole : front ++ names = all at leads
  induction leads generalizing front names with
  | here links place =>
    obtain ⟨rfl, rfl⟩ := List.append_eq_nil_iff.mp whole
    exact .here links place
  | @self links here tail place dir next ih =>
    cases front with
    | nil =>
      cases (show names = selfName :: tail from whole)
      rw [List.filter_cons_of_neg (by simp)]
      exact ih [] rfl
    | cons first front =>
      cases whole
      exact .self dir (ih _ rfl)
  | @up links here tail place dir next ih =>
    cases front with
    | nil =>
      cases (show names = parentName :: tail from whole)
      exact .up dir (ih [] rfl)
    | cons first front =>
      cases whole
      exact .up dir (ih _ rfl)
  | @link links here name tail spot target place notSelf notUp entered found next ih =>
    cases front with
    | nil =>
      cases (show names = name :: tail from whole)
      rw [List.nil_append, List.filter_cons_of_pos (by simpa using notSelf)]
      exact .link notSelf notUp entered found (ih _ rfl)
    | cons first front =>
      cases whole
      have next := ih (pathNames target ++ front) (List.append_assoc _ _ _)
      rw [List.append_assoc] at next
      exact .link notSelf notUp entered found next
  | @entry links here name tail spot node place notSelf notUp entered found plain next ih =>
    cases front with
    | nil =>
      cases (show names = name :: tail from whole)
      rw [List.nil_append, List.filter_cons_of_pos (by simpa using notSelf)]
      exact .entry notSelf notUp entered found plain (ih [] rfl)
    | cons first front =>
      cases whole
      exact .entry notSelf notUp entered found plain (ih _ rfl)

end Store
end SourceSweep.Files
