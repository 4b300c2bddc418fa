import SourceSweep.Proofs.Files.Visited

/-! What a scan is asked for, said of the store: the directories that it reaches, the entries that it looks at
there, and how far an unlisted directory keeps files from it. -/
namespace SourceSweep.Files
open Text Store

/-- The extension of a name, with what stands before it: dots at the front, which are not counted, and a body that
does not begin with one. From the last dot behind the body's beginning on it is the extension. -/
structure NameParts (name : Name) (dots body extended : Text) : Prop where
  split : name = dots ++ body ++ extended
  front : ∀ c ∈ dots, c = '.'
  start : body.head? ≠ some '.'
  rest : extended = [] ∧ '.' ∉ body ∨ body ≠ [] ∧ ∃ rest, extended = '.' :: rest ∧ '.' ∉ rest

theorem behindLastDot {rest : Text} (free : '.' ∉ rest) (before : Text) :
    ((before ++ '.' :: rest).reverse.takeWhile (· ≠ '.')).reverse = rest := by
  have plain : ∀ c ∈ rest.reverse, decide (c ≠ '.') = true := by
    intro c mem
    have other : c ≠ '.' := fun same => free (same ▸ List.mem_reverse.mp mem)
    simpa using other
  rw [List.reverse_append, List.reverse_cons, List.append_assoc, List.takeWhile_append_of_pos plain,
    List.singleton_append, List.takeWhile_cons_of_neg (by decide), List.append_nil, List.reverse_reverse]

theorem nameParted (name : Name) : ∃ dots body, NameParts name dots body (extension name) := by
  have front : ∀ c ∈ name.takeWhile (· = '.'), c = '.' := fun c mem => by
    simpa using List.mem_takeWhile_imp mem
  have split : name = name.takeWhile (· = '.') ++ name.dropWhile (· = '.') :=
    (List.takeWhile_append_dropWhile).symm
  have start : (name.dropWhile (· = '.')).head? ≠ some '.' := fun dot => by
    simpa [dot] using List.head?_dropWhile_not (· = '.') name
  refine ⟨name.takeWhile (· = '.'), ?_⟩
  unfold extension
  generalize name.dropWhile (· = '.') = body at split start ⊢
  by_cases dotted : '.' ∈ body
  · obtain ⟨rest, before, reversed, free⟩ := List.eq_append_cons_of_mem (List.mem_reverse.mpr dotted)
    obtain rfl : body = before.reverse ++ '.' :: rest.reverse := by
      rw [← List.reverse_reverse body, reversed]
      simp
    replace free : '.' ∉ rest.reverse := fun mem => free (List.mem_reverse.mp mem)
    have given : before.reverse ≠ [] := by
      intro none
      simp [none] at start
    rw [if_pos (by simp), behindLastDot free]
    refine ⟨before.reverse, split.trans (by simp), front, ?_, .inr ⟨given, _, rfl, free⟩⟩
    rwa [List.head?_append_of_ne_nil _ given] at start
  · rw [if_neg (by simpa using dotted)]
    exact ⟨body, split.trans (by simp), front, start, .inl ⟨rfl, dotted⟩⟩

theorem NameParts.extended {name : Name} {dots body extended : Text}
    (parts : NameParts name dots body extended) : extension name = extended := by
  obtain ⟨rfl, front, start, rest⟩ := parts
  have stripped : (dots ++ body ++ extended).dropWhile (· = '.') = body ++ extended := by
    rw [List.append_assoc, List.dropWhile_append_of_pos fun c mem => by simpa using front c mem]
    cases body with
    | nil =>
      rcases rest with ⟨rfl, _⟩ | ⟨given, _⟩
      · rfl
      · exact absurd rfl given
    | cons c body =>
      have other : c ≠ '.' := by simpa using start
      rw [List.cons_append, List.dropWhile_cons_of_neg (by simpa using other)]
  unfold extension
  rw [stripped]
  rcases rest with ⟨rfl, free⟩ | ⟨given, rest, rfl, free⟩
  · simp [free]
  · rw [if_pos (by simp), behindLastDot free]

/-- A directory that a scan comes to: the start, or one below it that is entered from a listed directory and is
neither a link nor ignored. -/
def Reached (host : Host) (store : Store) (start path : Text) : Prop :=
  ∃ dir spot, Visits host store start dir path spot

/-- An entry of a wanted kind that a scan looks at, in a listed directory that it reaches: a file, or a link by a
path that is too long for the link to be seen. -/
structure Offered (host : Host) (store : Store) (wanted : List Text) (start path : Text) (dir : Location)
    (name : Name) : Prop where
  reached : Reached host store start path
  listed : host.list store path = .ok dir
  kind : ∃ dots body extended, NameParts name dots body extended ∧ lower extended ∈ wanted
  entry : (∃ mode bytes, store.get? (name :: dir) = some (.file mode bytes)) ∨
    (∃ target, store.get? (name :: dir) = some (.link target)) ∧ accept (join path name) ≠ .ok ()

theorem offeredIff {host : Host} {store : Store} (tree : store.Tree) {wanted : List Text}
    {start path : Text} {dir : Location} {name : Name} : Offered host store wanted start path dir name ↔
      (∃ place, Visits host store start place path dir) ∧ Checked host store wanted path dir name := by
  constructor
  · rintro ⟨⟨_, _, visits⟩, listed, ⟨dots, body, extended, parts, kind⟩, entry⟩
    obtain ⟨node, held⟩ : ∃ node, store.get? (name :: dir) = some node := by
      rcases entry with ⟨_, _, held⟩ | ⟨⟨_, held⟩, _⟩ <;> exact ⟨_, held⟩
    obtain ⟨named, other, noLink⟩ :=
      (Host.offersIff (Host.listWithin listed) (Host.legalOf tree held)).mpr entry
    rw [← parts.extended] at kind
    exact ⟨visits.placed tree listed, listed, named, other, kind, noLink⟩
  · rintro ⟨⟨place, visits⟩, listed, named, other, kind, noLink⟩
    obtain ⟨node, held⟩ := memNamesIn.mp named
    obtain ⟨dots, body, parts⟩ := nameParted name
    exact ⟨⟨place, dir, visits⟩, listed, ⟨dots, body, _, parts, kind⟩,
      (Host.offersIff (Host.listWithin listed) (Host.legalOf tree held)).mp ⟨named, other, noLink⟩⟩

/-! How far an unlisted directory keeps files from a scan: as far as the texts of their paths begin with its own. -/

theorem barePrefix (path : Text) : path <+: join path [] := by
  have bare : isAbsolute [] = false := rfl
  simp only [join, bare, Bool.false_eq_true, if_false]
  split <;> exact List.prefix_append _ _

theorem bareEnds (path : Text) : join path [] = [] ∨ (join path []).getLast? = some '/' := by
  have bare : isAbsolute [] = false := rfl
  simp only [join, bare, Bool.false_eq_true, if_false]
  split
  · rename_i ends
    rw [List.append_nil]
    exact (Bool.or_eq_true_iff.mp ends).imp List.isEmpty_iff.mp (by simpa using ·)
  · exact .inr (by simp)

theorem namePrefix {name : Name} (solid : SolidName name) (path : Text) : join path [] <+: join path name := by
  rw [joinBare (nameRelative solid.solid solid.given)]
  exact List.prefix_append _ _

theorem namesBeneath {name : Name} (solid : SolidName name) {path mid rest : Text}
    (whole : join mid [] ++ rest = join path name) :
    ∃ front, slotNames path = slotNames mid ++ front := by
  have closed := joinClosed solid path
  have more : rest ≠ [] := by
    rintro rfl
    rw [List.append_nil] at whole
    rcases bareEnds mid with empty | slash
    · exact joinGiven solid path (whole ▸ empty)
    · exact closed (whole ▸ slash)
  have open' : rest.getLast? ≠ some '/' := by
    rwa [← whole, List.getLast?_append_of_ne_nil _ more] at closed
  obtain ⟨front, last⟩ := List.getLast?_eq_some_iff.mp (lastSlotName more open')
  have slots := congrArg slotNames whole
  rw [slotNamesBare, last, slotNamesJoin _ solid.solid solid.given, ← List.append_assoc] at slots
  exact ⟨front, (List.append_inj' slots rfl).1.symm⟩

section
variable {host : Host} {store : Store} (tree : store.Tree) {path inner : Text} {dir spot : Location}
include tree

theorem Visits.beneath (visits : Visits host store path dir inner spot) :
    join path [] <+: join inner [] := by
  induction visits with
  | here => exact List.prefix_refl _
  | @into path dir name inner spot listed isDir kept next ih =>
    exact (namePrefix (tree.legalDir isDir).toSolidName path).trans ((barePrefix _).trans ih)

theorem Visits.passes (visits : Visits host store path dir inner spot)
    (found : host.list store inner = .ok spot) {front rest : List Name}
    (slots : slotNames inner = slotNames path ++ (front ++ rest)) :
    ∃ place, host.list store (front.foldl join path) = .ok place := by
  induction visits generalizing front with
  | here path dir =>
    obtain ⟨rfl, rfl⟩ := List.append_eq_nil_iff.mp (List.self_eq_append_right.mp slots)
    exact ⟨dir, found⟩
  | @into path dir name inner spot listed isDir kept next ih =>
    have legal := tree.legalDir isDir
    obtain ⟨names, _, behind, _⟩ := next.names tree
    rw [slotNamesJoin _ legal.solid legal.given, List.append_assoc] at behind
    cases front with
    | nil => exact ⟨dir, listed⟩
    | cons first front =>
      have same := List.append_cancel_left (slots.symm.trans behind)
      simp only [List.cons_append, List.cons.injEq] at same
      obtain ⟨rfl, same⟩ := same
      refine ih found ?_
      rw [behind, slotNamesJoin _ legal.solid legal.given, same]
      simp

theorem Offered.apart {wanted : List Text} {start : Text} {name : Name}
    (offered : Offered host store wanted start path dir name) {mid : Text}
    (reached : Reached host store start mid) (unlisted : ∃ escape, host.list store mid = .error escape) :
    ¬ join mid [] <+: join path name := by
  rintro ⟨rest, whole⟩
  obtain ⟨⟨place, visits⟩, checked⟩ := (offeredIff tree).mp offered
  obtain ⟨node, held⟩ := memNamesIn.mp checked.named
  obtain ⟨_, _, onward⟩ := reached
  obtain ⟨names, rfl, slots, _⟩ := onward.names tree
  obtain ⟨front, beneath⟩ := namesBeneath (Host.legalOf tree held).toSolidName whole
  rw [slots, List.append_assoc] at beneath
  obtain ⟨_, listed⟩ := visits.passes tree offered.listed beneath
  obtain ⟨escape, fails⟩ := unlisted
  cases listed.symm.trans fails

end

structure ListsMore (host other : Host) (store : Store) : Prop where
  engine : other.engine = host.engine
  resolves : ∀ path, other.resolve store path = host.resolve store path
  lists : ∀ path dir, host.list store path = .ok dir → other.list store path = .ok dir

section
variable {host other : Host} {store : Store} (lists : ListsMore host other store) {path inner : Text}
  {dir spot : Location}
include lists

theorem Visits.more (visits : Visits host store path dir inner spot) :
    Visits other store path dir inner spot := by
  induction visits with
  | here path dir => exact .here path dir
  | into listed isDir kept _ ih => exact .into (lists.lists _ _ listed) isDir kept ih

theorem Visits.fewer (tree : store.Tree) (visits : Visits other store path dir inner spot)
    (found : other.list store inner = .ok spot) {file : Text} (below : join inner [] <+: file)
    (apart : ∀ mid, Reached host store path mid → (∃ escape, host.list store mid = .error escape) →
      ¬ join mid [] <+: file) :
    Visits host store path dir inner spot ∧ host.list store inner = .ok spot := by
  induction visits with
  | here path dir =>
    cases listed : host.list store path with
    | error escape => exact absurd below (apart path ⟨[], [], .here path []⟩ ⟨escape, listed⟩)
    | ok place =>
      cases found.symm.trans (lists.lists path place listed)
      exact ⟨.here path dir, rfl⟩
  | @into path dir name inner spot listed isDir kept next ih =>
    cases listed' : host.list store path with
    | error escape =>
      have within := (Visits.into listed isDir kept next).beneath tree
      exact absurd (within.trans below) (apart path ⟨[], [], .here path []⟩ ⟨escape, listed'⟩)
    | ok place =>
      cases listed.symm.trans (lists.lists path place listed')
      obtain ⟨visits, listed⟩ := ih found below fun mid reached => by
        obtain ⟨_, _, onward⟩ := reached
        exact apart mid ⟨dir, onward.before tree listed' isDir kept⟩
      exact ⟨.into listed' isDir kept visits, listed⟩

theorem offeredMore (tree : store.Tree) {wanted : List Text} {start : Text} {name : Name} :
    Offered host store wanted start path dir name ↔ Offered other store wanted start path dir name ∧
      ∀ mid, Reached host store start mid → (∃ escape, host.list store mid = .error escape) →
        ¬ join mid [] <+: join path name := by
  constructor
  · intro offered
    refine ⟨?_, fun mid reached unlisted => offered.apart tree reached unlisted⟩
    obtain ⟨⟨_, spot, visits⟩, listed, kind, entry⟩ := offered
    exact ⟨⟨_, spot, visits.more lists⟩, lists.lists _ _ listed, kind, entry⟩
  · rintro ⟨offered, apart⟩
    obtain ⟨⟨place, visits⟩, checked⟩ := (offeredIff tree).mp offered
    obtain ⟨node, held⟩ := memNamesIn.mp checked.named
    have below := namePrefix (Host.legalOf tree held).toSolidName path
    obtain ⟨visits, listed⟩ := visits.fewer lists tree offered.listed below apart
    exact ⟨⟨place, dir, visits⟩, listed, offered.kind, offered.entry⟩

end
end SourceSweep.Files
