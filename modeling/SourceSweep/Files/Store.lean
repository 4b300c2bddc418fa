import SourceSweep.Files.Path
import SourceSweep.Text.Order

/-! A file store: what stands at each location. A location has at most one entry. -/
namespace SourceSweep.Files
open Text

inductive Node where
  | file (mode : Nat) (bytes : Utf8.Bytes)
  | dir (mode : Nat)
  | link (target : Text)
  deriving DecidableEq, Repr

def fileMode : Nat := 0o644
def dirMode : Nat := 0o755
def privateMode : Nat := 0o600

@[ext] structure Store where
  entries : List (Location × Node)
  distinct : (entries.map Prod.fst).Nodup

namespace Store

def empty : Store := ⟨[], .nil⟩

def get? (store : Store) (location : Location) : Option Node := store.entries.lookup location

def others (store : Store) (location : Location) : List (Location × Node) :=
  store.entries.filter (·.1 ≠ location)

theorem othersDistinct (store : Store) (location : Location) :
    ((store.others location).map Prod.fst).Nodup :=
  store.distinct.sublist (List.filter_sublist.map Prod.fst)

theorem notMemOthers (store : Store) (location : Location) :
    location ∉ (store.others location).map Prod.fst := by
  intro mem
  obtain ⟨entry, inOthers, same⟩ := List.mem_map.mp mem
  simpa [same] using (List.mem_filter.mp inOthers).2

def erase (store : Store) (location : Location) : Store :=
  ⟨store.others location, store.othersDistinct location⟩

def put (store : Store) (location : Location) (node : Node) : Store :=
  ⟨(location, node) :: store.others location,
    List.nodup_cons.mpr ⟨store.notMemOthers location, store.othersDistinct location⟩⟩

def namesIn (store : Store) (dir : Location) : List Name :=
  sort <| store.entries.filterMap fun entry =>
    match entry.1 with
    | name :: parent => if parent = dir then some name else none
    | [] => none

def isDir (store : Store) (location : Location) : Bool :=
  match store.get? location with
  | some (.dir _) => true
  | _ => false

def makeDirs (store : Store) : Location → Store
  | [] => if (store.get? []).isSome then store else store.put [] (.dir dirMode)
  | name :: above =>
    let store := makeDirs store above
    if (store.get? (name :: above)).isSome then store else store.put (name :: above) (.dir dirMode)

theorem lookupOthers (entries : List (Location × Node)) {location other : Location}
    (differ : other ≠ location) :
    (entries.filter (·.1 ≠ location)).lookup other = entries.lookup other := by
  induction entries with
  | nil => rfl
  | cons entry rest ih =>
    obtain ⟨key, node⟩ := entry
    by_cases same : key = location
    · have missed : (other == key) = false := by simpa [same] using differ
      simpa only [List.filter_cons, same, ne_eq, not_true_eq_false, decide_false, List.lookup_cons,
        show (other == location) = false from same ▸ missed, Bool.false_eq_true, if_false] using ih
    · simp only [List.filter_cons, same, ne_eq, not_false_eq_true, decide_true, if_true,
        List.lookup_cons]
      split
      · rfl
      · exact ih

theorem getPutSame (store : Store) (location : Location) (node : Node) :
    (store.put location node).get? location = some node := by
  simp [get?, put]

theorem getEraseOther (store : Store) {location other : Location} (differ : other ≠ location) :
    (store.erase location).get? other = store.get? other :=
  lookupOthers store.entries differ

theorem getPutOther (store : Store) (node : Node) {location other : Location}
    (differ : other ≠ location) : (store.put location node).get? other = store.get? other := by
  have missed : (other == location) = false := by simpa using differ
  simpa only [get?, put, others, List.lookup_cons, missed] using lookupOthers store.entries differ

theorem getEraseSame (store : Store) (location : Location) :
    (store.erase location).get? location = none := by
  refine List.lookup_eq_none_iff.mpr fun entry mem => ?_
  have differ := (List.mem_filter.mp mem).2
  simpa using fun same => (by simpa using differ : ¬ entry.1 = location) same.symm

end Store
end SourceSweep.Files
