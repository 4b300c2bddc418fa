import SourceSweep.Proofs.Style.RuleLine
import SourceSweep.Style.Prune

/-! A stylesheet as a row of chunks, each running from a line on which no block is open to the next
one after which none is. Pruning keeps or drops a chunk as a whole. Which lines form one does not
hang on the verdicts, which are asked for first lines only. -/
namespace SourceSweep.Style
open Text

def depthAfter (depth : Int) (line : Text) : Int := max 0 (depth + braceBalance line)

/- The last chunk ends with the text, whether or not its blocks are closed by then. -/
def chunksFrom : (depth : Int) → List Text → List (List Text)
  | _, [] => []
  | depth, line :: rest =>
    if depthAfter depth line = 0 then [line] :: chunksFrom 0 rest
    else match chunksFrom (depthAfter depth line) rest with
      | [] => [[line]]
      | chunk :: chunks => (line :: chunk) :: chunks

def chunks (css : Text) : List (List Text) := chunksFrom 0 (lines css)

def endsInComma (kept : List Text) : Bool :=
  match (kept.filter (!allBlank ·)).getLast? with
  | some line => (trimEnd line).getLast? = some ','
  | none => false

def asksUnused (used : Text → Bool) (line : Text) : Bool := (ruleClass? line).any (!used ·)

def keptChunks (used : Text → Bool) : (before : List Text) → List (List Text) → List (List Text)
  | _, [] => []
  | before, chunk :: rest =>
    if chunk.head?.any (asksUnused used) && !endsInComma before then keptChunks used before rest
    else chunk :: keptChunks used (before ++ chunk) rest

theorem continuesListIff (kept : List Text) : continuesList kept = endsInComma kept.reverse := by
  have last : (kept.reverse.filter (!allBlank ·)).getLast? = kept.find? (!allBlank ·) := by
    rw [List.filter_reverse, List.getLast?_reverse, List.head?_filter]
  rw [endsInComma, last]
  cases found : kept.find? (!allBlank ·) <;> simp only [continuesList, found]

theorem depthAfterNonneg (depth : Int) (line : Text) : 0 ≤ depthAfter depth line :=
  Int.le_max_left 0 _

theorem depthAfterClosed {depth : Int} {line : Text} (ends : depth + braceBalance line ≤ 0) :
    depthAfter depth line = 0 := Int.max_eq_left ends

theorem depthAfterOpen {depth : Int} {line : Text} (stays : 0 ≤ depth + braceBalance line) :
    depthAfter depth line = depth + braceBalance line := Int.max_eq_right stays

/-! What a step does, in one statement for all its branches. -/

def Place.depth : Place → Int
  | .outside => 0
  | .inside depth _ => depth

def Place.at (depth : Int) (dropping : Bool) : Place :=
  if depth = 0 then .outside else .inside depth dropping

def Pruning.drops (used : Text → Bool) (state : Pruning) (line : Text) : Bool :=
  match state.place with
  | .inside _ dropping => dropping
  | .outside => asksUnused used line && !continuesList state.kept

theorem placeAtDepth (depth : Int) (dropping : Bool) : (Place.at depth dropping).depth = depth := by
  unfold Place.at
  split
  · rename_i none
    exact none.symm
  · rfl

theorem dropsAt {state : Pruning} {depth : Int} {dropping : Bool}
    (place : state.place = .at depth dropping) (used : Text → Bool) (line : Text) :
    state.drops used line =
      if depth = 0 then asksUnused used line && !continuesList state.kept else dropping := by
  rw [Pruning.drops, place, Place.at]
  by_cases outside : depth = 0
  · rw [if_pos outside, if_pos outside]
  · rw [if_neg outside, if_neg outside]

theorem placeAtOpen {depth : Int} (some : 0 < depth) (dropping : Bool) :
    Place.at depth dropping = .inside depth dropping := if_neg (by omega)

theorem passInside (kept : List Text) (depth : Int) (dropping : Bool) (line : Text) :
    Pruning.pass ⟨kept, .inside depth dropping⟩ line =
      ⟨if dropping then kept else line :: kept, .at (depthAfter depth line) dropping⟩ := by
  rw [Pruning.pass]
  by_cases ends : depth + braceBalance line ≤ 0
  · simp only [if_pos ends, depthAfterClosed ends]
    rfl
  · have more : 0 < depth + braceBalance line := Int.not_le.mp ends
    simp only [if_neg ends, depthAfterOpen (Int.le_of_lt more), placeAtOpen more]

theorem passOutside (kept : List Text) (line : Text) :
    Pruning.pass ⟨kept, .outside⟩ line = ⟨line :: kept, .at (depthAfter 0 line) false⟩ := by
  rw [Pruning.pass]
  by_cases opens : 0 < braceBalance line
  · have more : 0 < 0 + braceBalance line := by omega
    rw [depthAfterOpen (Int.le_of_lt more), placeAtOpen more, Int.zero_add]
    simp only [if_pos opens]
  · have ends : 0 + braceBalance line ≤ 0 := by omega
    simp only [if_neg opens, depthAfterClosed ends]
    rfl

/- A rule's line that leaves the block open opens exactly one brace, so that an answered question
and a line passed by come to the same depth. -/
theorem answerOutside {line name : Text} (asks : ruleClass? line = some name) (kept : List Text)
    (used : Bool) : Pruning.answer ⟨kept, .outside⟩ line used =
      ⟨if used then line :: kept else kept, .at (depthAfter 0 line) (!used)⟩ := by
  rw [Pruning.answer, depthAfter, ruleBalance asks]
  cases line.contains '}' <;> rfl

theorem stepEq (used : Text → Bool) (state : Pruning) (line : Text) :
    state.step used line = ⟨if state.drops used line then state.kept else line :: state.kept,
      .at (depthAfter state.place.depth line) (state.drops used line)⟩ := by
  obtain ⟨kept, place⟩ := state
  cases place with
  | inside depth dropping => exact passInside kept depth dropping line
  | outside =>
    simp only [Pruning.step, Pruning.question?, Pruning.drops, Place.depth]
    rcases Bool.eq_false_or_eq_true (continuesList kept) with goesOn | ended
    · simpa [goesOn] using passOutside kept line
    · cases asks : ruleClass? line with
      | none => simpa [ended, asksUnused, asks] using passOutside kept line
      | some name =>
        cases answer : used name <;> simp [ended, asksUnused, asks, answer, answerOutside asks]

def keptAfter (used : Text → Bool) (before : List Text) (chunks : List (List Text)) : List Text :=
  before ++ (keptChunks used before chunks).flatten

def Pruning.outcome (used : Text → Bool) (state : Pruning) (rest : List Text) : List Text :=
  match state.place with
  | .outside => keptAfter used state.kept.reverse (chunksFrom 0 rest)
  | .inside depth dropping =>
    match chunksFrom depth rest with
    | [] => state.kept.reverse
    | chunk :: chunks =>
      keptAfter used (state.kept.reverse ++ if dropping then [] else chunk) chunks

theorem keptAfterCons (used : Text → Bool) (before chunk : List Text) (rest : List (List Text)) :
    keptAfter used before (chunk :: rest) =
      keptAfter used (before ++ if chunk.head?.any (asksUnused used) && !endsInComma before then []
        else chunk) rest := by
  unfold keptAfter
  rw [keptChunks]
  split <;> simp

theorem outcomeCons (used : Text → Bool) (state : Pruning) {line : Text} {rest more : List Text}
    {later : List (List Text)} (cut : chunksFrom state.place.depth (line :: rest) = (line :: more) :: later) :
    state.outcome used (line :: rest) = keptAfter used
      (state.kept.reverse ++ if state.drops used line then [] else line :: more) later := by
  obtain ⟨kept, place⟩ := state
  cases place with
  | inside depth dropping =>
    simp only [Place.depth] at cut
    simp only [Pruning.outcome, cut, Pruning.drops]
    rfl
  | outside =>
    simp only [Place.depth] at cut
    simp only [Pruning.outcome, cut, keptAfterCons, Pruning.drops, continuesListIff, List.head?_cons,
      Option.any_some]
    rfl

theorem chunkBegun (used : Text → Bool) (depth : Int) (line : Text) (rest : List Text) :
    ∃ more later, chunksFrom depth (line :: rest) = (line :: more) :: later ∧
      ∀ kept dropping, Pruning.outcome used ⟨kept, .at (depthAfter depth line) dropping⟩ rest =
        keptAfter used (kept.reverse ++ if dropping then [] else more) later := by
  rw [chunksFrom]
  by_cases ends : depthAfter depth line = 0
  · refine ⟨[], chunksFrom 0 rest, if_pos ends, fun kept dropping => ?_⟩
    simp [ends, Place.at, Pruning.outcome]
  · have some : 0 < depthAfter depth line := by have := depthAfterNonneg depth line; omega
    rw [if_neg ends]
    cases cut : chunksFrom (depthAfter depth line) rest with
    | nil =>
      refine ⟨[], [], rfl, fun kept dropping => ?_⟩
      simp [placeAtOpen some, Pruning.outcome, cut, keptAfter, keptChunks]
    | cons chunk later =>
      refine ⟨chunk, later, rfl, fun kept dropping => ?_⟩
      simp [placeAtOpen some, Pruning.outcome, cut]

theorem foldOutcome (used : Text → Bool) (state : Pruning) (rest : List Text) :
    (rest.foldl (Pruning.step used) state).kept.reverse = state.outcome used rest := by
  induction rest generalizing state with
  | nil =>
    obtain ⟨kept, place⟩ := state
    cases place <;> simp [Pruning.outcome, chunksFrom, keptAfter, keptChunks]
  | cons line rest ih =>
    obtain ⟨more, later, cut, begun⟩ := chunkBegun used state.place.depth line rest
    rw [List.foldl_cons, ih, stepEq, begun, outcomeCons used state cut]
    cases state.drops used line <;> simp

theorem chunksFlatten (depth : Int) (rest : List Text) : (chunksFrom depth rest).flatten = rest := by
  induction rest generalizing depth with
  | nil => rfl
  | cons line rest ih =>
    rw [chunksFrom]
    split
    · rw [List.flatten_cons, ih]
      rfl
    · have whole := ih (depthAfter depth line)
      split
      · rename_i none
        rw [none] at whole
        simp [← whole]
      · rename_i chunk chunks cut
        rw [cut] at whole
        simp [← whole]

theorem keptChunksSublist (used : Text → Bool) (before : List Text) (chunks : List (List Text)) :
    (keptChunks used before chunks).Sublist chunks := by
  induction chunks generalizing before with
  | nil => exact List.Sublist.slnil
  | cons chunk rest ih =>
    rw [keptChunks]
    split
    · exact (ih before).cons chunk
    · exact (ih (before ++ chunk)).cons_cons chunk

theorem chunksPart (used : Text → Bool) (before : List Text) (chunks : List (List Text)) :
    ∃ lost, (keptChunks used before chunks ++ lost).Perm chunks ∧ ∀ chunk ∈ lost,
      ∃ line name, chunk.head? = some line ∧ ruleClass? line = some name ∧ used name = false := by
  induction chunks generalizing before with
  | nil => exact ⟨[], .nil, by simp⟩
  | cons chunk rest ih =>
    rw [keptChunks]
    split
    · rename_i goes
      obtain ⟨lost, part, named⟩ := ih before
      have asks := (Bool.and_eq_true_iff.mp goes).1
      obtain ⟨line, first, unused⟩ : ∃ line, chunk.head? = some line ∧ asksUnused used line = true := by
        simpa [Option.any_eq_true] using asks
      obtain ⟨name, asked, none⟩ : ∃ name, ruleClass? line = some name ∧ used name = false := by
        simpa [asksUnused, Option.any_eq_true] using unused
      refine ⟨chunk :: lost, List.perm_middle.trans (part.cons chunk), fun other mem => ?_⟩
      rcases List.mem_cons.mp mem with rfl | later
      · exact ⟨line, name, first, asked, none⟩
      · exact named other later
    · obtain ⟨lost, part, named⟩ := ih (before ++ chunk)
      exact ⟨lost, part.cons chunk, named⟩

theorem pruneKept (used : Text → Bool) (css : Text) :
    prune used css = unlines (keptAfter used [] (chunks css)) := by
  rw [prune, Pruning.text, foldOutcome]
  rfl

theorem pruneFiltersChunks (used : Text → Bool) (css : Text) :
    (chunks css).flatten = lines css ∧
      prune used css = unlines (keptChunks used [] (chunks css)).flatten := by
  refine ⟨chunksFlatten 0 (lines css), ?_⟩
  rw [pruneKept, keptAfter, List.nil_append]

end SourceSweep.Style
