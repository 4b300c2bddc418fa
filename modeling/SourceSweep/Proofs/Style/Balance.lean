import SourceSweep.Proofs.Style.Stays

/-! Stylesheets whose braces are balanced. Their chunks are balanced each on its own, so that what a
pruning leaves of them is balanced too. -/
namespace SourceSweep.Style
open Text

theorem endedUnlines {pieces : List Text} (some : pieces ≠ []) : ended pieces = unlines pieces ++ ['\n'] := by
  obtain ⟨front, line, rfl⟩ := (List.eq_nil_or_concat pieces).resolve_left some
  rw [List.concat_eq_append, endedAppend, unlinesEnded front (List.cons_ne_nil line [])]
  simp [ended, unlines, joinWith]

theorem openBehindEnded {pieces : List Text} (some : pieces ≠ []) (before : Nat) :
    openBehind? before (ended pieces) = openBehind? before (unlines pieces) := by
  rw [endedUnlines some, openBehindAppend]
  cases openBehind? before (unlines pieces) <;> rfl

theorem balancedEnded (pieces : List Text) : isBalanced (ended pieces) = isBalanced (unlines pieces) := by
  cases pieces with
  | nil => rfl
  | cons line rest => simp only [isBalanced, openBehindEnded (List.cons_ne_nil line rest)]

/-- Chunks of which the first closes the blocks that were open before it, and each other one its own. -/
def Closed : (before : Nat) → List (List Text) → Prop
  | _, [] => True
  | before, chunk :: rest => openBehind? before (ended chunk) = some 0 ∧ Closed 0 rest

theorem chunksClosed {before : Nat} {pieces : List Text}
    (ends : openBehind? before (ended pieces) = some 0) : Closed before (chunksFrom before pieces) := by
  induction pieces generalizing before with
  | nil => trivial
  | cons line rest ih =>
    rw [show ended (line :: rest) = ended [line] ++ ended rest by simp [ended], openBehindAppend] at ends
    obtain ⟨depth, here, later⟩ := Option.bind_eq_some_iff.mp ends
    have through : depthAfter before line = depth := depthThrough here
    have closed := ih later
    rw [chunksFrom, through]
    by_cases none : depth = 0
    · subst none
      exact ⟨here, closed⟩
    · rw [if_neg (by omega)]
      cases cut : chunksFrom depth rest with
      | nil =>
        have whole := chunksFlatten depth rest
        rw [cut] at whole
        rw [← whole] at later
        exact absurd (Option.some.inj later) none
      | cons chunk chunks =>
        rw [cut] at closed
        refine ⟨?_, closed.2⟩
        rw [show ended (line :: chunk) = ended [line] ++ ended chunk by simp [ended], openBehindAppend, here]
        exact closed.1

theorem Closed.balanced {chunks : List (List Text)} (closed : Closed 0 chunks) :
    ∀ chunk ∈ chunks, isBalanced (ended chunk) = true := by
  induction chunks with
  | nil => simp
  | cons first rest ih =>
    intro chunk mem
    rcases List.mem_cons.mp mem with rfl | later
    · simp [isBalanced, closed.1]
    · exact ih closed.2 chunk later

theorem balancedFlatten {chunks : List (List Text)}
    (balanced : ∀ chunk ∈ chunks, isBalanced (ended chunk) = true) :
    isBalanced (ended chunks.flatten) = true := by
  induction chunks with
  | nil => rfl
  | cons chunk rest ih =>
    rw [List.flatten_cons, endedAppend, balancedAppend (balanced chunk List.mem_cons_self)]
    exact ih fun other mem => balanced other (List.mem_cons_of_mem chunk mem)

theorem chunksBalanced {css : Text} (balanced : isBalanced css = true) :
    ∀ chunk ∈ chunks css, isBalanced (ended chunk) = true := by
  have whole : unlines (lines css) = css := joinWithCutAt '\n' css
  have ends : isBalanced (ended (lines css)) = true := by rw [balancedEnded, whole, balanced]
  exact (chunksClosed (by simpa [isBalanced] using ends)).balanced

theorem pruneBalanced {css : Text} (balanced : isBalanced css = true) (used : Text → Bool) :
    isBalanced (prune used css) = true ∧ ∀ chunk ∈ chunks css, isBalanced (unlines chunk) = true := by
  have chunked := chunksBalanced balanced
  refine ⟨?_, fun chunk mem => by rw [← balancedEnded, chunked chunk mem]⟩
  have kept := (keptChunksSublist used [] (chunks css)).subset
  rw [pruneKept, keptAfter, List.nil_append, ← balancedEnded]
  exact balancedFlatten fun chunk mem => chunked chunk (kept mem)

def nestedSheet : Text :=
  ".old \x7b\n  a: b; &:hover \x7b\n\x7d \x7d @media print \x7b\n\x7d\n.new \x7b c: d \x7d\n@page \x7b a \x7b\n\x7d \x7d".toList

theorem nestedSheetBalanced : isBalanced nestedSheet = true ∧
    prune (fun _ => false) nestedSheet = "@page \x7b a \x7b\n\x7d \x7d".toList ∧
    isBalanced (prune (fun _ => false) nestedSheet) = true ∧
    ∀ chunk ∈ chunks nestedSheet, isBalanced (unlines chunk) = true := by
  have balanced : isBalanced nestedSheet = true := by decide +kernel
  exact ⟨balanced, by decide +kernel, pruneBalanced balanced (fun _ => false)⟩

end SourceSweep.Style
