import SourceSweep.Proofs.Script.Calls
import SourceSweep.Script.Strip

/-! Stripping a text that was stripped before. Dropping calls can bring a new one about: a token in
two halves closes up, or a call that nested too deep has lost the one inside it. The second time
finds nothing more exactly when the first one left no such call. -/
namespace SourceSweep.Script
open Text

theorem stripOfToken {script : Text} (token : 0 < tokenCount script) :
    strip script = collapseBlankRuns (dropCalls script) := by
  rw [strip, if_pos token, capFeedsOfCollapse]

theorem tokenOfCall {script : Text} (holds : holdsCall script = true) : 0 < tokenCount script := by
  refine Nat.pos_of_ne_zero fun free => ?_
  simp [noCallOfNoToken free] at holds

theorem holdsCallStripped (script : Text) :
    holdsCall (strip script) = holdsCall (dropCalls script) := by
  by_cases token : 0 < tokenCount script
  · rw [stripOfToken token, holdsCallCollapsed]
  · have free : tokenCount script = 0 := Nat.eq_zero_of_not_pos token
    rw [stripOfNoToken free, dropCallsOfNoCall (noCallOfNoToken free)]

theorem stripShortens {script : Text} (holds : holdsCall script = true) :
    (strip script).length < script.length := by
  rw [stripOfToken (tokenOfCall holds)]
  exact Nat.lt_of_le_of_lt (collapseNarrows _).lengthLe (dropCallsShortens holds)

theorem stripOfNoCall {script : Text} (free : holdsCall script = false)
    (collapsed : collapseBlankRuns script = script) : strip script = script := by
  by_cases token : 0 < tokenCount script
  · rw [stripOfToken token, dropCallsOfNoCall free, collapsed]
  · exact stripOfNoToken (Nat.eq_zero_of_not_pos token)

theorem stripTwiceIff (script : Text) :
    strip (strip script) = strip script ↔ holdsCall (dropCalls script) = false := by
  rw [← holdsCallStripped]
  constructor
  · intro same
    refine Bool.eq_false_iff.mpr fun holds => ?_
    exact absurd (stripShortens holds) (by rw [same]; exact Nat.lt_irrefl _)
  · intro free
    by_cases token : 0 < tokenCount script
    · refine stripOfNoCall free ?_
      rw [stripOfToken token, collapseTwice]
    · have plain := stripOfNoToken (Nat.eq_zero_of_not_pos token)
      rw [plain, plain]

/- A call inside one that nests too deep, and a token in two halves with a call between them. -/
theorem stripTwiceFindsMore :
    strip (strip "console.log(a(b(console.log(1))));".toList) ≠
      strip "console.log(a(b(console.log(1))));".toList ∧
    strip (strip "consoleconsole.log(1).log(2);".toList) ≠
      strip "consoleconsole.log(1).log(2);".toList := by
  decide +kernel

end SourceSweep.Script
