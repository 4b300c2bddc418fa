import Mathlib.Data.List.Basic
import SourceSweep.Usage.Reference

/-! What a search pattern matches, said over the pieces of a text, and the search of a pattern that tries
longer runs before shorter ones and earlier places before later ones. A pattern is found exactly when a
piece of the text is matched, and that search never passes a match over. -/
namespace SourceSweep.Usage
open Text

def atEdge (front rest : Text) : Bool := isEdge front.getLast? rest.head?

namespace Part

/-- Whether a piece of a text is what the part stands for, between what is before and what is behind. -/
def Covers (front piece behind : Text) : Part → Prop
  | anyOf choices => piece ∈ choices
  | one fits => ∃ c, piece = [c] ∧ fits c = true
  | many fits => piece.all fits = true
  | edge => piece = [] ∧ atEdge front behind = true

end Part

def Matches : Pattern → (front matched behind : Text) → Prop
  | [], _, matched, _ => matched = []
  | part :: parts, front, matched, behind => ∃ piece later, matched = piece ++ later ∧
      part.Covers front piece (later ++ behind) ∧ Matches parts (front ++ piece) later behind

theorem pastLast (front choice rest : Text) :
    Spot.past ⟨front.getLast?, choice ++ rest⟩ choice rest = ⟨(front ++ choice).getLast?, rest⟩ := by
  rw [Spot.past, List.getLast?_append]

theorem anyRunIff (fits : Char → Bool) (holds : Spot → Bool) (front rest : Text) :
    anyRun fits holds front.getLast? rest = true ↔ ∃ piece later, rest = piece ++ later ∧
      piece.all fits = true ∧ holds ⟨(front ++ piece).getLast?, later⟩ = true := by
  induction rest generalizing front with
  | nil => simp [anyRun]
  | cons c rest ih =>
    have further := ih (front ++ [c])
    rw [List.getLast?_concat] at further
    rw [anyRun, Bool.or_eq_true, Bool.and_eq_true, further]
    constructor
    · rintro (here | ⟨fit, piece, later, rfl, all, holds⟩)
      · exact ⟨[], c :: rest, rfl, rfl, by rwa [List.append_nil]⟩
      · exact ⟨c :: piece, later, rfl, by simp [fit, all], by simpa using holds⟩
    · rintro ⟨piece, later, cut, all, holds⟩
      cases piece with
      | nil =>
        obtain rfl : c :: rest = later := cut
        exact .inl (by rwa [List.append_nil] at holds)
      | cons d piece =>
        obtain ⟨rfl, rfl⟩ := List.cons.inj cut
        obtain ⟨fit, all⟩ := Bool.and_eq_true_iff.mp all
        exact .inr ⟨fit, piece, later, rfl, all, by simpa using holds⟩

theorem fitsAtIff (pattern : Pattern) (front rest : Text) :
    fitsAt pattern ⟨front.getLast?, rest⟩ = true ↔
      ∃ matched behind, rest = matched ++ behind ∧ Matches pattern front matched behind := by
  induction pattern generalizing front rest with
  | nil => exact ⟨fun _ => ⟨[], rest, rfl, rfl⟩, fun _ => rfl⟩
  | cons part parts ih =>
    -- Every part leaves the same to show: a piece that it covers, and a match of the other parts behind.
    have regroup : (∃ piece rest', rest = piece ++ rest' ∧ part.Covers front piece rest' ∧
        fitsAt parts ⟨(front ++ piece).getLast?, rest'⟩ = true) ↔
        ∃ matched behind, rest = matched ++ behind ∧ Matches (part :: parts) front matched behind := by
      constructor
      · rintro ⟨piece, rest', rfl, covers, fits⟩
        obtain ⟨later, behind, rfl, matched⟩ := (ih _ _).mp fits
        exact ⟨piece ++ later, behind, by simp, piece, later, rfl, covers, matched⟩
      · rintro ⟨_, behind, rfl, piece, later, rfl, covers, matched⟩
        exact ⟨piece, later ++ behind, by simp, covers, (ih _ _).mpr ⟨later, behind, rfl, matched⟩⟩
    rw [← regroup]
    cases part with
    | anyOf choices =>
      rw [fitsAt, List.any_eq_true]
      constructor
      · rintro ⟨choice, among, fits⟩
        split at fits
        · rename_i rest' begins
          obtain rfl := List.isPrefixOf?_eq_some_iff_append_eq.mp begins
          exact ⟨choice, rest', rfl, among, by rwa [pastLast] at fits⟩
        · cases fits
      · rintro ⟨choice, rest', rfl, among, fits⟩
        have begins : choice.isPrefixOf? (choice ++ rest') = some rest' :=
          List.isPrefixOf?_eq_some_iff_append_eq.mpr rfl
        exact ⟨choice, among, by simpa only [begins, pastLast] using fits⟩
    | one fits =>
      cases rest with
      | nil => simp [fitsAt, Part.Covers]
      | cons c rest =>
        rw [fitsAt, Bool.and_eq_true]
        constructor
        · rintro ⟨fit, later⟩
          exact ⟨[c], rest, rfl, ⟨c, rfl, fit⟩, by rwa [List.getLast?_concat]⟩
        · rintro ⟨_, rest', cut, ⟨d, rfl, fit⟩, later⟩
          obtain ⟨rfl, rfl⟩ := List.cons.inj cut
          exact ⟨fit, by rwa [List.getLast?_concat] at later⟩
    | many fits => exact anyRunIff fits (fitsAt parts) front rest
    | edge =>
      rw [fitsAt, Bool.and_eq_true]
      constructor
      · rintro ⟨edge, later⟩
        exact ⟨[], rest, rfl, ⟨rfl, edge⟩, by rwa [List.append_nil]⟩
      · rintro ⟨_, rest', rfl, ⟨rfl, edge⟩, later⟩
        exact ⟨edge, by rwa [List.append_nil] at later⟩

theorem foundIff (pattern : Pattern) (text : Text) : found pattern text = true ↔
    ∃ front matched behind, text = front ++ (matched ++ behind) ∧ Matches pattern front matched behind := by
  have anywhere := anyRunIff (fun _ => true) (fitsAt pattern) [] text
  rw [List.getLast?_nil] at anywhere
  rw [found, anywhere]
  constructor
  · rintro ⟨front, rest, rfl, _, fits⟩
    obtain ⟨matched, behind, rfl, holds⟩ := (fitsAtIff pattern front rest).mp fits
    exact ⟨front, matched, behind, rfl, holds⟩
  · rintro ⟨front, matched, behind, rfl, holds⟩
    exact ⟨front, matched ++ behind, rfl, by simp, (fitsAtIff pattern front _).mpr ⟨matched, behind, rfl, holds⟩⟩

theorem matchesAppend (first second : Pattern) (front matched behind : Text) :
    Matches (first ++ second) front matched behind ↔ ∃ piece later, matched = piece ++ later ∧
      Matches first front piece (later ++ behind) ∧ Matches second (front ++ piece) later behind := by
  induction first generalizing front matched with
  | nil => simp [Matches]
  | cons part parts ih =>
    simp only [List.cons_append, Matches, ih]
    constructor
    · rintro ⟨piece, _, rfl, covers, middle, later, rfl, holds, ends⟩
      exact ⟨piece ++ middle, later, by simp, ⟨piece, middle, rfl, by simpa using covers, holds⟩, by simpa using ends⟩
    · rintro ⟨_, later, rfl, ⟨piece, middle, rfl, covers, holds⟩, ends⟩
      exact ⟨piece, middle ++ later, by simp, by simpa using covers, middle, later, rfl, holds, by simpa using ends⟩

theorem foundAppend (first second : Pattern) (text : Text) : found (first ++ second) text = true ↔
    ∃ front piece later behind, text = front ++ (piece ++ (later ++ behind)) ∧
      Matches first front piece (later ++ behind) ∧ Matches second (front ++ piece) later behind := by
  simp only [foundIff, matchesAppend]
  constructor
  · rintro ⟨front, _, behind, rfl, piece, later, rfl, begins, ends⟩
    exact ⟨front, piece, later, behind, by simp, begins, ends⟩
  · rintro ⟨front, piece, later, behind, rfl, begins, ends⟩
    exact ⟨front, piece ++ later, behind, by simp, piece, later, rfl, begins, ends⟩

theorem foundInside {first pattern last : Pattern} {text : Text}
    (whole : found (first ++ (pattern ++ last)) text = true) : found pattern text = true := by
  obtain ⟨front, piece, _, behind, rfl, _, holds⟩ := (foundAppend _ _ _).mp whole
  obtain ⟨matched, later, rfl, holds, _⟩ := (matchesAppend _ _ _ _ _).mp holds
  exact (foundIff _ _).mpr ⟨front ++ piece, matched, later ++ behind, by simp, holds⟩

def runWays (fits : Char → Bool) (ways : Spot → List Nat) : Option Char → Text → List Nat
  | before, [] => ways ⟨before, []⟩
  | before, c :: rest =>
    (if fits c then (runWays fits ways (some c) rest).map (1 + ·) else []) ++ ways ⟨before, c :: rest⟩

def ways : Pattern → Spot → List Nat
  | [], _ => [0]
  | .anyOf choices :: parts, spot => choices.flatMap fun choice =>
    match choice.isPrefixOf? spot.rest with
    | some rest => (ways parts (spot.past choice rest)).map (choice.length + ·)
    | none => []
  | .one fits :: parts, spot =>
    match spot.rest with
    | c :: rest => if fits c then (ways parts ⟨some c, rest⟩).map (1 + ·) else []
    | [] => []
  | .many fits :: parts, spot => runWays fits (ways parts) spot.before spot.rest
  | .edge :: parts, spot => if isEdge spot.before spot.rest.head? then ways parts spot else []

def firstMatch? (pattern : Pattern) : (start : Nat) → Option Char → Text → Option (Nat × Nat)
  | start, before, [] => (ways pattern ⟨before, []⟩).head?.map (start, ·)
  | start, before, c :: rest =>
    ((ways pattern ⟨before, c :: rest⟩).head?.map (start, ·)).or
      (firstMatch? pattern (start + 1) (some c) rest)

theorem runWaysSome (fits : Char → Bool) {ways : Spot → List Nat} {holds : Spot → Bool}
    (agree : ∀ spot, (ways spot).head?.isSome = holds spot) (before : Option Char) (rest : Text) :
    (runWays fits ways before rest).head?.isSome = anyRun fits holds before rest := by
  induction rest generalizing before with
  | nil => exact agree _
  | cons c rest ih =>
    rw [runWays, anyRun, List.head?_append, Option.isSome_or, agree, Bool.or_comm]
    cases fit : fits c <;> simp [ih]

theorem waysSome (pattern : Pattern) (spot : Spot) :
    (ways pattern spot).head?.isSome = fitsAt pattern spot := by
  induction pattern generalizing spot with
  | nil => rfl
  | cons part parts ih =>
    cases part with
    | anyOf choices =>
      rw [ways, fitsAt]
      induction choices with
      | nil => rfl
      | cons choice choices others =>
        rw [List.flatMap_cons, List.any_cons, List.head?_append, Option.isSome_or, others]
        refine congrArg (· || _) ?_
        cases choice.isPrefixOf? spot.rest with
        | none => rfl
        | some rest => simp [ih]
    | one fits =>
      rw [ways, fitsAt]
      cases spot.rest with
      | nil => rfl
      | cons c rest => cases fit : fits c <;> simp [fit, ih]
    | many fits => exact runWaysSome fits ih spot.before spot.rest
    | edge =>
      rw [ways, fitsAt]
      cases edge : isEdge spot.before spot.rest.head? <;> simp [ih]

theorem firstMatchFound (pattern : Pattern) (start : Nat) (before : Option Char) (text : Text) :
    (firstMatch? pattern start before text).isSome = anyRun (fun _ => true) (fitsAt pattern) before text := by
  induction text generalizing start before with
  | nil => rw [firstMatch?, anyRun, Option.isSome_map, waysSome]
  | cons c rest ih =>
    rw [firstMatch?, anyRun, Option.isSome_or, Option.isSome_map, waysSome, ih, Bool.true_and]

end SourceSweep.Usage
