import Mathlib.Data.List.Nodup
import SourceSweep.Text.Order

/-! Sorted texts. A list that is sorted and holds no text twice is known from its members alone. -/
namespace SourceSweep.Text

theorem atMostTotal (left right : Text) : atMost left right = true ∨ atMost right left = true := by
  induction left generalizing right with
  | nil => exact .inl rfl
  | cons a left ih =>
    cases right with
    | nil => exact .inr rfl
    | cons b right =>
      by_cases same : a = b
      · simpa [atMost, same] using ih right
      · have differ : a.toNat ≠ b.toNat := fun number => same (Char.toNat_inj.mp number)
        simpa [atMost, same, Ne.symm same] using Nat.lt_or_gt_of_ne differ

theorem atMostTrans {first second third : Text} (one : atMost first second = true)
    (two : atMost second third = true) : atMost first third = true := by
  induction first generalizing second third with
  | nil => rfl
  | cons a first ih =>
    cases second with
    | nil => cases one
    | cons b second =>
      cases third with
      | nil => cases two
      | cons c third =>
        by_cases ab : a = b
        · subst ab
          by_cases ac : a = c
          · simp only [atMost, ac, if_true] at one two ⊢
            exact ih one two
          · simpa only [atMost, ac, if_false] using two
        · simp only [atMost, ab, if_false, decide_eq_true_eq] at one
          by_cases bc : b = c
          · simpa [atMost, ← bc, ab] using one
          · simp only [atMost, bc, if_false, decide_eq_true_eq] at two
            have ac : a ≠ c := by
              rintro rfl
              omega
            simp only [atMost, ac, if_false, decide_eq_true_eq]
            omega

theorem atMostAntisymm {left right : Text} (one : atMost left right = true)
    (two : atMost right left = true) : left = right := by
  induction left generalizing right with
  | nil =>
    cases right with
    | nil => rfl
    | cons b right => cases two
  | cons a left ih =>
    cases right with
    | nil => cases one
    | cons b right =>
      by_cases same : a = b
      · simp only [atMost, same, if_true] at one two
        rw [same, ih one two]
      · simp only [atMost, same, Ne.symm same, if_false, decide_eq_true_eq] at one two
        omega

def Sorted (texts : List Text) : Prop := texts.Pairwise (atMost · · = true)

theorem placeSorted (text : Text) {texts : List Text} (sorted : Sorted texts) :
    Sorted (place text texts) := by
  induction texts with
  | nil => exact List.pairwise_singleton _ text
  | cons head rest ih =>
    obtain ⟨least, inner⟩ := List.pairwise_cons.mp sorted
    unfold place
    split
    · rename_i before
      refine List.pairwise_cons.mpr ⟨?_, sorted⟩
      exact List.forall_mem_cons.mpr ⟨before, fun other mem => atMostTrans before (least other mem)⟩
    · rename_i after
      refine List.pairwise_cons.mpr ⟨fun other mem => ?_, ih inner⟩
      rcases List.mem_cons.mp ((placePerm text rest).mem_iff.mp mem) with rfl | mem
      · exact (atMostTotal other head).resolve_left after
      · exact least other mem

theorem sortSorted (texts : List Text) : Sorted (sort texts) := by
  induction texts with
  | nil => exact .nil
  | cons text rest ih => exact placeSorted text ih

theorem Sorted.same {first second : List Text} (one : Sorted first) (two : Sorted second)
    (once : first.Nodup) (once' : second.Nodup) (members : ∀ text, text ∈ first ↔ text ∈ second) :
    first = second :=
  List.Perm.eq_of_pairwise (fun _ _ _ _ => atMostAntisymm) one two
    ((List.perm_ext_iff_of_nodup once once').mpr members)

end SourceSweep.Text
