import SourceSweep.Text.Basic

/-! Texts in the order of their code points, a text before its extensions. -/
namespace SourceSweep.Text

def atMost : Text → Text → Bool
  | [], _ => true
  | _ :: _, [] => false
  | a :: left, b :: right => if a = b then atMost left right else a.toNat < b.toNat

def place (text : Text) : List Text → List Text
  | [] => [text]
  | head :: rest => if atMost text head then text :: head :: rest else head :: place text rest

def sort (texts : List Text) : List Text := texts.foldr place []

theorem placePerm (text : Text) (texts : List Text) : (place text texts).Perm (text :: texts) := by
  induction texts with
  | nil => exact .refl _
  | cons head rest ih =>
    simp only [place]
    split
    · exact .refl _
    · exact (ih.cons head).trans (.swap text head rest)

theorem sortPerm (texts : List Text) : (sort texts).Perm texts := by
  induction texts with
  | nil => exact .refl _
  | cons text rest ih => exact (placePerm text (sort rest)).trans (ih.cons text)

end SourceSweep.Text
