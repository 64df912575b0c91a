import Mathlib.Order.MinMax
import Mathlib.Tactic.Tauto

namespace Spans

variable {α : Type*} [LinearOrder α]

-- Half open: a span that closes at an instant and one that opens at it do not
-- meet. The spans are bare pairs, so an empty pair inside another one does.
def Meets (x y : α × α) : Prop := x.1 < y.2 ∧ y.1 < x.2

instance (x y : α × α) : Decidable (Meets x y) := inferInstanceAs (Decidable (_ ∧ _))

def Covers (x : α × α) (i : α) : Prop := x.1 ≤ i ∧ i < x.2

instance (x : α × α) (i : α) : Decidable (Covers x i) := inferInstanceAs (Decidable (_ ∧ _))

theorem Meets.symm {x y : α × α} (met : Meets x y) : Meets y x := ⟨met.2,met.1⟩

theorem Meets.widen {x y z : α × α} (met : Meets x y) (opens : z.1 ≤ y.1) (closes : y.2 ≤ z.2) :
    Meets x z := ⟨lt_of_lt_of_le met.1 closes,lt_of_le_of_lt opens met.2⟩

theorem covers_meets {x y : α × α} {i : α} (one : Covers x i) (two : Covers y i) : Meets x y :=
  ⟨lt_of_le_of_lt one.1 two.2,lt_of_le_of_lt two.1 one.2⟩

-- For spans that are not empty, meeting is having an instant in common.
theorem meets_iff_covers {x y : α × α} (left : x.1 < x.2) (right : y.1 < y.2) :
    Meets x y ↔ ∃ i, Covers x i ∧ Covers y i := by
  constructor
  · intro met
    refine ⟨max x.1 y.1,⟨le_max_left _ _,?_⟩,le_max_right _ _,?_⟩
    · exact max_lt left met.2
    · exact max_lt met.1 right
  · rintro ⟨i,one,two⟩
    exact covers_meets one two

-- A span cut to a window. It may come out empty or backwards.
def cut (window x : α × α) : α × α := (max x.1 window.1,min x.2 window.2)

theorem cut_covers {window x : α × α} {i : α} :
    Covers (cut window x) i ↔ Covers x i ∧ Covers window i := by
  simp only [Covers,cut,max_le_iff,lt_min_iff]
  tauto

end Spans
