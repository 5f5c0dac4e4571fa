/-!
Sets of characters as ranges of code points.
-/
namespace WideColumn.Text

/-- First and last code points of each range. -/
abbrev Ranges := List (Nat × Nat)

namespace Ranges

def contains (ranges : Ranges) (c : Char) : Bool :=
  ranges.any fun r => r.1 ≤ c.toNat ∧ c.toNat ≤ r.2

/-- The ranges ascend and no two of them touch, so that each set has one table. -/
def Apart (ranges : Ranges) : Prop := ∀ p ∈ ranges.zip ranges.tail, p.1.2 + 1 < p.2.1

instance (ranges : Ranges) : Decidable ranges.Apart := by
  unfold Apart; infer_instance

end Ranges
end WideColumn.Text
