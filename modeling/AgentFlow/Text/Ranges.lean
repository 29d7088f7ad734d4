/-!
# Classes of characters given by ranges

A class with many members is written as the list of the ranges of its code points.

## Main definitions

* `Ranges`, `Ranges.has`: a list of closed ranges, and membership of a code point.
-/

namespace AgentFlow

/-- Closed ranges of code points. -/
abbrev Ranges := List (Nat × Nat)

/-- The code point lies in one of the ranges. -/
def Ranges.has (r : Ranges) (n : Nat) : Bool :=
  r.any fun p => p.1 ≤ n && n ≤ p.2

/-- Membership, said with an existential. -/
theorem Ranges.has_eq_true_iff {r : Ranges} {n : Nat} :
    r.has n = true ↔ ∃ p ∈ r, p.1 ≤ n ∧ n ≤ p.2 := by
  simp [Ranges.has, List.any_eq_true]

end AgentFlow
