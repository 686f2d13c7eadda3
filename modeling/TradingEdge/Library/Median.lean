import Mathlib.Algebra.Field.Defs
import TradingEdge.Library.KeySort

/-!
# The median of a list

The middle of the elements in order, or half way between the two in the middle.  It does not
depend on the order of the list (`median_perm`).
-/

set_option autoImplicit false

namespace TradingEdge.Library

/-- Python's `statistics.median`, or `none` of no data. -/
def median {K : Type} [LE K] [DecidableLE K] [Add K] [Div K] [NatCast K] (xs : List K) : Option K :=
  let data := sortedBy id xs
  let n := data.length
  if n % 2 = 1 then data[n / 2]?
  else do
    let below ← data[n / 2 - 1]?
    let above ← data[n / 2]?
    return (below + above) / (2 : ℕ)

variable {K : Type} [LinearOrder K]

/-- Lists of the same elements are sorted alike. -/
theorem sortedBy_id_perm {xs ys : List K} (h : xs.Perm ys) : sortedBy id xs = sortedBy id ys := by
  have hperm : (sortedBy id xs).Perm (sortedBy id ys) :=
    (sortedBy_perm id xs).trans (h.trans (sortedBy_perm id ys).symm)
  refine hperm.eq_of_pairwise ?_ (pairwise_sortedBy id xs) (pairwise_sortedBy id ys)
  intro a b _ _ hab hba
  exact le_antisymm hab hba

/-- A list in order stays as it is. -/
theorem sortedBy_id_of_pairwise {xs : List K} (h : xs.Pairwise (· ≤ ·)) : sortedBy id xs = xs :=
  List.mergeSort_of_pairwise (h.imp fun hle => decide_eq_true hle)

variable [Field K]

/-- The median does not depend on the order. -/
theorem median_perm {xs ys : List K} (h : xs.Perm ys) : median xs = median ys := by
  unfold median
  rw [sortedBy_id_perm h]

end TradingEdge.Library
