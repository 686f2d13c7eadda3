import Mathlib.Algebra.BigOperators.Ring.List
import Mathlib.Algebra.Order.BigOperators.Group.List
import Mathlib.Algebra.Order.Field.Basic

/-!
# Weighted means of lists

The mean of numbers with positive weights lies between two of them, and depends on the proportion
of the weights only.
-/

set_option autoImplicit false

namespace TradingEdge.Library

variable {α : Type} [Field α]

/-- The sum of the weights of a list of weights and numbers. -/
def totalWeight (l : List (α × α)) : α := (l.map Prod.fst).sum

/-- The sum of the numbers times their weights, over the sum of the weights. -/
def weightedMean (l : List (α × α)) : α := (l.map fun v => v.1 * v.2).sum / totalWeight l

/-- Weights divided by a number, as a renormalisation does. -/
def rescale (total : α) (l : List (α × α)) : List (α × α) := l.map fun v => (v.1 / total, v.2)

/-- Rescaling divides the total weight. -/
theorem totalWeight_rescale (total : α) (l : List (α × α)) :
    totalWeight (rescale total l) = totalWeight l / total := by
  unfold totalWeight rescale
  rw [List.map_map, div_eq_mul_inv, ← List.sum_map_mul_right]
  simp only [Function.comp_def, div_eq_mul_inv]

/-- **Only the proportion counts.** -/
theorem weightedMean_rescale {total : α} (htotal : total ≠ 0) (l : List (α × α)) :
    weightedMean (rescale total l) = weightedMean l := by
  have hsum : ((rescale total l).map fun v => v.1 * v.2).sum =
      (l.map fun v => v.1 * v.2).sum / total := by
    unfold rescale
    rw [List.map_map, div_eq_mul_inv, ← List.sum_map_mul_right]
    congr 1
    apply List.map_congr_left
    intro v _
    rw [Function.comp_apply, div_eq_mul_inv]
    exact mul_right_comm _ _ _
  unfold weightedMean
  rw [hsum, totalWeight_rescale, div_div_div_cancel_right₀ htotal]

variable [LinearOrder α] [IsStrictOrderedRing α]

/-- Positive weights add up to a positive one. -/
theorem totalWeight_pos {l : List (α × α)} (hpos : ∀ v ∈ l, 0 < v.1) (hne : l ≠ []) :
    0 < totalWeight l := by
  apply List.sum_pos
  · intro w hw
    obtain ⟨v, hv, rfl⟩ := List.mem_map.mp hw
    exact hpos v hv
  · simpa using hne

/-- A mean is not below all of the numbers, and not above them. -/
theorem weightedMean_mem {l : List (α × α)} (hpos : ∀ v ∈ l, 0 < v.1) (hne : l ≠ []) :
    (∃ v ∈ l, v.2 ≤ weightedMean l) ∧ ∃ v ∈ l, weightedMean l ≤ v.2 := by
  have htotal := totalWeight_pos hpos hne
  have hmean : (l.map fun v => v.1 * weightedMean l).sum = (l.map fun v => v.1 * v.2).sum := by
    rw [List.sum_map_mul_right]
    exact mul_div_cancel₀ _ htotal.ne'
  constructor
  · by_contra hnone
    have hlt : ∀ v ∈ l, v.1 * weightedMean l < v.1 * v.2 := by
      intro v hv
      refine mul_lt_mul_of_pos_left ?_ (hpos v hv)
      by_contra hle
      exact hnone ⟨v, hv, not_lt.mp hle⟩
    exact absurd hmean (List.sum_lt_sum_of_ne_nil hne _ _ hlt).ne
  · by_contra hnone
    have hlt : ∀ v ∈ l, v.1 * v.2 < v.1 * weightedMean l := by
      intro v hv
      refine mul_lt_mul_of_pos_left ?_ (hpos v hv)
      by_contra hle
      exact hnone ⟨v, hv, not_lt.mp hle⟩
    exact absurd hmean (List.sum_lt_sum_of_ne_nil hne _ _ hlt).ne'

end TradingEdge.Library
