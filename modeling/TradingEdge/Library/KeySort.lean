import Mathlib.Order.Lattice

/-!
# Sorting by a key

`sortedBy key` is Python's `sorted(..., key=key)`: ascending and stable.
-/

set_option autoImplicit false

namespace TradingEdge.Library

/-- The elements in ascending order of their keys, those of equal keys in the order they had. -/
def sortedBy {α κ : Type} [LE κ] [DecidableLE κ] (key : α → κ) (l : List α) : List α :=
  l.mergeSort fun a b => key a ≤ key b

variable {α κ : Type} [LinearOrder κ]

/-- Sorting keeps the elements. -/
theorem sortedBy_perm (key : α → κ) (l : List α) : (sortedBy key l).Perm l :=
  List.mergeSort_perm l _

/-- Sorting keeps their number. -/
theorem length_sortedBy (key : α → κ) (l : List α) : (sortedBy key l).length = l.length :=
  (sortedBy_perm key l).length_eq

/-- A sorted list has the elements of the list. -/
theorem mem_sortedBy {key : α → κ} {l : List α} {a : α} : a ∈ sortedBy key l ↔ a ∈ l :=
  (sortedBy_perm key l).mem_iff

/-- The comparison of keys, as the sort takes it. -/
theorem key_le_trans (key : α → κ) (a b c : α) (hab : decide (key a ≤ key b) = true)
    (hbc : decide (key b ≤ key c) = true) : decide (key a ≤ key c) = true :=
  decide_eq_true ((of_decide_eq_true hab).trans (of_decide_eq_true hbc))

/-- Of two keys one is at most the other. -/
theorem key_le_total (key : α → κ) (a b : α) :
    (decide (key a ≤ key b) || decide (key b ≤ key a)) = true := by
  rw [Bool.or_eq_true, decide_eq_true_eq, decide_eq_true_eq]
  exact le_total _ _

/-- A sorted list is in order. -/
theorem pairwise_sortedBy (key : α → κ) (l : List α) :
    (sortedBy key l).Pairwise fun a b => key a ≤ key b :=
  (List.pairwise_mergeSort (key_le_trans key) (key_le_total key) l).imp of_decide_eq_true

/-- A pair in order stays in order. -/
theorem pair_sublist_sortedBy {key : α → κ} {l : List α} {a b : α} (hle : key a ≤ key b)
    (h : [a, b].Sublist l) : [a, b].Sublist (sortedBy key l) :=
  List.pair_sublist_mergeSort (key_le_trans key) (key_le_total key) (decide_eq_true hle) h

end TradingEdge.Library
