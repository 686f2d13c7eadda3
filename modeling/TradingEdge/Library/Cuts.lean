import Mathlib.Data.List.Infix

/-!
# Pieces of a list with gaps between them

`CutsInto p l pieces` says that `l` is the pieces, one after the other, with a gap of elements of
`p` behind each of them.  What is not in `p` is then in the pieces, once and in order
(`CutsInto.filter_eq`).
-/

set_option autoImplicit false

namespace TradingEdge.Library

variable {α : Type} {p : α → Bool}

/-- The pieces, each with a gap behind it, are the list. -/
inductive CutsInto (p : α → Bool) : List α → List (List α) → Prop
  | nil : CutsInto p [] []
  | cons {piece gap rest : List α} {pieces : List (List α)} (hgap : ∀ a ∈ gap, p a)
      (hrest : CutsInto p rest pieces) : CutsInto p (piece ++ gap ++ rest) (piece :: pieces)

namespace CutsInto

/-- A list is one piece. -/
theorem single (l : List α) : CutsInto p l [l] := by
  have h : CutsInto p (l ++ [] ++ []) [l] := cons (by simp) nil
  simpa using h

/-- Nothing but elements of `p` is lost, and nothing is added or moved. -/
theorem filter_eq {l : List α} {pieces : List (List α)} (h : CutsInto p l pieces) :
    pieces.flatten.filter (fun a => !p a) = l.filter fun a => !p a := by
  induction h with
  | nil => rfl
  | @cons piece gap rest pieces hgap hrest ih =>
    have hnone : gap.filter (fun a => !p a) = [] := by
      rw [List.filter_eq_nil_iff]
      simpa using hgap
    simp [hnone, ih]

end CutsInto

end TradingEdge.Library
