import Mathlib.Data.List.Induction
import Mathlib.Logic.Function.Basic
import Mathlib.Order.Defs.LinearOrder

/-!
# Price levels

One side of an order book is the size at each price.  `IsBest r` is the level that the relation
`r` puts before all others of positive size, and `IsTop r` the number a summary shows for it,
which is zero for an empty side.
-/

set_option autoImplicit false

namespace TradingEdge.Library

/-- The size at each price. -/
abbrev Levels (α β : Type) := α → β

namespace Levels

section Changes

variable {α β : Type} [DecidableEq α]

/-- The size at one price is replaced. -/
def put (side : Levels α β) (price : α) (size : β) : Levels α β :=
  Function.update side price size

variable [Zero β]

/-- A side without levels. -/
def empty : Levels α β := fun _ => 0

/-- The side that a list of levels describes. -/
def ofList (levels : List (α × β)) : Levels α β :=
  levels.foldl (fun side l => side.put l.1 l.2) empty

/-- Only the prices of the list have a size. -/
theorem ofList_of_notMem (levels : List (α × β)) (price : α)
    (h : price ∉ levels.map Prod.fst) : ofList levels price = 0 := by
  unfold ofList
  induction levels using List.reverseRecOn with
  | nil => rfl
  | append_singleton levels l ih =>
    rw [List.map_append, List.mem_append, not_or] at h
    obtain ⟨hlevels, hlast⟩ := h
    have hne : price ≠ l.1 := fun heq => hlast (by simp [heq])
    rw [List.foldl_append]
    exact (Function.update_of_ne hne l.2 _).trans (ih hlevels)

end Changes

section Best

variable {α β : Type} [Zero β] [Preorder β]

/-- The level of positive size that `r` puts before all others. -/
def IsBest (r : α → α → Prop) (side : Levels α β) (price : α) : Prop :=
  0 < side price ∧ ∀ other, 0 < side other → r price other

/-- The price of the best level, or zero when there is none. -/
def IsTop [Zero α] (r : α → α → Prop) (side : Levels α β) (top : α) : Prop :=
  IsBest r side top ∨ top = 0 ∧ ∀ price, ¬0 < side price

/-- A top that is not zero is the best level. -/
theorem isTop_iff_isBest [Zero α] (r : α → α → Prop) (side : Levels α β) (top : α)
    (h : top ≠ 0) : IsTop r side top ↔ IsBest r side top := by
  unfold IsTop
  constructor
  · rintro (hbest | ⟨hzero, -⟩)
    · exact hbest
    · exact absurd hzero h
  · exact Or.inl

/-- An empty side shows zero. -/
theorem isTop_empty [Zero α] (r : α → α → Prop) : IsTop r (empty : Levels α β) 0 :=
  Or.inr ⟨rfl, fun _ => lt_irrefl 0⟩

/-- Of the levels of a list, the one that `r` puts first is the best exactly when it has a
positive size. -/
theorem isBest_ofList_iff [DecidableEq α] (r : α → α → Prop) (levels : List (α × β)) (price : α)
    (h : ∀ other ∈ levels.map Prod.fst, r price other) :
    IsBest r (ofList levels) price ↔ 0 < ofList levels price := by
  constructor
  · exact And.left
  · intro hpos
    refine ⟨hpos, fun other hother => h other ?_⟩
    by_contra hmem
    rw [ofList_of_notMem levels other hmem] at hother
    exact lt_irrefl 0 hother

end Best

end Levels

end TradingEdge.Library
