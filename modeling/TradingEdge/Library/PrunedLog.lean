import Mathlib.Algebra.Order.Group.Defs
import Mathlib.Algebra.Order.Group.Unbundled.Basic
import Mathlib.Data.List.Basic

/-!
# Logs that are pruned when they are read

A log of times is cut down to `within span now`, the times less than `span` ago, whenever it is
read.  What such a log holds of a window is what the whole history holds of it
(`Prunes.within_eq`), as long as nobody asks for a window that ended before the last cut.
-/

set_option autoImplicit false

namespace TradingEdge.Library

variable {α : Type} [AddCommGroup α] [LinearOrder α]

/-- The times less than `span` ago. -/
def within (span now : α) (times : List α) : List α := times.filter fun t => now - t < span

/-- The times within the span of a list continued. -/
theorem within_append (span now : α) (times times' : List α) :
    within span now (times ++ times') = within span now times ++ within span now times' :=
  List.filter_append ..

/-- The log has lost nothing of the history that a window at `cut` or later asks for. -/
def Prunes (span cut : α) (log history : List α) : Prop :=
  ∀ now, cut ≤ now → within span now log = within span now history

namespace Prunes

variable {span cut now : α} {log history : List α}

/-- A log that was never pruned is its history. -/
theorem refl (span cut : α) (history : List α) : Prunes span cut history history :=
  fun _ _ => rfl

/-- A pruned log counts what its history does. -/
theorem within_eq (h : Prunes span cut log history) (hnow : cut ≤ now) :
    within span now log = within span now history :=
  h now hnow

/-- A log that was pruned earlier is pruned later. -/
theorem later (h : Prunes span cut log history) (hnow : cut ≤ now) :
    Prunes span now log history :=
  fun t ht => h t (hnow.trans ht)

/-- A new time goes to both. -/
theorem append (h : Prunes span cut log history) (new : List α) :
    Prunes span cut (log ++ new) (history ++ new) := by
  intro t ht
  rw [within_append, within_append, h t ht]

variable [IsOrderedAddMonoid α]

/-- What was outside a window is outside the later ones. -/
theorem within_within {earlier : α} (hle : earlier ≤ now) (times : List α) :
    within span now (within span earlier times) = within span now times := by
  rw [within, within, within, List.filter_filter]
  apply List.filter_congr
  intro t _
  rw [Bool.eq_iff_iff, Bool.and_eq_true, decide_eq_true_eq, decide_eq_true_eq]
  exact ⟨And.left, fun ht => ⟨ht, (sub_le_sub_right hle t).trans_lt ht⟩⟩

/-- The log is cut at a later time. -/
theorem prune (h : Prunes span cut log history) (hnow : cut ≤ now) :
    Prunes span now (within span now log) history := by
  intro t ht
  rw [within_within ht, h t (hnow.trans ht)]

end Prunes

end TradingEdge.Library
