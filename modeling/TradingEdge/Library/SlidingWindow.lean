import Mathlib.Algebra.Order.Group.Defs
import Mathlib.Algebra.Order.Group.Unbundled.Basic
import TradingEdge.Library.Buffer

/-!
# Sliding windows over a history of times

`recent span now` is what a history holds of the last `span`.  A deque that is cut from its front
whenever something happens holds what is recent at that moment (`dropWhile_append_eq_recent`), and
what it has cut off by then is never recent again (`recent_recent`).
-/

set_option autoImplicit false

namespace TradingEdge.Library

variable {α : Type} [AddCommGroup α] [LinearOrder α]

/-- The times of the last `span`, the border included. -/
def recent (span now : α) (times : List α) : List α := times.filter fun t => now - span ≤ t

/-- The recent times are those within the span. -/
theorem mem_recent {span now t : α} {times : List α} :
    t ∈ recent span now times ↔ t ∈ times ∧ now - span ≤ t := by
  rw [recent, List.mem_filter, decide_eq_true_eq]

/-- They are a part of the times. -/
theorem recent_sublist (span now : α) (times : List α) :
    (recent span now times).Sublist times :=
  List.filter_sublist

/-- The recent times of a list continued. -/
theorem recent_append (span now : α) (times times' : List α) :
    recent span now (times ++ times') = recent span now times ++ recent span now times' :=
  List.filter_append ..

variable [IsOrderedAddMonoid α]

/-- Now itself is recent. -/
theorem recent_singleton {span : α} (hspan : 0 ≤ span) (now : α) :
    recent span now [now] = [now] := by
  rw [recent, List.filter_singleton]
  simp [hspan]

/-- What was recent before is all that can be recent now. -/
theorem recent_recent {span earlier now : α} (h : earlier ≤ now) (times : List α) :
    recent span now (recent span earlier times) = recent span now times := by
  rw [recent, recent, recent, List.filter_filter]
  apply List.filter_congr
  intro t _
  rw [Bool.eq_iff_iff, Bool.and_eq_true, decide_eq_true_eq, decide_eq_true_eq]
  exact ⟨And.left, fun ht => ⟨ht, (sub_le_sub_right h span).trans ht⟩⟩

omit [IsOrderedAddMonoid α] in
/-- Times in order are cut from the front. -/
theorem dropWhile_eq_recent {span now : α} {times : List α} (h : times.Pairwise (· ≤ ·)) :
    times.dropWhile (· < now - span) = recent span now times := by
  rw [dropWhile_eq_filter]
  · apply List.filter_congr
    intro t _
    rw [← decide_not, decide_eq_decide, not_lt]
  · refine h.imp ?_
    intro t t' hle hold
    exact decide_eq_true (hle.trans_lt (of_decide_eq_true hold))

omit [IsOrderedAddMonoid α] in
/-- **Lazy eviction.** A deque that agrees with the history on what is recent, agrees with it
after new times are put in and the old ones cut off. -/
theorem dropWhile_append_eq_recent {span now : α} {deque history new : List α}
    (hsub : deque.Sublist history) (hrecent : recent span now deque = recent span now history)
    (horder : (history ++ new).Pairwise (· ≤ ·)) :
    (deque ++ new).dropWhile (· < now - span) = recent span now (history ++ new) := by
  rw [dropWhile_eq_recent (horder.sublist (hsub.append (List.Sublist.refl new))), recent_append,
    recent_append, hrecent]

/-! ## Entries with a time -/

section Entries

variable {β : Type} (key : β → α)

/-- The entries of the last `span`, the border included. -/
def recentBy (span now : α) (entries : List β) : List β :=
  entries.filter fun b => now - span ≤ key b

/-- **Lazy eviction.** A deque that holds what was recent earlier holds what is recent now, after
new entries are put in and the old ones cut off. -/
theorem dropWhile_append_eq_recentBy {span earlier now : α} {history new : List β}
    (hle : earlier ≤ now) (horder : (history ++ new).Pairwise fun a b => key a ≤ key b) :
    (recentBy key span earlier history ++ new).dropWhile (fun b => key b < now - span) =
      recentBy key span now (history ++ new) := by
  have hsub : (recentBy key span earlier history ++ new).Sublist (history ++ new) :=
    List.filter_sublist.append (List.Sublist.refl new)
  have hcut : ∀ b, (!decide (key b < now - span)) = decide (now - span ≤ key b) := by
    intro b
    rw [← decide_not, decide_eq_decide, not_lt]
  have hkept : (recentBy key span earlier history).filter (fun b => now - span ≤ key b) =
      history.filter fun b => now - span ≤ key b := by
    rw [recentBy, List.filter_filter]
    apply List.filter_congr
    intro b _
    rw [Bool.eq_iff_iff, Bool.and_eq_true, decide_eq_true_eq, decide_eq_true_eq]
    exact ⟨And.left, fun h => ⟨h, (sub_le_sub_right hle span).trans h⟩⟩
  rw [dropWhile_eq_filter]
  · simp only [hcut]
    rw [List.filter_append, hkept, recentBy, List.filter_append]
  · refine (horder.sublist hsub).imp ?_
    intro a b hab hold
    exact decide_eq_true (hab.trans_lt (of_decide_eq_true hold))

end Entries

end TradingEdge.Library
