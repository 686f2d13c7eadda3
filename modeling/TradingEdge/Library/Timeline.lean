import Mathlib.Algebra.Order.Ring.Defs
import Mathlib.Tactic.Positivity

/-!
# Timelines

A timeline lists the times at which a state changed and the states it changed to.  `timeIn p lo hi`
is how long, between two times, the state satisfied `p`; the last state lasts to the end.
-/

set_option autoImplicit false

namespace TradingEdge.Library

variable {K α : Type} [Ring K] [LinearOrder K]

/-- The part of a span that lies between two times. -/
def overlap (lo hi s s' : K) : K := max 0 (min s' hi - max s lo)

/-- An overlap is not negative. -/
theorem overlap_nonneg (lo hi s s' : K) : 0 ≤ overlap lo hi s s' := le_max_left _ _

/-- How long the state satisfied `p` between two times. -/
def timeIn (p : α → Prop) [DecidablePred p] (lo hi : K) : List (K × α) → K
  | [] => 0
  | [(s, a)] => if p a then overlap lo hi s hi else 0
  | (s, a) :: (s', a') :: rest =>
      (if p a then overlap lo hi s s' else 0) + timeIn p lo hi ((s', a') :: rest)

variable (p : α → Prop) [DecidablePred p]

/-- Nor is the time spent. -/
theorem timeIn_nonneg [IsOrderedRing K] (lo hi : K) (line : List (K × α)) :
    0 ≤ timeIn p lo hi line := by
  induction line with
  | nil => exact le_rfl
  | cons e line ih =>
    have hspan : ∀ s s' : K, 0 ≤ if p e.2 then overlap lo hi s s' else 0 := by
      intro s s'
      split
      · exact overlap_nonneg lo hi s s'
      · exact le_rfl
    cases line with
    | nil => exact hspan e.1 hi
    | cons e' line => exact add_nonneg (hspan e.1 e'.1) ih

end TradingEdge.Library
