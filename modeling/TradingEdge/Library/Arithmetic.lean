import Mathlib.Algebra.BigOperators.Group.List.Basic
import Mathlib.Algebra.Order.Field.Basic
import Mathlib.Data.Nat.Cast.Defs

/-!
# Arithmetic that may round

A definition that asks for the operations of its numbers one by one can be read in an ordered
field, where every result is exact, and in `Float`, the binary64 of the machine, where every result
is rounded.  `leftSum` and `magnitude` are written with such operations only; in a field they are
the sum and the absolute value.
-/

set_option autoImplicit false

namespace TradingEdge.Library

/-- A natural number as the nearest double. -/
instance natCastFloat : NatCast Float := ⟨Float.ofNat⟩

variable {K : Type}

/-- The sum of a list, from zero on and from the left. -/
def leftSum [Zero K] [Add K] (l : List K) : K := l.foldl (· + ·) 0

/-- The larger of a number and its negative. -/
def magnitude [Neg K] [Max K] (x : K) : K := max x (-x)

/-- Where addition is associative, it does not matter from which side a list is summed up. -/
theorem leftSum_eq_sum [AddMonoid K] (l : List K) : leftSum l = l.sum := List.sum_eq_foldl.symm

/-- The sum of doubles depends on their order. -/
example : leftSum [(0.1 : Float), 0.5, -0.6] ≠ leftSum [(0.5 : Float), -0.6, 0.1] := by
  decide +kernel

/-- In a field the larger of a number and its negative is its absolute value. -/
theorem magnitude_eq_abs [Field K] [LinearOrder K] (x : K) : magnitude x = |x| := rfl

end TradingEdge.Library
