import Mathlib.Algebra.Order.Floor.Ring
import Mathlib.Algebra.Order.Group.Int
import Mathlib.Tactic.Linarith
import Mathlib.Tactic.Ring

/-!
# Rounding to the nearest integer, ties to even

`NearestEven y m` says that `m` is what `y` rounds to when a tie between two integers goes to
the even one.  There is at most one such integer (`NearestEven.unique`), and the rule treats
`y` and `-y` alike (`NearestEven.neg`).
-/

set_option autoImplicit false

namespace TradingEdge.Library

variable {K : Type} [Field K] [LinearOrder K]

/-- The integer is within one half, and it is even if it is just that far away. -/
def NearestEven (y : K) (m : ℤ) : Prop :=
  |y - m| ≤ 1 / 2 ∧ (|y - m| = 1 / 2 → Even m)

/-- What rounds to zero. -/
theorem nearestEven_zero_iff (y : K) : NearestEven y 0 ↔ |y| ≤ 1 / 2 := by
  simp [NearestEven]

/-- Rounding commutes with the sign. -/
theorem NearestEven.neg {y : K} {m : ℤ} (h : NearestEven y m) : NearestEven (-y) (-m) := by
  have habs : |-y - ((-m : ℤ) : K)| = |y - m| := by
    rw [Int.cast_neg, ← neg_sub', abs_neg]
  unfold NearestEven
  rw [habs]
  exact ⟨h.1, fun htie => (h.2 htie).neg⟩

variable [IsStrictOrderedRing K]

/-- At most one integer is the nearest. -/
theorem NearestEven.unique {y : K} {m n : ℤ} (hm : NearestEven y m) (hn : NearestEven y n) :
    m = n := by
  wlog hle : m ≤ n generalizing m n
  · exact (this hn hm (le_of_not_ge hle)).symm
  have hm' := abs_le.mp hm.1
  have hn' := abs_le.mp hn.1
  have hgap : n ≤ m + 1 := by
    have hcast : (n : K) ≤ ((m + 1 : ℤ) : K) := by
      push_cast
      linarith [hm'.2, hn'.1]
    exact_mod_cast hcast
  by_contra hne
  have hsucc : n = m + 1 := by omega
  -- one half lies between the two, so both are at a tie
  have hcast : (n : K) = m + 1 := by
    rw [hsucc, Int.cast_add, Int.cast_one]
  have hmid : y - m = 1 / 2 := by linarith [hm'.2, hn'.1]
  have hmid' : y - n = -(1 / 2) := by linarith
  have heven : Even m := hm.2 (by rw [hmid, abs_of_pos one_half_pos])
  have heven' : Even n := hn.2 (by rw [hmid', abs_neg, abs_of_pos one_half_pos])
  rw [hsucc, Int.even_add_one] at heven'
  exact heven' heven

/-- Rounding by the distance from the floor finds the nearest integer. -/
theorem nearestEven_floor [FloorRing K] (y : K) :
    NearestEven y (if y - (⌊y⌋ : K) < 1 / 2 ∨ y - (⌊y⌋ : K) = 1 / 2 ∧ ⌊y⌋ % 2 = 0 then ⌊y⌋
      else ⌊y⌋ + 1) := by
  have hlow := Int.floor_le y
  have hhigh := Int.lt_floor_add_one y
  split
  · rename_i hdown
    have habs : |y - (⌊y⌋ : K)| = y - ⌊y⌋ := abs_of_nonneg (by linarith)
    unfold NearestEven
    rw [habs]
    rcases hdown with h | ⟨h, heven⟩
    · exact ⟨h.le, fun htie => absurd htie h.ne⟩
    · exact ⟨h.le, fun _ => Int.even_iff.mpr heven⟩
  · rename_i hup
    rw [not_or, not_lt, not_and] at hup
    obtain ⟨hhalf, htie⟩ := hup
    have habs : |y - ((⌊y⌋ + 1 : ℤ) : K)| = 1 - (y - ⌊y⌋) := by
      push_cast
      rw [abs_of_nonpos (by linarith)]
      ring
    unfold NearestEven
    rw [habs]
    refine ⟨by linarith, fun h => ?_⟩
    rw [Int.even_add_one, Int.even_iff]
    exact htie (by linarith)

end TradingEdge.Library
