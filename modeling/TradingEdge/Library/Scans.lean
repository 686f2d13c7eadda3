import Mathlib.Algebra.Order.Field.Basic
import Mathlib.Algebra.Order.BigOperators.Group.List
import Mathlib.Tactic.Linarith
import Mathlib.Tactic.Ring

/-!
# Running values along a list

What one step keeps, all running values have (`forall_mem_scanl`).  A map that commutes with the
step commutes with the scan (`map_scanl`), and scans side by side are one scan (`zip_scanl`).
Means of bounded values, also running ones, keep the bounds.
-/

set_option autoImplicit false

namespace TradingEdge.Library

variable {σ τ α : Type}

/-- What a step preserves holds along a scan. -/
theorem forall_mem_scanl {P : σ → Prop} {f : σ → α → σ} {l : List α} {s : σ} (hinit : P s)
    (hstep : ∀ s, P s → ∀ a ∈ l, P (f s a)) : ∀ x ∈ l.scanl f s, P x := by
  induction l generalizing s with
  | nil =>
    intro x hx
    rw [List.scanl_nil, List.mem_singleton] at hx
    exact hx ▸ hinit
  | cons a l ih =>
    have hnext : P (f s a) := hstep s hinit a List.mem_cons_self
    have htail := ih hnext fun s hs b hb => hstep s hs b (List.mem_cons_of_mem a hb)
    rw [List.scanl_cons]
    exact List.forall_mem_cons.mpr ⟨hinit, htail⟩

/-- A map that commutes with the steps commutes with the scan. -/
theorem map_scanl {β : Type} {f : σ → α → σ} {f' : τ → β → τ} {g : σ → τ} {e : α → β}
    (h : ∀ s a, g (f s a) = f' (g s) (e a)) (l : List α) (s : σ) :
    (l.scanl f s).map g = (l.map e).scanl f' (g s) := by
  induction l generalizing s with
  | nil => rfl
  | cons a l ih =>
    rw [List.scanl_cons, List.map_cons, List.map_cons, List.scanl_cons, ih, h]

/-- Two scans side by side are one scan of pairs. -/
theorem zip_scanl (f : σ → α → σ) (f' : τ → α → τ) (l : List α) (s : σ) (t : τ) :
    (l.scanl f s).zip (l.scanl f' t) = l.scanl (fun p a => (f p.1 a, f' p.2 a)) (s, t) := by
  induction l generalizing s t with
  | nil => rfl
  | cons a l ih => rw [List.scanl_cons, List.scanl_cons, List.zip_cons_cons, ih, List.scanl_cons]

section Ordered

variable {K : Type} [Field K] [LinearOrder K] [IsStrictOrderedRing K]

/-- A mean of bounded values is bounded. -/
theorem mean_mem {lo hi : K} {l : List K} (hne : l ≠ []) (h : ∀ x ∈ l, lo ≤ x ∧ x ≤ hi) :
    lo ≤ l.sum / l.length ∧ l.sum / l.length ≤ hi := by
  have hpos : (0 : K) < l.length := by
    exact_mod_cast List.length_pos_iff.mpr hne
  have hlow := List.card_nsmul_le_sum l lo fun x hx => (h x hx).1
  have hhigh := List.sum_le_card_nsmul l hi fun x hx => (h x hx).2
  rw [nsmul_eq_mul] at hlow hhigh
  rw [le_div_iff₀ hpos, div_le_iff₀ hpos, mul_comm lo, mul_comm hi]
  exact ⟨hlow, hhigh⟩

/-- A step of a running mean over `n` values stays in the bounds. -/
theorem runningMean_mem {lo hi mean v n : K} (hn : 1 ≤ n) (hmean : lo ≤ mean ∧ mean ≤ hi)
    (hv : lo ≤ v ∧ v ≤ hi) :
    lo ≤ (mean * (n - 1) + v) / n ∧ (mean * (n - 1) + v) / n ≤ hi := by
  have hpos : 0 < n := one_pos.trans_le hn
  have hlow : lo * (n - 1) ≤ mean * (n - 1) :=
    mul_le_mul_of_nonneg_right hmean.1 (sub_nonneg.mpr hn)
  have hhigh : mean * (n - 1) ≤ hi * (n - 1) :=
    mul_le_mul_of_nonneg_right hmean.2 (sub_nonneg.mpr hn)
  rw [le_div_iff₀ hpos, div_le_iff₀ hpos]
  constructor
  · linarith [hv.1]
  · linarith [hv.2]

end Ordered

end TradingEdge.Library
