import Mathlib.Algebra.Order.BigOperators.Group.List
import Mathlib.Algebra.BigOperators.Ring.List
import Mathlib.Algebra.Order.Field.Basic
import Mathlib.Tactic.Linarith
import Mathlib.Tactic.LinearCombination
import Mathlib.Tactic.Ring

/-!
# Sums over the neighbours of a series

`chainSum f a l` adds up `f x y` over the neighbours of the series `a :: l`.  The sum of the
distances of neighbours is the variation of the series: it bounds every way from the first entry
over any other to the last (`abs_sub_add_abs_sub_le_variation`).  For a series of signs the
products of neighbours are determined by the distances, and also by the sums, of neighbours, so
that the lag-one products of the centred series stay within its variance
(`abs_chainSum_centred_le`), although there is one product fewer than there are entries.
-/

set_option autoImplicit false

namespace TradingEdge.Library

section ChainSum

variable {α K : Type} [Field K]

/-- The sum of a function of two neighbours along `a :: l`. -/
def chainSum (f : α → α → K) : α → List α → K
  | _, [] => 0
  | a, b :: l => f a b + chainSum f b l

/-- One element has no neighbour. -/
@[simp]
theorem chainSum_nil (f : α → α → K) (a : α) : chainSum f a [] = 0 := rfl

/-- The sum, by the first two neighbours. -/
@[simp]
theorem chainSum_cons (f : α → α → K) (a b : α) (l : List α) :
    chainSum f a (b :: l) = f a b + chainSum f b l := rfl

/-- The neighbours are the pairs of the series with its tail. -/
theorem sum_zip_tail (f : α → α → K) (a : α) (l : List α) :
    (((a :: l).zip l).map fun s => f s.1 s.2).sum = chainSum f a l := by
  induction l generalizing a with
  | nil => rfl
  | cons b l ih => rw [List.zip_cons_cons, List.map_cons, List.sum_cons, ih, chainSum_cons]

/-- The neighbours of a mapped series. -/
theorem chainSum_map {β : Type} (f : β → β → K) (g : α → β) (a : α) (l : List α) :
    chainSum f (g a) (l.map g) = chainSum (fun x y => f (g x) (g y)) a l := by
  induction l generalizing a with
  | nil => rfl
  | cons b l ih => rw [List.map_cons, chainSum_cons, chainSum_cons, ih]

/-- Functions that agree on the elements have the same sum. -/
theorem chainSum_congr {f g : α → α → K} {a : α} {l : List α}
    (h : ∀ x ∈ a :: l, ∀ y ∈ a :: l, f x y = g x y) : chainSum f a l = chainSum g a l := by
  induction l generalizing a with
  | nil => rfl
  | cons b l ih =>
    have htail : chainSum f b l = chainSum g b l :=
      ih fun x hx y hy => h x (List.mem_cons_of_mem a hx) y (List.mem_cons_of_mem a hy)
    have hhead : f a b = g a b := h a List.mem_cons_self b (by simp)
    rw [chainSum_cons, chainSum_cons, hhead, htail]

/-- The sum of two neighbours counts every entry twice but the first and the last. -/
theorem chainSum_add (a : K) (l : List K) :
    chainSum (fun x y => x + y) a l =
      2 * (a :: l).sum - a - (a :: l).getLast (List.cons_ne_nil a l) := by
  induction l generalizing a with
  | nil => simp; ring
  | cons b l ih =>
    rw [chainSum_cons, ih, List.getLast_cons_cons]
    simp only [List.sum_cons]
    ring

/-- The products of neighbours shifted by the same amount. -/
theorem chainSum_centred (mu a : K) (l : List K) :
    chainSum (fun x y => (x - mu) * (y - mu)) a l =
      chainSum (fun x y => x * y) a l - mu * chainSum (fun x y => x + y) a l +
        l.length * mu ^ 2 := by
  induction l generalizing a with
  | nil => simp
  | cons b l ih =>
    rw [chainSum_cons, chainSum_cons, chainSum_cons, ih, List.length_cons, Nat.cast_succ]
    ring

end ChainSum

section Ordered

variable {K : Type} [Field K] [LinearOrder K] [IsStrictOrderedRing K]

/-- The triangle inequality. -/
theorem abs_chainSum_le {α : Type} (f : α → α → K) (a : α) (l : List α) :
    |chainSum f a l| ≤ chainSum (fun x y => |f x y|) a l := by
  induction l generalizing a with
  | nil => simp
  | cons b l ih =>
    calc |chainSum f a (b :: l)| ≤ |f a b| + |chainSum f b l| := abs_add_le ..
      _ ≤ chainSum (fun x y => |f x y|) a (b :: l) := by
        rw [chainSum_cons]
        linarith [ih b]

/-- The total distance of neighbours. -/
def variation (a : K) (l : List K) : K := chainSum (fun x y => |x - y|) a l

/-- The last entry is no further from the first than the variation. -/
theorem abs_sub_getLast_le_variation (a : K) (l : List K) :
    |a - (a :: l).getLast (List.cons_ne_nil a l)| ≤ variation a l := by
  induction l generalizing a with
  | nil => simp [variation]
  | cons b l ih =>
    have hstep := abs_sub_le a b ((b :: l).getLast (List.cons_ne_nil b l))
    rw [List.getLast_cons_cons, variation, chainSum_cons]
    exact hstep.trans (add_le_add_right (ih b) _)

/-- **Detours.** The way from the first entry to the last over any other is no longer than the
variation. -/
theorem abs_sub_add_abs_sub_le_variation {a x : K} {l : List K} (hx : x ∈ a :: l) :
    |a - x| + |x - (a :: l).getLast (List.cons_ne_nil a l)| ≤ variation a l := by
  induction l generalizing a with
  | nil =>
    rw [List.mem_singleton] at hx
    simp [hx, variation]
  | cons b l ih =>
    rcases List.mem_cons.mp hx with rfl | hx
    · rw [sub_self, abs_zero, zero_add]
      exact abs_sub_getLast_le_variation x (b :: l)
    · have hstep := abs_sub_le a b x
      have htail := ih hx
      rw [List.getLast_cons_cons, variation, chainSum_cons]
      rw [variation] at htail
      linarith

/-- A bound of every entry's distances is one of the distances of the sum. -/
theorem abs_mul_sub_sum_add_le {a z d : K} {l : List K} (h : ∀ x ∈ l, |a - x| + |x - z| ≤ d) :
    |l.length * a - l.sum| + |l.sum - l.length * z| ≤ l.length * d := by
  induction l with
  | nil => simp
  | cons x l ih =>
    have hhead := h x List.mem_cons_self
    have htail := ih fun y hy => h y (List.mem_cons_of_mem x hy)
    have hleft := abs_add_le (a - x) (l.length * a - l.sum)
    have hright := abs_add_le (x - z) (l.sum - l.length * z)
    rw [List.length_cons, List.sum_cons, Nat.cast_succ]
    calc |(l.length + 1) * a - (x + l.sum)| + |x + l.sum - (l.length + 1) * z|
        = |a - x + (l.length * a - l.sum)| + |x - z + (l.sum - l.length * z)| := by
          congr 2 <;> ring
      _ ≤ (l.length + 1) * d := by linarith

/-! ## Series of signs -/

/-- Every entry is `1` or `-1`. -/
def Signs (l : List K) : Prop := ∀ x ∈ l, x = 1 ∨ x = -1

omit [LinearOrder K] [IsStrictOrderedRing K] in
/-- The square of a sign is one. -/
theorem Signs.mul_self {l : List K} (h : Signs l) {x : K} (hx : x ∈ l) : x * x = 1 := by
  rcases h x hx with rfl | rfl <;> ring

/-- The sum of squares of a centred series of signs. -/
theorem Signs.sum_centred_sq {l : List K} (h : Signs l) (mu : K) :
    (l.map fun x => (x - mu) * (x - mu)).sum =
      l.length - 2 * mu * l.sum + l.length * mu ^ 2 := by
  induction l with
  | nil => simp
  | cons x l ih =>
    have hsq := h.mul_self List.mem_cons_self
    rw [List.map_cons, List.sum_cons, ih fun y hy => h y (List.mem_cons_of_mem x hy),
      List.sum_cons, List.length_cons, Nat.cast_succ]
    linear_combination hsq

/-- Signs add up to at most their number. -/
theorem Signs.abs_sum_le {l : List K} (h : Signs l) : |l.sum| ≤ l.length := by
  induction l with
  | nil => simp
  | cons x l ih =>
    have hx : |x| = 1 := by rcases h x List.mem_cons_self with rfl | rfl <;> simp
    have htail := ih fun y hy => h y (List.mem_cons_of_mem x hy)
    rw [List.sum_cons, List.length_cons, Nat.cast_succ]
    linarith [abs_add_le x l.sum]

/-- Neighbours that agree are two apart from zero together, those that differ cancel. -/
theorem Signs.chainSum_abs_add {a : K} {l : List K} (h : Signs (a :: l)) :
    chainSum (fun x y => |x + y|) a l = l.length + chainSum (fun x y => x * y) a l := by
  rw [chainSum_congr (g := fun x y => 1 + x * y)]
  · induction l generalizing a with
    | nil => simp
    | cons b l ih =>
      rw [chainSum_cons, chainSum_cons, ih fun y hy => h y (List.mem_cons_of_mem a hy),
        List.length_cons, Nat.cast_succ]
      ring
  · intro x hx y hy
    rcases h x hx with rfl | rfl <;> rcases h y hy with rfl | rfl <;> norm_num [abs_of_pos]

/-- Neighbours that differ are two apart, those that agree are not apart. -/
theorem Signs.variation_eq {a : K} {l : List K} (h : Signs (a :: l)) :
    variation a l = l.length - chainSum (fun x y => x * y) a l := by
  rw [variation, chainSum_congr (g := fun x y => 1 - x * y)]
  · induction l generalizing a with
    | nil => simp
    | cons b l ih =>
      rw [chainSum_cons, chainSum_cons, ih fun y hy => h y (List.mem_cons_of_mem a hy),
        List.length_cons, Nat.cast_succ]
      ring
  · intro x hx y hy
    rcases h x hx with rfl | rfl <;> rcases h y hy with rfl | rfl <;> norm_num [abs_of_pos]

/-- The mean of a series of signs is between `-1` and `1`. -/
theorem Signs.abs_mean_le {a mu : K} {l : List K} (h : Signs (a :: l))
    (hmu : ((a :: l).length : K) * mu = (a :: l).sum) : |mu| ≤ 1 := by
  have hpos : (0 : K) < (a :: l).length := by simp [Nat.cast_add_one_pos]
  have hsum := h.abs_sum_le
  rw [← hmu, abs_mul, abs_of_pos hpos] at hsum
  exact le_of_mul_le_mul_left (hsum.trans_eq (mul_one _).symm) hpos

/-- **Lag-one products.**  The centred products of neighbours stay within the variance, taken as
often as there are neighbours. -/
theorem Signs.abs_chainSum_centred_le {a mu : K} {l : List K} (h : Signs (a :: l))
    (hmu : ((a :: l).length : K) * mu = (a :: l).sum) :
    |chainSum (fun x y => (x - mu) * (y - mu)) a l| ≤ l.length * (1 - mu ^ 2) := by
  set z := (a :: l).getLast (List.cons_ne_nil a l) with hz
  set products := chainSum (fun x y => x * y) a l with hproducts
  have hpos : (0 : K) < (a :: l).length := by simp [Nat.cast_add_one_pos]
  have hlength : ((a :: l).length : K) = l.length + 1 := by simp
  have hmean : |mu| ≤ 1 := h.abs_mean_le hmu
  have hle (x : K) : mu * x ≤ |x| :=
    calc mu * x ≤ |mu| * |x| := (le_abs_self _).trans_eq (abs_mul mu x)
      _ ≤ |x| := mul_le_of_le_one_left (abs_nonneg x) hmean
  -- the sums of neighbours bound the products from below
  have hsums : |2 * (a :: l).sum - a - z| ≤ l.length + products := by
    rw [← chainSum_add, ← h.chainSum_abs_add]
    exact abs_chainSum_le ..
  -- their distances bound them from above: the mean is an entry on the way, on average
  have hways : |a - mu| + |mu - z| ≤ l.length - products := by
    have hall := abs_mul_sub_sum_add_le fun x hx =>
      abs_sub_add_abs_sub_le_variation (a := a) (l := l) (x := x) hx
    rw [← hmu, ← mul_sub, ← mul_sub, abs_mul, abs_mul, abs_of_pos hpos, ← mul_add,
      h.variation_eq] at hall
    exact le_of_mul_le_mul_left hall hpos
  have hsplit := chainSum_centred mu a l
  rw [chainSum_add, ← hmu, hlength, ← hz, ← hproducts] at hsplit
  rw [← hmu, hlength] at hsums
  have hlow := hle (2 * ((l.length + 1) * mu) - a - z)
  have hhigh := hle (a - mu)
  have hhigh' := hle (z - mu)
  rw [abs_sub_comm z mu] at hhigh'
  rw [abs_le, hsplit]
  constructor <;> linarith

end Ordered

end TradingEdge.Library
