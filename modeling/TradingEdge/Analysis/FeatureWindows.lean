import TradingEdge.Library.Buffer
import TradingEdge.Program.AfmlFeatures

/-!
# What the AFML features read

The fractional difference and the rate of CUSUM events read a window of configured length at
the end of the prices, so older prices do not change them.  The autocorrelation has no window:
two early rises show in it however long the prices stand still afterwards.
-/

set_option autoImplicit false

namespace TradingEdge.Analysis

open TradingEdge.Model TradingEdge.Program TradingEdge.Library

/-! ## Windows -/

section Windows

variable {K : Type} [Field K] [LinearOrder K]

omit [LinearOrder K] in
/-- The fractional difference reads its own window only. -/
theorem fracDiffSeries_append (older l : List K) (d : K) (size : ℕ) (h : size ≤ l.length) :
    fracDiffSeries (older ++ l) d size = fracDiffSeries l d size := by
  unfold fracDiffSeries
  rw [rtake_append_of_le older l size h, if_neg (by rw [List.length_append]; omega),
    if_neg (by omega)]

/-- Earlier prices only add returns at the front. -/
theorem logReturns_append (lib : MathLib K) (older l : List K) :
    ∃ front, logReturns lib (older ++ l) = front ++ logReturns lib l := by
  induction older with
  | nil => exact ⟨[], rfl⟩
  | cons a older ih =>
    obtain ⟨front, hfront⟩ := ih
    rw [List.cons_append]
    cases hrest : older ++ l with
    | nil =>
      obtain ⟨-, rfl⟩ := List.append_eq_nil_iff.mp hrest
      exact ⟨[], rfl⟩
    | cons b rest =>
      rw [hrest] at hfront
      rw [logReturns, hfront, ← List.append_assoc]
      exact ⟨_, rfl⟩

/-- The CUSUM filter reads its own window only. -/
theorem cusumEventRate_append (lib : MathLib K) (p : AfmlParams K) (older l : List K)
    (hpos : 0 < p.cusumLookback) (hthree : 3 ≤ l.length)
    (hlookback : p.cusumLookback ≤ ((logReturns lib l).length : ℤ)) :
    cusumEventRate lib p (older ++ l) = cusumEventRate lib p l := by
  obtain ⟨front, hfront⟩ := logReturns_append lib older l
  have hwindow : cusumWindow p (front ++ logReturns lib l) =
      cusumWindow p (logReturns lib l) := by
    unfold cusumWindow sliceFrom
    rw [if_pos hlookback, if_pos (by rw [List.length_append]; push_cast; omega),
      if_neg (by omega), if_neg (by omega), neg_neg]
    exact rtake_append_of_le _ _ _ (by omega)
  unfold cusumEventRate
  rw [hfront, hwindow, if_neg (by rw [List.length_append]; omega), if_neg (by omega)]

end Windows

/-! ## Prices that stand still -/

section ConstantPrices
variable {K : Type} [Field K] [LinearOrder K] [IsStrictOrderedRing K]

/-- The product that the weights of the fractional difference add up to. -/
def fracDiffTail (d : K) : ℕ → K
  | 0 => 1
  | n + 1 => fracDiffTail d n * (1 - d / (n + 1))

/-- The weights are the steps of that product. -/
theorem fracDiffWeight_succ (d : K) (n : ℕ) :
    fracDiffWeight d (n + 1) = -(d / (n + 1)) * fracDiffTail d n := by
  induction n with
  | zero => simp [fracDiffWeight, fracDiffTail]
  | succ n ih =>
    have h1 : ((n : K) + 1) ≠ 0 := by positivity
    have h2 : ((n : K) + 1 + 1) ≠ 0 := by positivity
    rw [fracDiffWeight, ih, fracDiffTail]
    push_cast
    field_simp
    ring

/-- The weights of a window add up to its tail. -/
theorem sum_fracDiffWeights (d : K) (n : ℕ) :
    (fracDiffWeights d (n + 1)).sum = fracDiffTail d n := by
  rw [fracDiffWeights, List.sum_reverse]
  induction n with
  | zero => simp [fracDiffWeight, fracDiffTail]
  | succ n ih =>
    rw [List.range_succ, List.map_append, List.sum_append, ih, List.map_singleton,
      List.sum_singleton, fracDiffWeight_succ, fracDiffTail]
    ring

/-- The tail is positive for `d < 1`. -/
theorem fracDiffTail_pos {d : K} (hd : d < 1) (n : ℕ) : 0 < fracDiffTail d n := by
  induction n with
  | zero => exact one_pos
  | succ n ih =>
    refine mul_pos ih (sub_pos.mpr ?_)
    rw [div_lt_one (by positivity)]
    exact hd.trans_le (by simp)

/-- The fractional difference of constant prices is positive. -/
theorem fracDiffSeries_pos {d c : K} (hd : d < 1) (hc : 0 < c) (older : List K) (n : ℕ) :
    0 < fracDiffSeries (older ++ List.replicate (n + 1) c) d (n + 1) := by
  have hlength : (fracDiffWeights d (n + 1)).length = n + 1 := by simp [fracDiffWeights]
  have hdot : ∀ (l : List K), (List.zipWith (· * ·) l (List.replicate l.length c)).sum =
      l.sum * c := by
    intro l
    induction l with
    | nil => simp
    | cons x l ih => simp [List.replicate_succ, ih, add_mul]
  have h := hdot (fracDiffWeights d (n + 1))
  rw [hlength] at h
  have hwindow : (List.replicate (n + 1) c).rtake (n + 1) = List.replicate (n + 1) c := by
    simp [List.rtake]
  rw [fracDiffSeries_append _ _ _ _ (by simp)]
  unfold fracDiffSeries
  rw [if_neg (by simp), hwindow, h, sum_fracDiffWeights]
  exact mul_pos (fracDiffTail_pos hd n) hc

omit [IsStrictOrderedRing K] in
/-- A flat series has no returns but zeros. -/
theorem logReturns_replicate (lib : MathLib K) {c : K} (hc : 0 < c) (n : ℕ) :
    logReturns lib (List.replicate (n + 1) c) = List.replicate n 0 := by
  induction n with
  | zero => rfl
  | succ n ih =>
    rw [List.replicate_succ, List.replicate_succ, logReturns, ← List.replicate_succ, ih]
    simp [hc, List.replicate_succ]

omit [IsStrictOrderedRing K] in
/-- A constant price that moves once at the end. -/
theorem logReturns_replicate_concat (lib : MathLib K) {c d : K} (hc : 0 < c) (hd : 0 < d) (n : ℕ) :
    logReturns lib (List.replicate (n + 1) c ++ [d]) =
      List.replicate n 0 ++ [lib.log d - lib.log c] := by
  induction n with
  | zero => simp [logReturns, hc, hd]
  | succ n ih =>
    rw [List.replicate_succ, List.replicate_succ, List.cons_append, List.cons_append, logReturns,
      ← List.cons_append, ← List.replicate_succ, ih]
    simp [hc, List.replicate_succ]

/-- Returns of zero leave the filter as it starts. -/
theorem foldl_cusumStep_zeros {threshold : K} (h : 0 ≤ threshold) (l : List (K × ℕ))
    (hl : ∀ e ∈ l, e.1 = 0) : l.foldl (cusumStep threshold) ⟨0, 0, []⟩ = ⟨0, 0, []⟩ := by
  induction l with
  | nil => rfl
  | cons e l ih =>
    obtain ⟨he, hrest⟩ := List.forall_mem_cons.mp hl
    have hstep : cusumStep threshold ⟨0, 0, []⟩ e = ⟨0, 0, []⟩ := by
      simp [cusumStep, he, h.not_gt]
    rw [List.foldl_cons, hstep]
    exact ih hrest

omit [LinearOrder K] [IsStrictOrderedRing K] in
/-- The entries of a list of zeros are zero. -/
theorem zipIdx_replicate_zero (n : ℕ) :
    ∀ e ∈ (List.replicate n (0 : K)).zipIdx, e.1 = 0 := by
  intro e he
  exact List.eq_of_mem_replicate (List.fst_mem_of_mem_zipIdx he)

/-- Zeros make no event. -/
theorem cusumEvents_replicate_zero {threshold : K} (h : 0 ≤ threshold) (n : ℕ) :
    cusumEvents (List.replicate n 0) threshold = [] := by
  unfold cusumEvents
  rw [foldl_cusumStep_zeros h _ (zipIdx_replicate_zero n)]

/-- A last return within the threshold fires no event either. -/
theorem cusumEvents_replicate_concat {threshold r : K} (h : 0 ≤ threshold) (hr : 0 ≤ r)
    (hle : r ≤ threshold) (n : ℕ) :
    cusumEvents (List.replicate n 0 ++ [r]) threshold = [] := by
  unfold cusumEvents
  rw [List.zipIdx_append, List.foldl_append, foldl_cusumStep_zeros h _ (zipIdx_replicate_zero n)]
  simp [cusumStep, hr, hle.not_gt, h.not_gt]

/-- Constant prices fire no event. -/
theorem cusumEventRate_replicate (lib : MathLib K) (p : AfmlParams K)
    (hp : 0 ≤ p.cusumThreshold) {c : K} (hc : 0 < c) (n : ℕ) :
    cusumEventRate lib p (List.replicate (n + 1) c) = 0 := by
  have hwindow : ∃ k, cusumWindow p (List.replicate n 0) = List.replicate k 0 := by
    unfold cusumWindow sliceFrom
    split
    · split
      · exact ⟨_, List.drop_replicate⟩
      · exact ⟨_, List.drop_replicate⟩
    · exact ⟨n, rfl⟩
  obtain ⟨k, hk⟩ := hwindow
  unfold cusumEventRate
  split
  · rfl
  · rw [logReturns_replicate lib hc, hk]
    simp [cusumEvents_replicate_zero hp]

omit [IsStrictOrderedRing K] in
/-- Zeros have no autocorrelation. -/
theorem autocorr_replicate_zero (lib : MathLib K) (hsqrt : lib.sqrt 0 = 0) (n : ℕ) :
    autocorr lib (List.replicate n 0) 1 = 0 := by
  unfold autocorr
  split
  · rfl
  · simp [sliceTo, sliceFrom, List.rdrop, mean, hsqrt]

/-- Two equal rises, then nothing: the returns are positively autocorrelated. -/
theorem autocorr_two_moves_pos (lib : MathLib K) (hsqrt : ∀ x, 0 < x → 0 < lib.sqrt x)
    {L : K} (hL : 0 < L) (m : ℕ) :
    0 < autocorr lib (L :: L :: List.replicate (m + 2) 0) 1 := by
  have hto : sliceTo (-1) (L :: L :: List.replicate (m + 2) 0) =
      L :: L :: List.replicate (m + 1) 0 := by
    simp [sliceTo, List.rdrop]
  have hfrom : sliceFrom 1 (L :: L :: List.replicate (m + 2) 0) =
      L :: List.replicate (m + 2) 0 := by
    simp [sliceFrom]
  have hn : (0 : K) < m + 3 := by positivity
  obtain ⟨r, hr⟩ : ∃ r, r = L / (m + 3 : K) := ⟨_, rfl⟩
  have hrpos : 0 < r := hr ▸ div_pos hL hn
  have hlt : r * 2 < L := by
    rw [hr, div_mul_eq_mul_div, div_lt_iff₀ hn]
    have : (0 : K) ≤ m := Nat.cast_nonneg m
    nlinarith
  have hma : mean (L :: L :: List.replicate (m + 1) 0) = r * 2 := by
    rw [hr]
    simp [mean]
    field_simp
    ring
  have hmb : mean (L :: List.replicate (m + 2) 0) = r := by
    rw [hr]
    simp [mean]
    ring
  have hm : (0 : K) ≤ m := Nat.cast_nonneg m
  unfold autocorr
  rw [if_neg (by simp; omega), hto, hfrom]
  dsimp only
  rw [hma, hmb]
  have ha : 0 < (((L :: L :: List.replicate (m + 1) 0).map fun x => x - r * 2).map
      (· ^ 2)).sum := by
    simp
    positivity
  have hb : 0 < (((L :: List.replicate (m + 2) 0).map fun x => x - r).map (· ^ 2)).sum := by
    simp
    positivity
  have hab : 0 < (List.zipWith (· * ·)
      ((L :: L :: List.replicate (m + 1) 0).map fun x => x - r * 2)
      ((L :: List.replicate (m + 2) 0).map fun x => x - r)).sum := by
    simp [List.replicate_succ (n := m + 1)]
    nlinarith [mul_pos hrpos hrpos]
  have hdenom := hsqrt _ (mul_pos ha hb)
  rw [if_neg hdenom.not_ge]
  exact div_pos hab hdenom

end ConstantPrices

end TradingEdge.Analysis
