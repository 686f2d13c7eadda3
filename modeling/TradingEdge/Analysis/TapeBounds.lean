import TradingEdge.Library.Neighbours
import TradingEdge.Program.FeatureErrors

/-!
# The bounds of the tape features

The volume delta is part of the volume.  The signs of the trades are a series of signs, and the
autocorrelation is the mean of its centred lag-one products over its variance; the bound of the
products by the number of neighbours times the variance makes it a correlation, although the mean
of the products is taken over one trade fewer than the variance.
-/

set_option autoImplicit false

namespace TradingEdge.Analysis

open TradingEdge.Library TradingEdge.Model TradingEdge.Program

variable {K : Type} [Field K] [LinearOrder K] [IsStrictOrderedRing K]

/-! ## The volume delta -/

/-- What was bought less what was sold is at most what was traded. -/
theorem abs_delta_le_volume {trades : List (TapeTrade K)} (h : ∀ t ∈ trades, 0 ≤ t.qty) :
    |(trades.map fun t => if t.side = "buy" then t.qty else -t.qty).sum| ≤
      (trades.map TapeTrade.qty).sum := by
  induction trades with
  | nil => simp
  | cons t trades ih =>
    have hqty : 0 ≤ t.qty := h t List.mem_cons_self
    have htail := ih fun t' ht' => h t' (List.mem_cons_of_mem t ht')
    have hhead : |if t.side = "buy" then t.qty else -t.qty| = t.qty := by
      split
      · exact abs_of_nonneg hqty
      · rw [abs_neg, abs_of_nonneg hqty]
    rw [List.map_cons, List.sum_cons, List.map_cons, List.sum_cons]
    exact (abs_add_le _ _).trans (add_le_add hhead.le htail)

/-- The normalized volume delta is at most one. -/
theorem abs_cvdNormalized_le {trades : List (TapeTrade K)} (h : ∀ t ∈ trades, 0 ≤ t.qty) :
    |cvdNormalized trades| ≤ 1 := by
  unfold cvdNormalized
  simp only [leftSum_eq_sum]
  split
  · simp
  · next hguard =>
    have htotal : 0 < (trades.map TapeTrade.qty).sum := not_le.mp (not_or.mp hguard).2
    rw [abs_div, abs_of_pos htotal, div_le_one htotal]
    exact abs_delta_le_volume h

omit [IsStrictOrderedRing K] in
/-- The division of the volume delta stands behind a guard. -/
theorem raising_cvdNormalized (trades : List (TapeTrade K)) :
    Raising.cvdNormalized trades = .ok (cvdNormalized trades) := by
  unfold Raising.cvdNormalized cvdNormalized
  simp only
  split
  · rfl
  · next hguard => exact divide_of_ne_zero _ (not_le.mp (not_or.mp hguard).2).ne'

/-! ## The autocorrelation -/

/-- The signs of the trades.
SOURCE: engine/features/binance_microstructure.py:109 -/
def tradeSigns (trades : List (TapeTrade K)) : List K :=
  trades.map fun t => if t.side = "buy" then 1 else -1

omit [LinearOrder K] [IsStrictOrderedRing K] in
/-- The signs of the code are those of the trades. -/
theorem map_sign_eq (trades : List (TapeTrade K)) :
    (trades.map fun t => if t.side = "buy" then (1 : K) else -1) = tradeSigns trades := rfl

omit [LinearOrder K] [IsStrictOrderedRing K] in
/-- They are signs. -/
theorem signs_tradeSigns (trades : List (TapeTrade K)) : Signs (tradeSigns trades) := by
  intro x hx
  obtain ⟨t, -, rfl⟩ := List.mem_map.mp hx
  split
  · exact .inl rfl
  · exact .inr rfl

omit [LinearOrder K] [IsStrictOrderedRing K] in
/-- There is one for each trade. -/
theorem length_tradeSigns (trades : List (TapeTrade K)) :
    (tradeSigns trades).length = trades.length :=
  List.length_map ..

/-- The variance of a series of signs, by its mean. -/
theorem variance_of_signs {s : List K} (h : Signs s) (hne : s ≠ []) :
    (s.map fun x => (x - s.sum / s.length) * (x - s.sum / s.length)).sum / s.length =
      1 - (s.sum / s.length) ^ 2 := by
  have hlength : (s.length : K) ≠ 0 := by
    rw [Nat.cast_ne_zero]
    exact fun hzero => hne (List.length_eq_zero_iff.mp hzero)
  rw [h.sum_centred_sq]
  field_simp
  ring

/-- The mean of the centred products of neighbours is within the variance. -/
theorem abs_covariance_le {s : List K} (h : Signs s) (hlength : 2 ≤ s.length) :
    |((steps (s.map fun v => v - s.sum / s.length)).map fun c => c.1 * c.2).sum /
        ((s.length : K) - 1)| ≤ 1 - (s.sum / s.length) ^ 2 := by
  obtain ⟨a, l, rfl⟩ : ∃ a l, s = a :: l :=
    List.exists_cons_of_ne_nil (List.ne_nil_of_length_pos (by omega))
  have hpairs : ((a :: l).length : K) - 1 = l.length := by simp
  have hpos : (0 : K) < l.length := by
    rw [List.length_cons] at hlength
    exact_mod_cast (by omega : 0 < l.length)
  have hmean : ((a :: l).length : K) * ((a :: l).sum / (a :: l).length) = (a :: l).sum := by
    apply mul_div_cancel₀
    rw [List.length_cons, Nat.cast_ne_zero]
    exact l.length.succ_ne_zero
  have hbound := h.abs_chainSum_centred_le hmean
  have hmap := chainSum_map (fun x y : K => x * y) (fun v => v - (a :: l).sum / (a :: l).length) a l
  rw [hpairs, List.map_cons, steps, List.tail_cons, sum_zip_tail (fun x y => x * y), hmap, abs_div,
    abs_of_pos hpos, div_le_iff₀ hpos, mul_comm _ (l.length : K)]
  exact hbound

/-- The autocorrelation, by the signs of the trades. -/
theorem signedTradeAutocorrLag1_eq (trades : List (TapeTrade K)) :
    signedTradeAutocorrLag1 trades =
      if trades.length < 10 then 0
      else if 1 - ((tradeSigns trades).sum / trades.length) ^ 2 ≤ 1 / 1000000000 then 0
      else ((steps ((tradeSigns trades).map fun v =>
          v - (tradeSigns trades).sum / trades.length)).map fun c => c.1 * c.2).sum /
        ((trades.length : K) - 1) / (1 - ((tradeSigns trades).sum / trades.length) ^ 2) := by
  unfold signedTradeAutocorrLag1
  split
  · rfl
  · next hten =>
    have hne : tradeSigns trades ≠ [] := by
      apply List.ne_nil_of_length_pos
      rw [length_tradeSigns]
      omega
    have hvar := variance_of_signs (signs_tradeSigns trades) hne
    rw [length_tradeSigns] at hvar
    simp only [leftSum_eq_sum, map_sign_eq, List.map_map, Function.comp_def, length_tradeSigns,
      hvar]

/-- The autocorrelation is at most one. -/
theorem abs_signedTradeAutocorrLag1_le (trades : List (TapeTrade K)) :
    |signedTradeAutocorrLag1 trades| ≤ 1 := by
  rw [signedTradeAutocorrLag1_eq]
  split
  · simp
  · split
    · simp
    · next hten heps =>
      have hvar : 0 < 1 - ((tradeSigns trades).sum / trades.length) ^ 2 :=
        lt_trans (by norm_num) (not_le.mp heps)
      have hcov := abs_covariance_le (signs_tradeSigns trades)
        (by rw [length_tradeSigns]; omega)
      rw [length_tradeSigns] at hcov
      rw [abs_div, abs_of_pos hvar, div_le_one hvar]
      exact hcov

/-- The three divisions of the autocorrelation are by the number of trades, by the number of
neighbours and by a variance that is above the threshold. -/
theorem raising_signedTradeAutocorrLag1 (trades : List (TapeTrade K)) :
    Raising.signedTradeAutocorrLag1 trades = .ok (signedTradeAutocorrLag1 trades) := by
  unfold Raising.signedTradeAutocorrLag1 signedTradeAutocorrLag1
  split
  · rfl
  · next hten =>
    have hlength : ((tradeSigns trades).length : K) ≠ 0 := by
      rw [length_tradeSigns, Nat.cast_ne_zero]
      omega
    have hpairs : ((tradeSigns trades).length : K) - 1 ≠ 0 := by
      rw [length_tradeSigns, sub_ne_zero, Nat.cast_ne_one]
      omega
    simp only [map_sign_eq, divide_of_ne_zero _ hlength, divide_of_ne_zero _ hpairs,
      Except.bind, bind, pure, Except.pure]
    split
    · next heps => simp only [heps, if_true]
    · next heps =>
      simp only [heps, if_false]
      exact divide_of_ne_zero _ (lt_trans (by norm_num) (not_le.mp heps)).ne'

/-- **The bounds of the tape features**, in exact arithmetic.  On any tape of nonnegative sizes the
volume delta and the autocorrelation divide by nothing that is zero, and lie between `-1` and
`1`. -/
theorem tape_features_bounded (trades : List (TapeTrade K)) (h : ∀ t ∈ trades, 0 ≤ t.qty) :
    (Raising.cvdNormalized trades = .ok (cvdNormalized trades) ∧
      -1 ≤ cvdNormalized trades ∧ cvdNormalized trades ≤ 1) ∧
    (Raising.signedTradeAutocorrLag1 trades = .ok (signedTradeAutocorrLag1 trades) ∧
      -1 ≤ signedTradeAutocorrLag1 trades ∧ signedTradeAutocorrLag1 trades ≤ 1) :=
  ⟨⟨raising_cvdNormalized trades, abs_le.mp (abs_cvdNormalized_le h)⟩,
    ⟨raising_signedTradeAutocorrLag1 trades, abs_le.mp (abs_signedTradeAutocorrLag1_le trades)⟩⟩

/-- A tape of alternating sides, which has the autocorrelation `-1`. -/
theorem tape_features_bounded_alternating :
    let trades : List (TapeTrade ℚ) :=
      (List.replicate 5 [⟨60000, 1 / 2, "buy"⟩, ⟨60000, 1 / 4, "sell"⟩]).flatten
    (∀ t ∈ trades, 0 ≤ t.qty) ∧
    ((Raising.cvdNormalized trades = .ok (cvdNormalized trades) ∧
        -1 ≤ cvdNormalized trades ∧ cvdNormalized trades ≤ 1) ∧
      (Raising.signedTradeAutocorrLag1 trades = .ok (signedTradeAutocorrLag1 trades) ∧
        -1 ≤ signedTradeAutocorrLag1 trades ∧ signedTradeAutocorrLag1 trades ≤ 1)) := by
  intro trades
  have hqty : ∀ t ∈ trades, 0 ≤ t.qty := by decide +kernel
  exact ⟨hqty, tape_features_bounded trades hqty⟩

/-- Eleven trades of one size, bought and sold in turn. -/
def inTurn : List (TapeTrade Float) :=
  (List.range 11).map fun i => ⟨60000, 1, if i % 2 = 0 then "buy" else "sell"⟩

/-- In doubles the autocorrelation can be less than `-1`: here it is -1.0000000000000002.
SOURCE: engine/features/binance_microstructure.py:105-118 -/
theorem autocorr_rounds_below :
    ¬∀ trades : List (TapeTrade Float), (∀ t ∈ trades, 0 ≤ t.qty) →
      (Raising.cvdNormalized trades = .ok (cvdNormalized trades) ∧
        -1 ≤ cvdNormalized trades ∧ cvdNormalized trades ≤ 1) ∧
      (Raising.signedTradeAutocorrLag1 trades = .ok (signedTradeAutocorrLag1 trades) ∧
        -1 ≤ signedTradeAutocorrLag1 trades ∧ signedTradeAutocorrLag1 trades ≤ 1) := by
  intro h
  have hqty : ∀ t ∈ inTurn, 0 ≤ t.qty := by decide +kernel
  exact absurd (h inTurn hqty).2.2.1 (by decide +kernel)

end TradingEdge.Analysis
