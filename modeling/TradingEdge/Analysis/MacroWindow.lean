import TradingEdge.Program.MacroProvider

/-!
# The window of the macro features

Serving finds the candles that were complete at a time by bisection, a scan keeps those whose
time passes the bound, and the training set first cuts the time to whole seconds.  On ascending
candles bisection and scan select the same ones (`serves_closed`), which are all that the features
depend on.  Training selects them too, for every time that is whole or not negative
(`trains_alike`).  Cutting a negative time goes the other way, and lets in the candle that closes
at the next whole second.
-/

set_option autoImplicit false

namespace TradingEdge.Analysis

open TradingEdge.Library TradingEdge.Model TradingEdge.Program

variable {K : Type} [Field K] [LinearOrder K]

/-- Candles ordered by times in whole seconds. -/
structure CandleSeries (candles : List (Candle5m K)) : Prop where
  ascending : (candles.map Candle5m.ts).Pairwise (· ≤ ·)
  whole : ∀ c ∈ candles, ∃ n : ℤ, c.ts = n

/-- The candles that were complete at a time, as a scan finds them. -/
def closedBy (candles : List (Candle5m K)) (asOf : K) : List (Candle5m K) :=
  candles.filter fun c => c.ts ≤ asOf - 300

/-- The snapshot of the last `lookback` of the candles that a scan finds. -/
def scanSnapshot (candles : List (Candle5m K)) (asOf : K) (lookback : ℤ) (adxThreshold : K)
    (consecutiveMin : ℤ) : Option (MacroSnapshot K) :=
  let eligible := closedBy candles asOf
  if (eligible.length : ℤ) < lookback then none
  else
    let window := eligible.drop (eligible.length - lookback).toNat
    macroSnapshot (window.map Candle5m.high) (window.map Candle5m.low)
      (window.map Candle5m.close) adxThreshold consecutiveMin

/-- The lookup by bisection selects what a scan selects, gives the same features, and looks at no
candle that is not complete: another series with the same complete candles gives the same.
SOURCE: strategies/polymarket_btc5m/_macro_provider.py:41-71 -/
structure ServesClosed (candles : List (Candle5m K)) (asOf : K) : Prop where
  selects : candles.take (bisectRight (candles.map Candle5m.ts) (asOf - 300)) =
    closedBy candles asOf
  scan : ∀ lookback adxThreshold consecutiveMin,
    snapshotFromWindow candles (candles.map Candle5m.ts) asOf lookback adxThreshold
      consecutiveMin = scanSnapshot candles asOf lookback adxThreshold consecutiveMin
  noLeak : ∀ candles' : List (Candle5m K), CandleSeries candles' →
    closedBy candles' asOf = closedBy candles asOf → ∀ lookback adxThreshold consecutiveMin,
    snapshotFromWindow candles' (candles'.map Candle5m.ts) asOf lookback adxThreshold
      consecutiveMin =
    snapshotFromWindow candles (candles.map Candle5m.ts) asOf lookback adxThreshold consecutiveMin

/-- The training set selects the same candles and computes the same features, and looks at no
other candle either.
SOURCE: cli/train_last90s.py:348-357 -/
structure TrainsAlike [FloorRing K] (candles : List (Candle5m K)) (asOf : K) : Prop where
  selects : (candles.filter fun c => c.ts ≤ ((truncated asOf - 300 : ℤ) : K)) =
    closedBy candles asOf
  features : trainMacroAt candles asOf =
    snapshotFromWindow candles (candles.map Candle5m.ts) asOf 34 20 2
  noLeak : ∀ candles' : List (Candle5m K), CandleSeries candles' →
    closedBy candles' asOf = closedBy candles asOf →
    trainMacroAt candles' asOf = trainMacroAt candles asOf

/-- **Bisection is a scan.**
SOURCE: strategies/polymarket_btc5m/_macro_provider.py:56-71 -/
theorem snapshotFromWindow_eq_scan {candles : List (Candle5m K)}
    (h : (candles.map Candle5m.ts).Pairwise (· ≤ ·)) (asOf : K) (lookback : ℤ)
    (adxThreshold : K) (consecutiveMin : ℤ) :
    snapshotFromWindow candles (candles.map Candle5m.ts) asOf lookback adxThreshold
      consecutiveMin = scanSnapshot candles asOf lookback adxThreshold consecutiveMin := by
  have htake : candles.take (bisectRight (candles.map Candle5m.ts) (asOf - 300)) =
      closedBy candles asOf := take_bisectRight h (asOf - 300)
  have hplace : bisectRight (candles.map Candle5m.ts) (asOf - 300) =
      (closedBy candles asOf).length := by
    have hle := bisectRight_le_length h (asOf - 300)
    rw [List.length_map] at hle
    rw [← htake, List.length_take, min_eq_left hle]
  unfold snapshotFromWindow scanSnapshot
  dsimp only
  rw [htake, hplace]

/-- A provider answers with the scan of its candles.
SOURCE: strategies/polymarket_btc5m/_macro_provider.py:99-107, 166-174 -/
theorem snapshotAt_eq_scan (p : MacroProvider K) (asOf : K) :
    p.snapshotAt asOf =
      scanSnapshot p.candles asOf p.lookback p.adxThreshold p.consecutiveMin := by
  have hascending := p.ascending
  rw [p.inSync] at hascending
  unfold MacroProvider.snapshotAt
  rw [p.inSync]
  exact snapshotFromWindow_eq_scan hascending asOf _ _ _

/-- What a scan finds decides its snapshot. -/
theorem scanSnapshot_congr {candles candles' : List (Candle5m K)} {asOf : K}
    (h : closedBy candles' asOf = closedBy candles asOf) (lookback : ℤ) (adxThreshold : K)
    (consecutiveMin : ℤ) :
    scanSnapshot candles' asOf lookback adxThreshold consecutiveMin =
      scanSnapshot candles asOf lookback adxThreshold consecutiveMin := by
  unfold scanSnapshot
  rw [h]

/-- **Serving sees the complete candles only.**
SOURCE: strategies/polymarket_btc5m/_macro_provider.py:41-71 -/
theorem serves_closed {candles : List (Candle5m K)} (h : CandleSeries candles) (asOf : K) :
    ServesClosed candles asOf where
  selects := take_bisectRight h.ascending (asOf - 300)
  scan := snapshotFromWindow_eq_scan h.ascending asOf
  noLeak := by
    intro candles' h' hclosed lookback adxThreshold consecutiveMin
    rw [snapshotFromWindow_eq_scan h'.ascending, snapshotFromWindow_eq_scan h.ascending]
    exact scanSnapshot_congr hclosed _ _ _

section Training

variable [IsStrictOrderedRing K] [FloorRing K]

/-- Cutting off the part after the point rounds down what is not negative. -/
theorem truncated_eq_floor {asOf : K} (h : 0 ≤ asOf ∨ ∃ n : ℤ, asOf = n) :
    truncated asOf = ⌊asOf⌋ := by
  unfold truncated
  by_cases hpos : 0 ≤ asOf
  · rw [if_pos hpos]
  · obtain ⟨n, rfl⟩ := h.resolve_left hpos
    rw [if_neg hpos, Int.ceil_intCast, Int.floor_intCast]

/-- The bound of the training set then passes the same candles.
SOURCE: cli/train_last90s.py:349-350 -/
theorem filter_truncated {candles : List (Candle5m K)} (h : CandleSeries candles) {asOf : K}
    (htime : 0 ≤ asOf ∨ ∃ n : ℤ, asOf = n) :
    (candles.filter fun c => c.ts ≤ ((truncated asOf - 300 : ℤ) : K)) = closedBy candles asOf := by
  apply List.filter_congr
  intro c hc
  obtain ⟨n, hn⟩ := h.whole c hc
  have hbound : (n : K) ≤ asOf - 300 ↔ n ≤ ⌊asOf⌋ - 300 := by
    rw [le_sub_iff_add_le, le_sub_iff_add_le, Int.le_floor]
    push_cast
    exact Iff.rfl
  rw [hn, truncated_eq_floor htime]
  simp only [Int.cast_le, hbound]

/-- The snapshot of the training set is then that of the scan.
SOURCE: cli/train_last90s.py:348-357 -/
theorem trainMacroAt_eq_scan {candles : List (Candle5m K)} (h : CandleSeries candles) {asOf : K}
    (htime : 0 ≤ asOf ∨ ∃ n : ℤ, asOf = n) :
    trainMacroAt candles asOf = scanSnapshot candles asOf 34 20 2 := by
  unfold trainMacroAt macroAt scanSnapshot
  dsimp only
  rw [filter_truncated h htime]
  by_cases hfew : (closedBy candles asOf).length < 34
  · rw [if_pos hfew, if_pos (by omega)]
  · have hplace : ((closedBy candles asOf).length - (34 : ℤ)).toNat =
        (closedBy candles asOf).length - 34 := by omega
    rw [if_neg hfew, if_neg (by omega), hplace]

/-- **So does training**, for a time that is whole or not negative.
SOURCE: cli/train_last90s.py:348-357 -/
theorem trains_alike {candles : List (Candle5m K)} (h : CandleSeries candles) {asOf : K}
    (htime : 0 ≤ asOf ∨ ∃ n : ℤ, asOf = n) : TrainsAlike candles asOf where
  selects := filter_truncated h htime
  features := by
    rw [trainMacroAt_eq_scan h htime, snapshotFromWindow_eq_scan h.ascending]
  noLeak := by
    intro candles' h' hclosed
    rw [trainMacroAt_eq_scan h' htime, trainMacroAt_eq_scan h htime]
    exact scanSnapshot_congr hclosed _ _ _

/-- **The macro features come from complete candles.** Serving agrees with a scan at every time,
training with both at every time that is whole or not negative.
SOURCE: strategies/polymarket_btc5m/_macro_provider.py:41-107, cli/train_last90s.py:348-357 -/
theorem macro_window_sound {candles : List (Candle5m K)} (h : CandleSeries candles) (asOf : K) :
    ServesClosed candles asOf ∧
      ((0 ≤ asOf ∨ ∃ n : ℤ, asOf = n) → TrainsAlike candles asOf) :=
  ⟨serves_closed h asOf, fun htime => trains_alike h htime⟩

/-- A series of 40 candles, looked at within its last one. -/
theorem macro_window_sound_lastOpen :
    TrainsAlike ((List.range 40).map fun i => (⟨(300 * i : ℕ), 2 + i, 1 + i, 2 + i⟩ : Candle5m ℚ))
      11850 := by
  have hseries : CandleSeries
      ((List.range 40).map fun i => (⟨(300 * i : ℕ), 2 + i, 1 + i, 2 + i⟩ : Candle5m ℚ)) := by
    refine ⟨?_, ?_⟩
    · rw [List.map_map, List.pairwise_map]
      refine List.pairwise_lt_range.imp ?_
      intro i j hij
      simp only [Function.comp_apply, Nat.cast_le]
      omega
    · intro c hc
      obtain ⟨i, -, rfl⟩ := List.mem_map.mp hc
      exact ⟨(300 * i : ℕ), (Int.cast_natCast _).symm⟩
  exact (macro_window_sound hseries 11850).2 (Or.inl (by norm_num))

end Training

/-- A candle that closes at time zero, looked at half a second before. -/
theorem cut_to_zero : ¬∀ (candles : List (Candle5m ℚ)) (asOf : ℚ), CandleSeries candles →
    ServesClosed candles asOf ∧ TrainsAlike candles asOf := by
  intro h
  have hseries : CandleSeries [(⟨-300, 1, 1, 1⟩ : Candle5m ℚ)] := by
    refine ⟨List.pairwise_singleton _ _, ?_⟩
    intro c hc
    rw [List.mem_singleton.mp hc]
    exact ⟨-300, by norm_num⟩
  have hselects := (h [⟨-300, 1, 1, 1⟩] (-1 / 2) hseries).2.selects
  have hcut : truncated (-1 / 2 : ℚ) = 0 := by
    unfold truncated
    rw [if_neg (by norm_num), Int.ceil_eq_iff]
    norm_num
  rw [hcut] at hselects
  norm_num [closedBy] at hselects

end TradingEdge.Analysis
