import TradingEdge.Library.Drawdown
import TradingEdge.Program.TradeKpis

/-!
# The drawdowns of the report and of the resamples

Both figures are the largest fall of a path of cumulated profits.  The path of `compute_kpis`
starts at the equity of zero, before the first trade; NumPy's starts after it
(`drawdown_mddLoop`, `drawdown_minDistance`).  They are the same as long as every loss below the
starting equity is matched by a fall between later points.
-/

set_option autoImplicit false

namespace TradingEdge.Analysis

open TradingEdge.Library TradingEdge.Model TradingEdge.Program

variable {K P : Type} [Field K] [LinearOrder K]

/-! ## The two loops -/

/-- The loop over the profits is the loop over the equities. -/
theorem foldl_mddLoop (pnls : List K) (equity peak mdd : K) :
    (pnls.foldl (fun s p =>
      let equity := s.1 + p
      let peak := max s.2.1 equity
      (equity, peak, min s.2.2 (equity - peak))) (equity, peak, mdd)).2 =
      ((pnls.scanl (· + ·) equity).tail).foldl drawdownStep (peak, mdd) := by
  induction pnls generalizing equity peak mdd with
  | nil => rfl
  | cons p pnls ih =>
    rw [List.foldl_cons, List.scanl_cons, List.tail_cons, ih]
    cases pnls with
    | nil => rfl
    | cons q pnls =>
      rw [List.scanl_cons, List.tail_cons, List.foldl_cons]
      rfl

/-- The loop over the pnls is a fold over their running sums. -/
theorem mddLoop_eq (pnls : List K) :
    (mddLoop pnls).2 = (cumsum pnls).foldl drawdownStep (0, 0) :=
  foldl_mddLoop pnls 0 0 0

omit [LinearOrder K] in
/-- There is a running sum for each pnl. -/
theorem length_cumsum (pnls : List K) : (cumsum pnls).length = pnls.length := by
  rw [cumsum, List.length_tail, List.length_scanl, Nat.add_sub_cancel]

omit [LinearOrder K] in
/-- Some pnls have a running sum. -/
theorem cumsum_ne_nil {pnls : List K} (h : pnls ≠ []) : cumsum pnls ≠ [] := by
  rw [← List.length_pos_iff, length_cumsum]
  exact List.length_pos_iff.mpr h

variable [IsStrictOrderedRing K]

/-- `compute_kpis` starts at zero. -/
theorem drawdown_mddLoop (pnls : List K) :
    Drawdown (0 :: cumsum pnls) (mddLoop pnls).2.1 (mddLoop pnls).2.2 := by
  have hloop := (Drawdown.singleton (0 : K)).of_loop (s := (0, 0)) (cumsum pnls)
  rw [← mddLoop_eq] at hloop
  exact hloop

/-- NumPy starts at the first equity. -/
theorem drawdown_minDistance {equity : List K} (hne : equity ≠ []) :
    ∃ peak, Drawdown equity peak (minDistance equity (maximumAccumulate equity)) := by
  cases equity with
  | nil => exact absurd rfl hne
  | cons e equity =>
    have hmin : minDistance (e :: equity) (maximumAccumulate (e :: equity)) =
        (equity.foldl drawdownStep (e, 0)).2 := by
      rw [← foldl_min_zipWith_scanl, maximumAccumulate]
      cases equity with
      | nil => simp [minDistance]
      | cons e' equity => simp [minDistance, List.scanl_cons]
    rw [hmin]
    exact ⟨_, (Drawdown.singleton e).of_loop (s := (e, 0)) equity⟩

/-! ## The figures -/

section Figures

variable [FloorRing K] (lib : MathLib K)

omit [IsStrictOrderedRing K] in
/-- The drawdown of the KPIs is that of the loop. -/
theorem mddUsd_eq (trades : List (BacktestTrade K P)) (durationS : K) :
    (computeKpis lib trades durationS).riskAdjusted.mddUsd =
      (mddLoop (trades.map fun t => t.pnlUsd)).2.2 := by
  unfold computeKpis
  split
  · next hnil =>
    rw [hnil]
    rfl
  · rfl

omit [IsStrictOrderedRing K] [FloorRing K] in
/-- The drawdown of the summary is the least distance to the running maximum. -/
theorem maxDrawdownUsd_eq {pnls : List K} (hne : pnls ≠ []) :
    (summaryFromPnls lib pnls).maxDrawdownUsd =
      minDistance (cumsum pnls) (maximumAccumulate (cumsum pnls)) := by
  have hlength : pnls.length ≠ 0 := fun h => hne (List.length_eq_zero_iff.mp h)
  unfold summaryFromPnls
  simp only [hlength, if_false]

/-- The report, the summary and the resamples give the same magnitude for the same profits: the
largest fall of the cumulated profits, the starting equity included. -/
structure DrawdownsAgree (trades : List (BacktestTrade K P)) (durationS : K) : Prop where
  report : IsGreatest (falls (0 :: cumsum (trades.map fun t => t.pnlUsd)))
    |(computeKpis lib trades durationS).riskAdjusted.mddUsd|
  summary : IsGreatest (falls (0 :: cumsum (trades.map fun t => t.pnlUsd)))
    |(summaryFromPnls lib (trades.map fun t => t.pnlUsd)).maxDrawdownUsd|
  resample : ∀ (source : List K) (row : List (Fin source.length)), row ≠ [] →
    row.map source.get = trades.map (fun t => t.pnlUsd) →
    ∀ dd ∈ bootstrapDrawdowns source [row],
      IsGreatest (falls (0 :: cumsum (trades.map fun t => t.pnlUsd))) |dd|

/-- Every loss below the starting equity is matched by a fall between later points. -/
def LossesMatched (pnls : List K) : Prop :=
  ∀ equity ∈ cumsum pnls, ∃ fall ∈ falls (cumsum pnls), -equity ≤ fall

omit [FloorRing K] in
/-- What NumPy finds is the largest fall, the starting equity included, when the losses are
matched. -/
theorem isGreatest_minDistance_iff {pnls : List K} (hne : pnls ≠ []) :
    IsGreatest (falls (0 :: cumsum pnls))
        |minDistance (cumsum pnls) (maximumAccumulate (cumsum pnls))| ↔ LossesMatched pnls := by
  obtain ⟨peak, hdrawdown⟩ := drawdown_minDistance (cumsum_ne_nil hne)
  rw [isGreatest_falls_cons_iff (cumsum_ne_nil hne)
    (hdrawdown.isGreatest_abs (cumsum_ne_nil hne))]
  simp only [zero_sub]
  rfl

/-- **The agreement of the drawdowns.**  The report and the resamples have the same drawdown for
exactly the trades whose losses below the starting equity are matched. -/
theorem drawdowns_agree_iff (trades : List (BacktestTrade K P)) (durationS : K) :
    DrawdownsAgree lib trades durationS ↔ LossesMatched (trades.map fun t => t.pnlUsd) := by
  have hreport : IsGreatest (falls (0 :: cumsum (trades.map fun t => t.pnlUsd)))
      |(computeKpis lib trades durationS).riskAdjusted.mddUsd| := by
    rw [mddUsd_eq]
    exact (drawdown_mddLoop _).isGreatest_abs (List.cons_ne_nil _ _)
  by_cases hne : trades.map (fun t => t.pnlUsd) = []
  · have hnone : ∀ (source : List K) (row : List (Fin source.length)), row ≠ [] →
        row.map source.get ≠ [] := fun source row hrow => by simpa using hrow
    constructor
    · intro _ equity hequity
      rw [hne] at hequity
      simp [cumsum] at hequity
    · intro _
      refine ⟨hreport, ?_, fun source row hrow heq => ?_⟩
      swap
      · exact absurd (heq.trans hne) (hnone source row hrow)
      rw [hne]
      simp [summaryFromPnls, cumsum, falls]
  · constructor
    · intro h
      have hsummary := h.summary
      rwa [maxDrawdownUsd_eq lib hne, isGreatest_minDistance_iff hne] at hsummary
    · intro h
      have hgreatest := (isGreatest_minDistance_iff hne).mpr h
      refine ⟨hreport, ?_, ?_⟩
      · rwa [maxDrawdownUsd_eq lib hne]
      · intro source row _ heq dd hdd
        rw [bootstrapDrawdowns, List.map_singleton, List.mem_singleton] at hdd
        rw [hdd, heq]
        exact hgreatest

end Figures

/-- A trade that loses five dollars. -/
def losingTrade : BacktestTrade ℚ Unit where
  tradeIdx := 0
  marketSlug := "btc-updown-5m-1700000100"
  side := .yesUp
  entryTs := 1700000300
  entryPrice := 1 / 2
  stakeUsd := 5
  exitTs := 1700000400
  exitPrice := 0
  resolution := .loss
  pnlUsd := -5
  slippage := 0
  fee := 0
  entryTInWindow := 200
  signalFirstSeenTInWindow := 200
  impliedProbYesAtEntry := 1 / 2
  modelProbYesAtEntry := 3 / 5
  edgeAtEntry := 1 / 10
  pmSpreadBpsAtEntry := 100
  volRegimeAtEntry := .mid
  payload := ()

/-- A run that only loses has a drawdown in the report and none in the summary. -/
theorem not_drawdownsAgree_losingTrade :
    ¬ ∀ (trades : List (BacktestTrade ℚ Unit)) (durationS : ℚ),
      DrawdownsAgree MathLib.rational trades durationS := by
  intro hall
  have hsummary := (hall [losingTrade] 86400).summary
  have hzero : (summaryFromPnls MathLib.rational
      ([losingTrade].map fun t => t.pnlUsd)).maxDrawdownUsd = 0 := by decide +kernel
  rw [hzero] at hsummary
  have hfall : (5 : ℚ) ∈ falls (0 :: cumsum ([losingTrade].map fun t => t.pnlUsd)) :=
    .inl ⟨-5, by decide +kernel, by norm_num⟩
  exact absurd (hsummary.2 hfall) (by norm_num)

/-- With as large a profit in front of the loss they agree. -/
theorem drawdownsAgree_profit_first :
    DrawdownsAgree MathLib.rational [{ losingTrade with pnlUsd := 5 }, losingTrade] 86400 := by
  rw [drawdowns_agree_iff]
  intro equity hequity
  refine ⟨5, .inl ⟨0, by decide +kernel, by decide +kernel⟩, ?_⟩
  have hpositive : ∀ e ∈ cumsum ([{ losingTrade with pnlUsd := 5 }, losingTrade].map
      fun t => t.pnlUsd), -e ≤ 5 := by decide +kernel
  exact hpositive equity hequity

end TradingEdge.Analysis
