import Mathlib.Algebra.Order.Floor.Ring
import TradingEdge.Library.Dict
import TradingEdge.Program.BacktestDriver

/-!
# The figures of a list of trades

`compute_kpis` of `engine/backtest_driver.py` sums up a backtest for its report and for the folds
of a walk forward.  `research/monte_carlo.py` sums up the profits of resampled trades and of
replicates with NumPy: `_summary_from_pnls` for one list, and row by row for the matrix of
`bootstrap_metrics`.
-/

set_option autoImplicit false

namespace TradingEdge.Program

open TradingEdge.Library TradingEdge.Model

/-! ## The report of a backtest -/

/-- SOURCE: engine/backtest_driver.py:406-416 -/
structure Performance (K : Type) where
  nTrades : ℕ
  totalPnl : K
  winRate : K
  wins : ℕ
  losses : ℕ
  avgPnl : K
  avgWin : K
  avgLoss : K
  profitFactor : K

/-- SOURCE: engine/backtest_driver.py:417-423 -/
structure RiskAdjusted (K : Type) where
  sharpePerTrade : K
  sharpeAnnualizedIid : K
  sharpeDaily : K
  mddUsd : K
  tradesPerYearAssumed : K

/-- SOURCE: engine/backtest_driver.py:405-424 -/
structure Kpis (K : Type) where
  performance : Performance K
  riskAdjusted : RiskAdjusted K

variable {K P : Type} [Field K] [LinearOrder K]

/-- The loop over the profits, from an equity of zero that is the first peak: equity, peak and
deepest distance below the peak.
SOURCE: engine/backtest_driver.py:397-403 -/
def mddLoop (pnls : List K) : K × K × K :=
  pnls.foldl (fun s p =>
    let equity := s.1 + p
    let peak := max s.2.1 equity
    (equity, peak, min s.2.2 (equity - peak))) (0, 0, 0)

/-- The profits of each day, in the order of the first trade of the day.
SOURCE: engine/backtest_driver.py:384-388 -/
def dailyPnls [FloorRing K] (trades : List (BacktestTrade K P)) : List K :=
  (trades.foldl (fun (daily : Dict ℤ K) t =>
    daily.set (utcDay t.entryTs) ((daily.get? (utcDay t.entryTs)).getD 0 + t.pnlUsd))
    Dict.empty).values

/-- SOURCE: engine/backtest_driver.py:389-395 -/
def sharpeDaily (lib : MathLib K) (daily : List K) : K :=
  if 2 ≤ daily.length then
    let mean := daily.sum / daily.length
    let var := (daily.map fun x => (x - mean) ^ 2).sum / ((daily.length : K) - 1)
    let std := if 0 < var then lib.sqrt var else 0
    if 0 < std then mean / std * lib.sqrt 365 else 0
  else 0

/-- SOURCE: engine/backtest_driver.py:349-424 -/
def computeKpis [FloorRing K] (lib : MathLib K) (trades : List (BacktestTrade K P))
    (durationS : K) : Kpis K :=
  if trades = [] then
    { performance := ⟨0, 0, 0, 0, 0, 0, 0, 0, 0⟩
      riskAdjusted := ⟨0, 0, 0, 0, 0⟩ }
  else
    let pnls := trades.map fun t => t.pnlUsd
    let wins := pnls.filter fun p => 0 < p
    let losses := pnls.filter fun p => p ≤ 0
    let n := trades.length
    let mean := pnls.sum / n
    let var := (pnls.map fun p => (p - mean) ^ 2).sum / ((max (n - 1) 1 : ℕ) : K)
    let std := if 0 < var then lib.sqrt var else 0
    let sharpePerTrade := if 0 < std then mean / std else 0
    let tradesPerYear := n / max durationS 1 * (1461 / 4) * 86400
    { performance :=
        { nTrades := n
          totalPnl := pnls.sum
          winRate := wins.length / n
          wins := wins.length
          losses := losses.length
          avgPnl := mean
          avgWin := if wins ≠ [] then wins.sum / wins.length else 0
          avgLoss := if losses ≠ [] then losses.sum / losses.length else 0
          profitFactor := if losses ≠ [] ∧ losses.sum ≠ 0 then wins.sum / -losses.sum else 0 }
      riskAdjusted :=
        { sharpePerTrade := sharpePerTrade
          sharpeAnnualizedIid := sharpePerTrade * lib.sqrt (max tradesPerYear 1)
          sharpeDaily := sharpeDaily lib (dailyPnls trades)
          mddUsd := (mddLoop pnls).2.2
          tradesPerYearAssumed := tradesPerYear } }

/-! ## The summaries of the resamples -/

omit [LinearOrder K] in
/-- `pnls.cumsum()`. -/
def cumsum (pnls : List K) : List K := (pnls.scanl (· + ·) 0).tail

omit [Field K] in
/-- `np.maximum.accumulate(equity)`. -/
def maximumAccumulate : List K → List K
  | [] => []
  | e :: equity => equity.scanl max e

/-- `(equity - peak).min()`, of an array that is not empty. -/
def minDistance (equity peak : List K) : K :=
  match equity.zipWith (· - ·) peak with
  | [] => 0
  | d :: ds => ds.foldl min d

/-- SOURCE: research/monte_carlo.py:82-105 -/
structure PnlSummary (K : Type) where
  nTrades : ℕ
  totalPnl : K
  winRate : K
  sharpePerTrade : K
  maxDrawdownUsd : K

/-- SOURCE: research/monte_carlo.py:82-105 -/
def summaryFromPnls (lib : MathLib K) (pnls : List K) : PnlSummary K :=
  let n := pnls.length
  if n = 0 then ⟨0, 0, 0, 0, 0⟩
  else
    let wins := pnls.countP fun p => 0 < p
    let mean := pnls.sum / n
    let std := if 1 < n then
      lib.sqrt ((pnls.map fun p => (p - mean) ^ 2).sum / ((n : K) - 1)) else 0
    let equity := cumsum pnls
    let peak := maximumAccumulate equity
    { nTrades := n
      totalPnl := pnls.sum
      winRate := wins / n
      sharpePerTrade := if 0 < std then mean / std else 0
      maxDrawdownUsd := minDistance equity peak }

/-- The drawdowns of the resamples, one for each row of drawn indices.
SOURCE: research/monte_carlo.py:144-156 -/
def bootstrapDrawdowns (pnls : List K) (idx : List (List (Fin pnls.length))) : List K :=
  idx.map fun row =>
    let sample := row.map pnls.get
    let equity := cumsum sample
    let peaks := maximumAccumulate equity
    minDistance equity peaks

end TradingEdge.Program
