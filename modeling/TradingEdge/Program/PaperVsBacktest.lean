import TradingEdge.Program.SharedTables
import TradingEdge.Program.TradeKpis

/-!
# Paper trades against a backtest

`cli/paper_vs_backtest.py` sums up the settled paper trades of a strategy in a window, looks for a
backtest of the strategy, and compares the two in number and profit.  The backtests are written by
`persist_and_render` of `research/report.py`, each with its trades.
-/

set_option autoImplicit false

namespace TradingEdge.Program

open TradingEdge.Model

variable {K P : Type} [Field K] [LinearOrder K]

/-! ## The paper trades -/

/-- A row of the join of the orders with their settle fills.
SOURCE: cli/paper_vs_backtest.py:62-64 -/
structure SettledRow (K : Type) where
  instrumentId : String
  resolution : Resolution
  pnl : K

/-- The settle fill of an order, as a row.
SOURCE: cli/paper_vs_backtest.py:62-68 -/
def settledRow? (o : StoredOrder K) (f : StoredFill K) : Option (SettledRow K) :=
  if f.orderId = o.orderId then
    match f.kind with
    | .settle resolution pnl => some ⟨o.instrumentId, resolution, pnl⟩
    | _ => none
  else none

/-- The rows of a strategy whose orders were submitted from `since` on and before `till`.
SOURCE: cli/paper_vs_backtest.py:60-76 -/
def settledRows (t : PaperTables K) (strategyId : String) (since till : K) : List (SettledRow K) :=
  let orders := t.orders.filter fun o =>
    o.strategyId = strategyId ∧ since ≤ o.tsSubmit ∧ o.tsSubmit < till
  orders.flatMap fun o => t.fills.filterMap (settledRow? o)

/-- SOURCE: cli/paper_vs_backtest.py:41-46 -/
structure PaperAgg (K : Type) where
  nTrades : ℕ
  nWins : ℕ
  totalPnl : K
  instruments : Finset String

/-- SOURCE: cli/paper_vs_backtest.py:59-81 -/
def aggregatePaper (t : PaperTables K) (strategyId : String) (since till : K) : PaperAgg K :=
  let rows := settledRows t strategyId since till
  { nTrades := rows.length
    nWins := rows.countP fun r => r.resolution = .win
    totalPnl := (rows.map fun r => r.pnl).sum
    instruments := ((rows.map fun r => r.instrumentId).filter (· ≠ "")).toFinset }

/-! ## The backtests -/

/-- A row of `research.backtests` with the trades that are stored with it; the metrics of a
completed backtest are the figures of its trades.
SOURCE: infra/postgres/init/04_trading_research_tables.sql:87-102,
research/report.py:240, 279-352 -/
structure StoredBacktest [FloorRing K] (lib : MathLib K) (P : Type) where
  id : String
  strategyName : String
  datasetFrom : K
  datasetTo : K
  startedAt : K
  status : String
  trades : List (BacktestTrade K P)
  metrics : Option (Kpis K)
  metrics_eq : status = "completed" →
    metrics = some (computeKpis lib trades (datasetTo - datasetFrom))

variable [FloorRing K] {lib : MathLib K}

/-- The row that `persist_and_render` inserts.
SOURCE: research/report.py:229-301 -/
def persistBacktest (lib : MathLib K) (id strategyName : String) (startTs endTs now : K)
    (trades : List (BacktestTrade K P)) : StoredBacktest lib P where
  id := id
  strategyName := strategyName
  datasetFrom := startTs
  datasetTo := endTs
  startedAt := now
  status := "completed"
  trades := trades
  metrics := some (computeKpis lib trades (endTs - startTs))
  metrics_eq _ := rfl

/-- SOURCE: cli/paper_vs_backtest.py:94-96 -/
def StoredBacktest.Overlaps (b : StoredBacktest lib P) (strategyFullName : String)
    (since till : K) : Prop :=
  b.status = "completed" ∧ b.strategyName = strategyFullName ∧ b.datasetFrom < till ∧
    since < b.datasetTo

/-- The answer of the query: of the backtests that overlap the window one that was started last.
SOURCE: cli/paper_vs_backtest.py:90-103 -/
def SelectsBacktest (backtests : List (StoredBacktest lib P)) (strategyFullName : String)
    (since till : K) : Option (StoredBacktest lib P) → Prop
  | none => ∀ b ∈ backtests, ¬b.Overlaps strategyFullName since till
  | some row => row ∈ backtests ∧ row.Overlaps strategyFullName since till ∧
      ∀ b ∈ backtests, b.Overlaps strategyFullName since till → b.startedAt ≤ row.startedAt

/-- SOURCE: cli/paper_vs_backtest.py:49-56 -/
structure BacktestAgg (K : Type) where
  backtestId : Option String
  nTrades : ℕ
  nWins : ℕ
  totalPnl : K
  datasetFrom : Option K
  datasetTo : Option K

/-- SOURCE: cli/paper_vs_backtest.py:104-117 -/
def aggregateBacktest (row : Option (StoredBacktest lib P)) : BacktestAgg K :=
  match row with
  | none => ⟨none, 0, 0, 0, none, none⟩
  | some row =>
    { backtestId := some row.id
      nTrades := (row.metrics.map fun kpis => kpis.performance.nTrades).getD 0
      nWins := (row.metrics.map fun kpis => kpis.performance.wins).getD 0
      totalPnl := (row.metrics.map fun kpis => kpis.performance.totalPnl).getD 0
      datasetFrom := some row.datasetFrom
      datasetTo := some row.datasetTo }

/-! ## The verdict -/

/-- SOURCE: cli/paper_vs_backtest.py:123-137 -/
inductive ComparisonVerdict where
  | noBacktest
  | ok
  | drift
  | fail
deriving DecidableEq, Repr

/-- A verdict with the two differences in percent; the one in profit can also be `nan`, which is
`some none` here.
SOURCE: cli/paper_vs_backtest.py:120-121 -/
structure Comparison (K : Type) where
  verdict : ComparisonVerdict
  deltaTradesPct : Option K
  deltaPnlPct : Option (Option K)

/-- The larger of the differences, where `nan` counts as nothing.
SOURCE: cli/paper_vs_backtest.py:131 -/
def worstDelta (deltaTradesPct : K) (deltaPnlPct : Option K) : K :=
  max |deltaTradesPct| (match deltaPnlPct with
    | some delta => |delta|
    | none => 0)

/-- SOURCE: cli/paper_vs_backtest.py:37-38, 132-137 -/
def verdictOfWorst (worst : K) : ComparisonVerdict :=
  if worst ≤ 30 then .ok
  else if worst ≤ 60 then .drift
  else .fail

/-- SOURCE: cli/paper_vs_backtest.py:120-138 -/
def compareAggs (paper : PaperAgg K) (bt : BacktestAgg K) : Comparison K :=
  if bt.nTrades = 0 then ⟨.noBacktest, none, none⟩
  else if paper.nTrades = 0 then ⟨.fail, some (-100), some (some (-100))⟩
  else
    let deltaTradesPct := ((paper.nTrades : K) - bt.nTrades) / bt.nTrades * 100
    let deltaPnlPct := if |bt.totalPnl| < 1 / 1000000000 then none
      else some ((paper.totalPnl - bt.totalPnl) / |bt.totalPnl| * 100)
    ⟨verdictOfWorst (worstDelta deltaTradesPct deltaPnlPct), some deltaTradesPct, some deltaPnlPct⟩

/-- The comparison of a strategy in a window.
SOURCE: cli/paper_vs_backtest.py:198-202 -/
def compareStrategy (t : PaperTables K) (short : String) (since till : K)
    (row : Option (StoredBacktest lib P)) : Comparison K :=
  compareAggs (aggregatePaper t short since till) (aggregateBacktest row)

/-- The name of a strategy in `research.backtests`.
SOURCE: cli/paper_vs_backtest.py:199 -/
def fullName (short : String) : String := "polymarket_btc5m/" ++ short

end TradingEdge.Program
