import Mathlib.Tactic.Linarith
import TradingEdge.Program.PaperVsBacktest

/-!
# The verdict on paper trades that a backtest confirms

The paper trades are those of a window, the figures of the backtest those of its whole range.
Where the backtest made in the window what the paper account did, the two differ by what it made
outside, and the verdict is about that (`verdict_ok_iff`).
-/

set_option autoImplicit false

namespace TradingEdge.Analysis

open TradingEdge.Model TradingEdge.Program

variable {K P : Type} [Field K] [LinearOrder K] [FloorRing K] {lib : MathLib K}

/-! ## The figures of a backtest -/

/-- The KPIs count the trades. -/
theorem computeKpis_nTrades (trades : List (BacktestTrade K P)) (durationS : K) :
    (computeKpis lib trades durationS).performance.nTrades = trades.length := by
  unfold computeKpis
  split
  · next hnil => simp [hnil]
  · rfl

/-- The KPIs add up the pnls. -/
theorem computeKpis_totalPnl (trades : List (BacktestTrade K P)) (durationS : K) :
    (computeKpis lib trades durationS).performance.totalPnl =
      (trades.map fun t => t.pnlUsd).sum := by
  unfold computeKpis
  split
  · next hnil => simp [hnil]
  · rfl

/-- A completed backtest is summed up with all its trades. -/
theorem aggregateBacktest_figures {row : StoredBacktest lib P} (h : row.status = "completed") :
    (aggregateBacktest (some row)).nTrades = row.trades.length ∧
      (aggregateBacktest (some row)).totalPnl = (row.trades.map fun t => t.pnlUsd).sum := by
  simp [aggregateBacktest, row.metrics_eq h, computeKpis_nTrades, computeKpis_totalPnl]

/-! ## The window -/

/-- The trade was entered from `since` on and before `till`. -/
def EnteredIn (since till : K) (t : BacktestTrade K P) : Prop :=
  since ≤ t.entryTs ∧ t.entryTs < till

instance (since till : K) (t : BacktestTrade K P) : Decidable (EnteredIn since till t) :=
  inferInstanceAs (Decidable (_ ∧ _))

/-- The trades of the window. -/
def insideTrades (row : StoredBacktest lib P) (since till : K) : List (BacktestTrade K P) :=
  row.trades.filter fun t => EnteredIn since till t

/-- The trades outside. -/
def outsideTrades (row : StoredBacktest lib P) (since till : K) : List (BacktestTrade K P) :=
  row.trades.filter fun t => ¬EnteredIn since till t

/-- The profit of some trades. -/
def profitOf (trades : List (BacktestTrade K P)) : K := (trades.map fun t => t.pnlUsd).sum

omit [LinearOrder K] [FloorRing K] in
/-- The profit of a list continued. -/
theorem profitOf_append (trades trades' : List (BacktestTrade K P)) :
    profitOf (trades ++ trades') = profitOf trades + profitOf trades' := by
  simp [profitOf]

/-- The trades of a backtest are those of the window and those outside. -/
theorem inside_append_outside_perm (row : StoredBacktest lib P) (since till : K) :
    (insideTrades row since till ++ outsideTrades row since till).Perm row.trades := by
  have hnot : outsideTrades row since till =
      row.trades.filter fun t => !decide (EnteredIn since till t) := by
    simp only [outsideTrades, decide_not]
  rw [hnot]
  exact List.filter_append_perm _ row.trades

/-- So are their number and their profit. -/
theorem figures_of_window (row : StoredBacktest lib P) (since till : K) :
    (insideTrades row since till).length + (outsideTrades row since till).length =
        row.trades.length ∧
      profitOf (insideTrades row since till) + profitOf (outsideTrades row since till) =
        profitOf row.trades := by
  have hperm := inside_append_outside_perm row since till
  constructor
  · rw [← List.length_append]
    exact hperm.length_eq
  · rw [← profitOf_append]
    exact (hperm.map _).sum_eq

/-! ## The verdict -/

/-- The settled paper trades of the window are the trades that the backtest made in it: as many,
with the same profits. -/
def SameTrades (t : PaperTables K) (short : String) (since till : K)
    (row : StoredBacktest lib P) : Prop :=
  ((settledRows t short since till).map fun r => r.pnl).Perm
    ((insideTrades row since till).map fun b => b.pnlUsd)

/-- What the backtest made outside the window is little: at most three in ten of its trades, and of
its profit three tenths, if that is not nothing. -/
def LittleOutside (row : StoredBacktest lib P) (since till : K) : Prop :=
  10 * (outsideTrades row since till).length ≤ 3 * row.trades.length ∧
    (|profitOf row.trades| < 1 / 1000000000 ∨
      10 * |profitOf (outsideTrades row since till)| ≤ 3 * |profitOf row.trades|)

section Verdict

variable [IsStrictOrderedRing K]

omit [FloorRing K] in
/-- A difference, in percent of the size of the whole. -/
theorem abs_percent_le_iff {part whole size : K} (hsize : 0 < size) :
    |(whole - part - whole) / size * 100| ≤ 30 ↔ 10 * |part| ≤ 3 * size := by
  have habs : |(whole - part - whole) / size * 100| = |part| / size * 100 := by
    rw [sub_sub_cancel_left, abs_mul, abs_div, abs_neg, abs_of_pos hsize]
    norm_num
  rw [habs, div_mul_eq_mul_div, div_le_iff₀ hsize]
  constructor
  · intro h
    linarith
  · intro h
    linarith

omit [FloorRing K] in
/-- A verdict of two figures that are not zero is OK within thirty percent of both. -/
theorem compareAggs_ok_iff {paper : PaperAgg K} {bt : BacktestAgg K} (hpaper : paper.nTrades ≠ 0)
    (hbt : bt.nTrades ≠ 0) :
    (compareAggs paper bt).verdict = .ok ↔
      |((paper.nTrades : K) - bt.nTrades) / bt.nTrades * 100| ≤ 30 ∧
        (|bt.totalPnl| < 1 / 1000000000 ∨
          |(paper.totalPnl - bt.totalPnl) / |bt.totalPnl| * 100| ≤ 30) := by
  have hworst : ∀ worst : K, verdictOfWorst worst = .ok ↔ worst ≤ 30 := by
    intro worst
    unfold verdictOfWorst
    split_ifs with hok hdrift
    · simp [hok]
    · simp [hok]
    · simp [hok]
  rw [compareAggs, if_neg hbt, if_neg hpaper]
  dsimp only
  rw [hworst]
  unfold worstDelta
  rw [max_le_iff]
  refine and_congr_right fun _ => ?_
  by_cases hzero : |bt.totalPnl| < 1 / 1000000000
  · rw [if_pos hzero]
    exact iff_of_true (by norm_num) (Or.inl hzero)
  · rw [if_neg hzero]
    exact (or_iff_right hzero).symm

/-- Between the same trades the verdict depends on what else the backtest made. -/
theorem compareStrategy_ok_iff {t : PaperTables K} {short : String} {since till : K}
    {row : StoredBacktest lib P} (hcompleted : row.status = "completed")
    (hsame : SameTrades t short since till row) (hone : insideTrades row since till ≠ []) :
    (compareStrategy t short since till (some row)).verdict = .ok ↔
      LittleOutside row since till := by
  obtain ⟨hnumber, hprofit⟩ := aggregateBacktest_figures hcompleted
  obtain ⟨hlength, hsum⟩ := figures_of_window row since till
  have hpaperNumber : (aggregatePaper t short since till).nTrades =
      (insideTrades row since till).length := by
    have := hsame.length_eq
    rwa [List.length_map, List.length_map] at this
  have hpaperProfit : (aggregatePaper t short since till).totalPnl =
      profitOf (insideTrades row since till) := hsame.sum_eq
  have hinside : 0 < (insideTrades row since till).length := List.length_pos_iff.mpr hone
  have hall : (0 : K) < row.trades.length := by
    exact_mod_cast (by omega : 0 < row.trades.length)
  rw [compareStrategy, compareAggs_ok_iff (by omega) (by omega), hpaperNumber, hpaperProfit,
    hnumber, hprofit]
  have htrades : |(((insideTrades row since till).length : K) - row.trades.length) /
      row.trades.length * 100| ≤ 30 ↔
        10 * (outsideTrades row since till).length ≤ 3 * row.trades.length := by
    have hpart : ((insideTrades row since till).length : K) =
        row.trades.length - (outsideTrades row since till).length := by
      rw [← hlength]
      push_cast
      ring
    rw [hpart, abs_percent_le_iff hall, abs_of_nonneg (Nat.cast_nonneg _)]
    constructor
    · intro h
      exact_mod_cast h
    · intro h
      exact_mod_cast h
  rw [htrades, LittleOutside]
  refine and_congr_right fun _ => or_congr_right' fun hsome => ?_
  have hsize : 0 < |profitOf row.trades| :=
    lt_of_lt_of_le (by norm_num) (not_lt.mp hsome)
  have hpart : profitOf (insideTrades row since till) =
      profitOf row.trades - profitOf (outsideTrades row since till) := by
    rw [← hsum]
    ring
  rw [hpart]
  exact abs_percent_le_iff hsize

/-- **Paper trades that the backtest confirms.**  The verdict is OK exactly when the backtest made
little outside the window.
SOURCE: cli/paper_vs_backtest.py:59-138 -/
theorem verdict_ok_iff (t : PaperTables K) (short : String) (since till : K)
    (backtests : List (StoredBacktest lib P)) (row : StoredBacktest lib P)
    (hrow : SelectsBacktest backtests (fullName short) since till (some row))
    (hsame : SameTrades t short since till row) (hone : insideTrades row since till ≠ []) :
    (compareStrategy t short since till (some row)).verdict = .ok ↔
      LittleOutside row since till :=
  compareStrategy_ok_iff hrow.2.1.1 hsame hone

/-- **The same period.**  A backtest that trades in the window only confirms the paper trades. -/
theorem verdict_ok_of_all_inside {t : PaperTables K} {short : String} {since till : K}
    {row : StoredBacktest lib P} (hcompleted : row.status = "completed")
    (hsame : SameTrades t short since till row) (hone : insideTrades row since till ≠ [])
    (hall : ∀ b ∈ row.trades, EnteredIn since till b) :
    (compareStrategy t short since till (some row)).verdict = .ok := by
  have hnone : outsideTrades row since till = [] := by
    rw [outsideTrades, List.filter_eq_nil_iff]
    intro b hb
    simpa using hall b hb
  refine (compareStrategy_ok_iff hcompleted hsame hone).mpr ⟨?_, Or.inr ?_⟩
  · simp [hnone]
  · simp [hnone, profitOf]

end Verdict

section Instance

/-- A trade of a backtest that wins three dollars. -/
def winAt (entryTs : ℚ) : BacktestTrade ℚ Unit where
  tradeIdx := 0
  marketSlug := "btc-updown-5m-300"
  side := .yesUp
  entryTs := entryTs
  entryPrice := 5 / 8
  stakeUsd := 5
  exitTs := entryTs + 60
  exitPrice := 1
  resolution := .win
  pnlUsd := 3
  slippage := 0
  fee := 0
  entryTInWindow := 240
  signalFirstSeenTInWindow := 240
  impliedProbYesAtEntry := 5 / 8
  modelProbYesAtEntry := 5 / 8
  edgeAtEntry := 0
  pmSpreadBpsAtEntry := 0
  volRegimeAtEntry := .low
  payload := ()

/-- A paper order of the window from 0 to 1000, settled with the same profit. -/
def paperWin : PaperTables ℚ where
  orders := [{
    orderId := "order"
    strategyId := "trend_confirm_t1_v1"
    instrumentId := "btc-updown-5m-300"
    qty := 8
    price := 5 / 8
    tsSubmit := 240
    tsLastUpdate := 240
    side := "BUY"
    status := .filled }]
  fills := [⟨"order-settle", "order", 300, 1, 8, 0, .settle .win 3⟩]

/-- A backtest of the range from 0 to 5000 with some trades. -/
def fiveThousand (trades : List (BacktestTrade ℚ Unit)) : StoredBacktest MathLib.rational Unit :=
  persistBacktest MathLib.rational "backtest" (fullName "trend_confirm_t1_v1") 0 5000 6000 trades

/-- The query selects the only backtest. -/
theorem selects_fiveThousand (trades : List (BacktestTrade ℚ Unit)) :
    SelectsBacktest [fiveThousand trades] (fullName "trend_confirm_t1_v1") 0 1000
      (some (fiveThousand trades)) := by
  refine ⟨List.mem_singleton_self _, ⟨rfl, rfl, ?_, ?_⟩, ?_⟩
  · show (0 : ℚ) < 1000
    norm_num
  · show (0 : ℚ) < 5000
    norm_num
  · intro b hb _
    rw [List.mem_singleton.mp hb]

/-- The backtest makes the trade and no other. -/
theorem verdict_ok_one_trade :
    (compareStrategy paperWin "trend_confirm_t1_v1" 0 1000
      (some (fiveThousand [winAt 240]))).verdict = .ok := by
  refine (verdict_ok_iff paperWin "trend_confirm_t1_v1" 0 1000 [fiveThousand [winAt 240]] _
    (selects_fiveThousand _) (List.Perm.of_eq rfl) (by decide)).mpr ?_
  have hnone : outsideTrades (fiveThousand [winAt 240]) 0 1000 = [] := rfl
  refine ⟨?_, Or.inr ?_⟩
  · simp [hnone]
  · simp [hnone, profitOf]

/-- The backtest makes the trade, and two more after the window: the paper account fails. -/
theorem not_verdict_ok :
    ¬∀ (t : PaperTables ℚ) (short : String) (since till : ℚ)
      (backtests : List (StoredBacktest MathLib.rational Unit))
      (row : StoredBacktest MathLib.rational Unit),
      SelectsBacktest backtests (fullName short) since till (some row) →
      SameTrades t short since till row → insideTrades row since till ≠ [] →
      (compareStrategy t short since till (some row)).verdict = .ok := by
  intro h
  let row := fiveThousand [winAt 240, winAt 2040, winAt 3840]
  have hsame : SameTrades paperWin "trend_confirm_t1_v1" 0 1000 row := List.Perm.of_eq rfl
  have hone : insideTrades row 0 1000 ≠ [] := by decide
  have hok := h paperWin "trend_confirm_t1_v1" 0 1000 _ _ (selects_fiveThousand _) hsame hone
  have hlittle := ((compareStrategy_ok_iff rfl hsame hone).mp hok).1
  revert hlittle
  decide

end Instance

end TradingEdge.Analysis
