import TradingEdge.Program.BacktestLoader
import TradingEdge.Program.BlockBootstrap
import TradingEdge.Program.TrendConfirm

/-!
# What replaying one market does

The loop over the markets is a fold of `replayMarket`.  Everything a market contributes besides
its tick loop, its opening price, its settle price and its close time, depends on the market and
the loader alone (`marketTerms`); `replayMarket_of_some` writes a replay as those terms and the loop.
-/

set_option autoImplicit false

namespace TradingEdge.Analysis

open TradingEdge.Model TradingEdge.Program TradingEdge.Library

variable {K S P G : Type} [Field K] [LinearOrder K] [FloorRing K]

/-- What the code around the loop reads of a market. -/
structure MarketTerms (K : Type) where
  openPrice : K
  finalPrice : K
  closeTs : K

/-- The terms of a market, or `none` when it is not replayed: it has no ticks, or the settle dict
misses it.
SOURCE: engine/backtest_driver.py:168-202 -/
def marketTerms (settle : Option (String → Option K)) (slug : String) :
    List (TickContext K) → Option (MarketTerms K)
  | [] => none
  | first :: rest =>
    let last := rest.getLast?.getD first
    (settlePriceFor settle slug last).map fun finalPrice =>
      { openPrice := openPriceMarket first (first :: rest)
        finalPrice := finalPrice
        closeTs := if first.windowCloseTs ≠ 0 then first.windowCloseTs else last.ts }

omit [FloorRing K] in
/-- Without a settle dict every market that has ticks is replayed. -/
theorem exists_marketTerms (slug : String) (ticks : List (TickContext K)) (h : ticks ≠ []) :
    ∃ terms, marketTerms none slug ticks = some terms := by
  cases ticks with
  | nil => exact absurd rfl h
  | cons first rest => exact ⟨_, rfl⟩

/-- The run before its first market.
SOURCE: engine/backtest_driver.py:140-146 -/
def startRun (strategy : S) (risk : RiskState K) (rng : G) : RunState K S P G where
  strategy := strategy
  risk := risk
  rng := rng
  decisionCounts := ⟨0, 0, 0, 0⟩
  trades := []
  tradeIdx := 0
  nTicks := 0
  nMarkets := 0

/-- A run that has counted one more market. -/
def counted (run : RunState K S P G) : RunState K S P G := { run with nMarkets := run.nMarkets + 1 }

variable (cfg : BacktestConfig K S P G) (settle : Option (String → Option K))

omit [LinearOrder K] [FloorRing K] in
/-- A market starts with the strategy of the run. -/
@[simp] theorem start_strategy (run : RunState K S P G) :
    (MarketState.start cfg run).strategy = run.strategy := rfl

omit [LinearOrder K] [FloorRing K] in
/-- A market starts with the risk manager of the run. -/
@[simp] theorem start_risk (run : RunState K S P G) :
    (MarketState.start cfg run).risk = run.risk := rfl

/-- Before the entry window the loop only observes.
SOURCE: engine/backtest_driver.py:215-237 -/
theorem tickStep_waiting (st : MarketState K S P G) (tick : TickContext K)
    (h : ¬cfg.entryWindow.Contains tick) :
    (tickStep cfg st tick).1 = st.observe (st.indicators.update cfg.lib tick).1
      (st.indicators.update cfg.lib tick).2 := by
  have hctx : ¬cfg.entryWindow.Contains (st.indicators.update cfg.lib tick).1 := h
  unfold tickStep
  dsimp only
  rw [if_pos hctx, ite_self]

/-- A tick in the entry window, without a position and without the risk manager, is evaluated.
SOURCE: engine/backtest_driver.py:231-253 -/
theorem tickStep_bypassed (st : MarketState K S P G) (tick : TickContext K)
    (hbypass : cfg.bypassRisk = true) (hposition : st.position = none)
    (hwindow : cfg.entryWindow.Contains (st.indicators.update cfg.lib tick).1) :
    (tickStep cfg st tick).1 = (evaluate cfg (st.observe (st.indicators.update cfg.lib tick).1
      (st.indicators.update cfg.lib tick).2) (st.indicators.update cfg.lib tick).1
      st.recentCtxs).1 := by
  have hno : ¬(st.observe (st.indicators.update cfg.lib tick).1
      (st.indicators.update cfg.lib tick).2).position.isSome = true := by
    rw [MarketState.observe_position, hposition]
    simp
  unfold tickStep
  dsimp only
  rw [if_neg hno, if_neg (not_not.mpr hwindow), if_pos hbypass]

omit [FloorRing K] in
/-- The strategy and the fill leave the risk manager and the history alone. -/
theorem evaluate_frame (st : MarketState K S P G) (ctx : TickContext K)
    (recent : List (TickContext K)) :
    (evaluate cfg st ctx recent).1.risk = st.risk ∧
      (evaluate cfg st ctx recent).1.recentCtxs = st.recentCtxs := by
  unfold evaluate
  dsimp only
  split
  · exact ⟨rfl, rfl⟩
  split
  · exact ⟨rfl, rfl⟩
  split
  · exact ⟨rfl, rfl⟩
  · exact ⟨rfl, rfl⟩

/-- Every tick goes into the history. -/
theorem tickStep_recentCtxs (st : MarketState K S P G) (tick : TickContext K) :
    (tickStep cfg st tick).1.recentCtxs =
      st.recentCtxs ++ [(st.indicators.update cfg.lib tick).1] := by
  unfold tickStep
  dsimp only
  split
  · rfl
  split
  · rfl
  split
  · exact (evaluate_frame cfg _ _ _).2
  split
  · rfl
  · exact (evaluate_frame cfg _ _ _).2

/-- The history grows by a tick each step. -/
theorem final_recentCtxs_length (ticks : List (TickContext K)) (st : MarketState K S P G) :
    ((marketLoop cfg).final st ticks).recentCtxs.length = st.recentCtxs.length + ticks.length := by
  induction ticks generalizing st with
  | nil => rfl
  | cons tick ticks ih =>
    have hnext : ((marketLoop cfg).next st tick).recentCtxs = _ := tickStep_recentCtxs cfg st tick
    rw [Machine.final_cons, ih, hnext, List.length_append, List.length_singleton, List.length_cons]
    omega

/-- A run is the fold of the replays. -/
theorem runBacktest_eq (strategy : S) (risk : RiskState K) (rng : G)
    (markets : List (String × List (TickContext K))) :
    runBacktest cfg settle strategy risk rng markets =
      markets.foldl (fun run m => (replayMarket cfg settle run m.1 m.2).1)
        (startRun strategy risk rng) := rfl

/-- A market that is not replayed leaves every run as it is, but for the count. -/
theorem replayMarket_of_none (slug : String) (ticks : List (TickContext K))
    (h : marketTerms settle slug ticks = none) :
    (∀ run, replayMarket cfg settle run slug ticks = (run, [])) ∨
      ∀ run, replayMarket cfg settle run slug ticks = (counted run, []) := by
  cases ticks with
  | nil => exact Or.inl fun _ => rfl
  | cons first rest =>
    refine Or.inr fun run => ?_
    have hsettle : settlePriceFor settle slug (rest.getLast?.getD first) = none := by
      simpa [marketTerms] using h
    unfold replayMarket
    simp only [hsettle]
    rfl

/-- A market that is replayed runs its loop from the state of the run, and is then closed. -/
theorem replayMarket_of_some (run : RunState K S P G) (slug : String)
    (ticks : List (TickContext K)) (terms : MarketTerms K)
    (h : marketTerms settle slug ticks = some terms) :
    replayMarket cfg settle run slug ticks =
      (closeMarket cfg (counted run) slug terms.openPrice terms.finalPrice terms.closeTs
          ((marketLoop cfg).final (MarketState.start cfg run) ticks),
        (marketLoop cfg).emissions (MarketState.start cfg run) ticks) := by
  cases ticks with
  | nil => cases h
  | cons first rest =>
    cases hsettle : settlePriceFor settle slug (rest.getLast?.getD first) with
    | none => simp [marketTerms, hsettle] at h
    | some finalPrice =>
      simp only [marketTerms, hsettle, Option.map_some, Option.some.injEq] at h
      subst h
      unfold replayMarket
      simp only [hsettle]
      rfl

/-- The trade that a market adds, if its loop ends with a position. -/
def marketTrade (tradeIdx : ℕ) (slug : String) (terms : MarketTerms K)
    (st : MarketState K S P G) : List (BacktestTrade K P) :=
  (st.position.map fun p => closeTrade cfg tradeIdx slug terms.openPrice terms.finalPrice
    terms.closeTs st.signalFirstSeen p).toList

/-- What closing a market does to the trades and to the state shared with the next markets. -/
theorem closeMarket_eq (run : RunState K S P G) (slug : String) (terms : MarketTerms K)
    (st : MarketState K S P G) :
    closeMarket cfg run slug terms.openPrice terms.finalPrice terms.closeTs st =
      { run with
        strategy := st.strategy
        risk := (marketTrade cfg run.tradeIdx slug terms st).foldl (fun risk trade =>
          if cfg.bypassRisk then risk
          else onTradeClosed cfg.riskCfg risk trade.pnlUsd trade.exitTs) st.risk
        rng := st.rng
        decisionCounts := st.decisionCounts
        nTicks := st.nTicks
        trades := run.trades ++ marketTrade cfg run.tradeIdx slug terms st
        tradeIdx := run.tradeIdx + (marketTrade cfg run.tradeIdx slug terms st).length } := by
  unfold closeMarket marketTrade
  cases st.position with
  | none => simp
  | some p => rfl

/-- A replay only adds trades. -/
theorem trades_prefix (run : RunState K S P G) (slug : String) (ticks : List (TickContext K)) :
    run.trades <+: (replayMarket cfg settle run slug ticks).1.trades := by
  cases hterms : marketTerms settle slug ticks with
  | none =>
    rcases replayMarket_of_none cfg settle slug ticks hterms with h | h
    · rw [h]
    · rw [h]
      exact List.prefix_refl _
  | some terms =>
    rw [replayMarket_of_some cfg settle run slug ticks terms hterms, closeMarket_eq]
    exact List.prefix_append _ _

section Instance

/-- A tick `t` seconds into a window that opened at 100, on a book that quotes both tokens around
0.30. -/
def fallingTick (slug : String) (windowCloseTs t spot : ℚ) : TickContext ℚ :=
  rowToTick
    { ts := windowCloseTs - 300 + t
      marketSlug := slug
      tInWindow := t
      windowCloseTs := windowCloseTs
      spotPrice := some spot
      chainlinkPrice := none
      openPrice := some 100
      pmYesBid := some (29 / 100)
      pmYesAsk := some (30 / 100)
      pmNoBid := some (29 / 100)
      pmNoAsk := some (30 / 100)
      pmDepthYes := some 10
      pmDepthNo := some 10
      pmImbalance := none
      pmSpreadBps := none
      impliedProbYes := none }
    (some 100)

/-- A market with two ticks, the price falling from one to the other.  The second is at the horizon
of `trend_confirm_t1_v1`, which bets on the fall with three of six filters. -/
def fallingMarket (slug : String) (windowCloseTs : ℚ) : LoadedMarket ℚ where
  slug := slug
  ticks := [fallingTick slug windowCloseTs 237 101, fallingTick slug windowCloseTs 240 99]
  marketSlug_eq := by
    intro tick htick
    rcases List.mem_cons.mp htick with rfl | htick
    · rfl
    · rw [List.mem_singleton.mp htick]
      rfl

/-- `trend_confirm_t1_v1` with its defaults, every order filled, and a cooldown of a minute. -/
def trendBacktest : BacktestConfig ℚ (TrendState Unit) (TrendPayload ℚ) Unit where
  lib := MathLib.rational
  strategy := trendConfirm MathLib.rational (fun rng _ _ _ => ([], rng)) TrendConfirmConfig.default
  stakeUsd := 5
  fillCfg := ⟨10, 1, false, 1 / 20⟩
  entryWindow := ⟨120, 240⟩
  riskCfg := { RiskConfig.permissive with cooldownSeconds := 60 }
  indicatorCfg := IndicatorConfig.default
  bypassRisk := false
  random g := (1 / 2, g)

/-- Two markets of one hour. -/
def twoMarkets : MaterializedLoader ℚ where
  markets := [fallingMarket "btc-updown-5m-1500" 1500, fallingMarket "btc-updown-5m-1800" 1800]
  settle := none

/-- Replayed alone, the market yields a trade. -/
example : (blockBootstrapReplicate trendBacktest ⟨[fallingMarket "btc-updown-5m-1500" 1500], none⟩
    ⟨∅, ()⟩ () [0]).trades.map (·.exitTs) = [1500] := by
  decide +kernel

end Instance

end TradingEdge.Analysis
