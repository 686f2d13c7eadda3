import TradingEdge.Library.Machine
import TradingEdge.Program.FillModel
import TradingEdge.Program.Indicators
import TradingEdge.Program.Risk

/-!
# The backtest driver

The per-market replay of `engine/backtest_driver.py`.  The body of the tick loop is the
transition `tickStep`; `marketLoop` is the machine it makes, with the ticks as labels and
what the loop does at a tick as events.  `replayMarket` is the code around the loop, and
`runBacktest` folds it over the markets with one strategy, one risk manager and one random
generator.
-/

set_option autoImplicit false

namespace TradingEdge.Program

open TradingEdge.Model TradingEdge.Library

/-- SOURCE: engine/backtest_driver.py:65-68 -/
structure EntryWindowConfig where
  earliestEntryTS : ℤ
  latestEntryTS : ℤ

/-- SOURCE: engine/backtest_driver.py:71-78 -/
structure FillConfig (K : Type) where
  slippageBps : K
  fillProbability : K
  applyFeeInBacktest : Bool
  feeK : K

/-- The three regimes of the entry z-score. -/
inductive VolRegime where
  | low
  | mid
  | high
deriving DecidableEq, Repr

/-- The `position` dict of the loop; `payload` stands for the features and the breakdown.
SOURCE: engine/backtest_driver.py:276-289 -/
structure BacktestPosition (K P : Type) where
  side : Side
  entryTs : K
  entryPrice : K
  slippage : K
  tInWindow : K
  impliedProbYes : K
  modelProbYes : K
  edge : K
  spreadBps : K
  volRegime : VolRegime
  payload : P

/-- `decision_counts`, which only these four keys ever enter. -/
structure DecisionCounts where
  riskSkip : ℕ
  enter : ℕ
  skip : ℕ
  fillMiss : ℕ

/-- Everything the tick loop reads and changes: the market's own indicators, history and
position, and the strategy, risk manager, generator and counters shared by the run. -/
structure MarketState (K S P G : Type) where
  indicators : IndicatorStack K
  recentCtxs : List (TickContext K)
  position : Option (BacktestPosition K P)
  signalFirstSeen : Option K
  strategy : S
  risk : RiskState K
  rng : G
  decisionCounts : DecisionCounts
  nTicks : ℕ

/-- What the loop does at a tick, in the order it does it. -/
inductive TickEvent (K P : Type) where
  | indicatorUpdate (ctx : TickContext K)
  | riskDecision (reason : Option (RiskReason K))
  | strategyCall (ctx : TickContext K) (recentTicks : List (TickContext K))
      (decision : Decision P)
  | fillDraw (draw : K)
  | entry (position : BacktestPosition K P)

/-- The arguments of a run that stay fixed.  `random` is `rng.random()`.
SOURCE: engine/backtest_driver.py:126-139 -/
structure BacktestConfig (K S P G : Type) where
  lib : MathLib K
  strategy : Strategy K S P
  stakeUsd : K
  fillCfg : FillConfig K
  entryWindow : EntryWindowConfig
  riskCfg : RiskConfig K
  indicatorCfg : IndicatorConfig K
  bypassRisk : Bool
  random : G → K × G

variable {K S P G : Type} [Field K] [LinearOrder K] [FloorRing K]

/-- SOURCE: engine/backtest_driver.py:90-96 -/
def volRegimeFrom (ctx : TickContext K) : VolRegime :=
  let z := |ctx.zScore|
  if z < 1 / 2 then .low
  else if z < 3 / 2 then .mid
  else .high

/-- SOURCE: engine/backtest_driver.py:99-103 -/
def finalPriceOf (last : TickContext K) : K :=
  match last.chainlinkPrice with
  | some p => if p ≠ 0 then p else last.spotPrice
  | none => last.spotPrice

/-- The resolution rule of the backtest: close at or above the strike is up.
SOURCE: engine/backtest_driver.py:106-116 -/
def wonMarket (openPrice finalPrice : K) (side : Side) : Bool :=
  if openPrice ≤ 0 ∨ finalPrice ≤ 0 then false
  else
    let wentUp : Bool := openPrice ≤ finalPrice
    if side = .yesUp then wentUp else !wentUp

/-- SOURCE: engine/backtest_driver.py:119-123 -/
def resolvePnl (entryPrice stakeUsd : K) (won : Bool) : K :=
  if entryPrice ≤ 0 then -stakeUsd
  else
    let shares := stakeUsd / entryPrice
    if won then shares * 1 - stakeUsd else -stakeUsd

/-- The fill simulation after the draw: slippage on the mid of the chosen side, added to
its ask and capped at 0.99.
SOURCE: engine/backtest_driver.py:263-289 -/
def openPosition (cfg : FillConfig K) (ctx : TickContext K) (d : Decision P) :
    Option (BacktestPosition K P) :=
  let (mid, limit) :=
    if d.side = .yesUp then ((ctx.pmYesBid + ctx.pmYesAsk) / 2, ctx.pmYesAsk)
    else ((ctx.pmNoBid + ctx.pmNoAsk) / 2, ctx.pmNoAsk)
  let slip := mid * cfg.slippageBps / 10000
  let fillPrice := min (limit + slip) (99 / 100)
  if fillPrice ≤ 0 then none
  else some {
    side := d.side
    entryTs := ctx.ts
    entryPrice := fillPrice
    slippage := slip
    tInWindow := ctx.tInWindow
    impliedProbYes := ctx.impliedProbYes
    modelProbYes := ctx.modelProbYes
    edge := ctx.edge
    spreadBps := ctx.pmSpreadBps
    volRegime := volRegimeFrom ctx
    payload := d.payload }

/-- The loop from the strategy call on, with the tick already updated.
SOURCE: engine/backtest_driver.py:242-289 -/
def evaluate (cfg : BacktestConfig K S P G) (st : MarketState K S P G)
    (ctx : TickContext K) (recentTicks : List (TickContext K)) :
    MarketState K S P G × List (TickEvent K P) :=
  let (d, strategy) := cfg.strategy.shouldEnter st.strategy ctx recentTicks
  match d.action with
  | .skip =>
    ({ st with
        strategy := strategy
        decisionCounts := { st.decisionCounts with skip := st.decisionCounts.skip + 1 } },
      [.strategyCall ctx recentTicks d])
  | .enter =>
    let st := { st with
      strategy := strategy
      decisionCounts := { st.decisionCounts with enter := st.decisionCounts.enter + 1 }
      signalFirstSeen := st.signalFirstSeen.or (some ctx.tInWindow) }
    let (draw, rng) := cfg.random st.rng
    let st := { st with rng := rng }
    if cfg.fillCfg.fillProbability < draw then
      ({ st with decisionCounts :=
          { st.decisionCounts with fillMiss := st.decisionCounts.fillMiss + 1 } },
        [.strategyCall ctx recentTicks d, .fillDraw draw])
    else
      match openPosition cfg.fillCfg ctx d with
      | none => (st, [.strategyCall ctx recentTicks d, .fillDraw draw])
      | some p =>
        ({ st with position := some p },
          [.strategyCall ctx recentTicks d, .fillDraw draw, .entry p])

/-- The loop state once the tick is counted, its indicators are in and it is part of the
history.
SOURCE: engine/backtest_driver.py:216-229 -/
def MarketState.observe (st : MarketState K S P G) (ctx : TickContext K)
    (indicators : IndicatorStack K) : MarketState K S P G :=
  { st with
    nTicks := st.nTicks + 1
    indicators := indicators
    recentCtxs := st.recentCtxs ++ [ctx] }

section Observe

variable (st : MarketState K S P G) (ctx : TickContext K) (ind : IndicatorStack K)

omit [Field K] [LinearOrder K] [FloorRing K]

/-- Observing leaves the position alone. -/
@[simp] theorem MarketState.observe_position :
    (st.observe ctx ind).position = st.position := rfl

/-- Observing leaves the first signal alone. -/
@[simp] theorem MarketState.observe_signalFirstSeen :
    (st.observe ctx ind).signalFirstSeen = st.signalFirstSeen := rfl

/-- Observing leaves the risk manager alone. -/
@[simp] theorem MarketState.observe_risk : (st.observe ctx ind).risk = st.risk := rfl

end Observe

/-- The tick may be evaluated for an entry by its time in the window.
SOURCE: engine/backtest_driver.py:234-237 -/
def EntryWindowConfig.Contains (w : EntryWindowConfig) (ctx : TickContext K) : Prop :=
  (w.earliestEntryTS : K) ≤ ctx.tInWindow ∧ ctx.tInWindow ≤ (w.latestEntryTS : K)

instance (w : EntryWindowConfig) (ctx : TickContext K) : Decidable (w.Contains ctx) :=
  inferInstanceAs (Decidable (_ ∧ _))

/-- The body of the tick loop.
SOURCE: engine/backtest_driver.py:215-289 -/
def tickStep (cfg : BacktestConfig K S P G) (st : MarketState K S P G)
    (tick : TickContext K) : MarketState K S P G × List (TickEvent K P) :=
  let (ctx, indicators) := st.indicators.update cfg.lib tick
  let recentTicks := st.recentCtxs
  let st := st.observe ctx indicators
  if st.position.isSome then (st, [.indicatorUpdate ctx])
  else if ¬cfg.entryWindow.Contains ctx then (st, [.indicatorUpdate ctx])
  else if cfg.bypassRisk then
    let (st, events) := evaluate cfg st ctx recentTicks
    (st, .indicatorUpdate ctx :: events)
  else
    match canEnter cfg.riskCfg st.risk ctx with
    | (some reason, risk) =>
      ({ st with
          risk := risk
          decisionCounts :=
            { st.decisionCounts with riskSkip := st.decisionCounts.riskSkip + 1 } },
        [.indicatorUpdate ctx, .riskDecision (some reason)])
    | (none, risk) =>
      let (st, events) := evaluate cfg { st with risk := risk } ctx recentTicks
      (st, .indicatorUpdate ctx :: .riskDecision none :: events)

/-- The tick loop of one market as a machine: its labels are the ticks. -/
def marketLoop (cfg : BacktestConfig K S P G) :
    Machine (MarketState K S P G) (TickContext K) (TickEvent K P) :=
  ⟨tickStep cfg⟩

/-- The market-opening reference price: the first non-zero `open_price` of the ticks, or
else the first spot price.
SOURCE: engine/backtest_driver.py:177-183 -/
def openPriceMarket (first : TickContext K) (ticks : List (TickContext K)) : K :=
  match ticks.find? fun t => t.openPrice ≠ 0 with
  | some t => t.openPrice
  | none => first.spotPrice

/-- The settle price of a market, or `none` when the loader's settle dict misses it and the
market is skipped.
SOURCE: engine/backtest_driver.py:185-202 -/
def settlePriceFor (settlePrices : Option (String → Option K)) (slug : String)
    (last : TickContext K) : Option K :=
  match settlePrices with
  | some prices => prices slug
  | none => some (finalPriceOf last)

/-- SOURCE: engine/backtest_driver.py:25-47 -/
structure BacktestTrade (K P : Type) where
  tradeIdx : ℕ
  marketSlug : String
  side : Side
  entryTs : K
  entryPrice : K
  stakeUsd : K
  exitTs : K
  exitPrice : K
  resolution : Resolution
  pnlUsd : K
  slippage : K
  fee : K
  entryTInWindow : K
  signalFirstSeenTInWindow : K
  impliedProbYesAtEntry : K
  modelProbYesAtEntry : K
  edgeAtEntry : K
  pmSpreadBpsAtEntry : K
  volRegimeAtEntry : VolRegime
  payload : P

/-- The fields of a trade that its entry fills in: the position and the time the signal was
first seen. -/
def BacktestTrade.entryRecord {K P : Type} (t : BacktestTrade K P) :
    BacktestPosition K P × K :=
  ({ side := t.side
     entryTs := t.entryTs
     entryPrice := t.entryPrice
     slippage := t.slippage
     tInWindow := t.entryTInWindow
     impliedProbYes := t.impliedProbYesAtEntry
     modelProbYes := t.modelProbYesAtEntry
     edge := t.edgeAtEntry
     spreadBps := t.pmSpreadBpsAtEntry
     volRegime := t.volRegimeAtEntry
     payload := t.payload },
    t.signalFirstSeenTInWindow)

/-- What the markets of a run share. -/
structure RunState (K S P G : Type) where
  strategy : S
  risk : RiskState K
  rng : G
  decisionCounts : DecisionCounts
  trades : List (BacktestTrade K P)
  tradeIdx : ℕ
  nTicks : ℕ
  nMarkets : ℕ

/-- The loop variables at the first tick of a market.
SOURCE: engine/backtest_driver.py:204-213 -/
def MarketState.start (cfg : BacktestConfig K S P G) (run : RunState K S P G) :
    MarketState K S P G where
  indicators := IndicatorStack.init cfg.indicatorCfg
  recentCtxs := []
  position := none
  signalFirstSeen := none
  strategy := run.strategy
  risk := run.risk
  rng := run.rng
  decisionCounts := run.decisionCounts
  nTicks := run.nTicks

/-- `signal_first_seen or position["t_in_window"]`. -/
def signalFirstSeenOf (seen : Option K) (p : BacktestPosition K P) : K :=
  match seen with
  | some t => if t ≠ 0 then t else p.tInWindow
  | none => p.tInWindow

/-- The trade a market's position becomes.
SOURCE: engine/backtest_driver.py:292-323 -/
def closeTrade (cfg : BacktestConfig K S P G) (tradeIdx : ℕ) (slug : String)
    (openPrice finalPrice closeTs : K) (signalFirstSeen : Option K)
    (p : BacktestPosition K P) : BacktestTrade K P :=
  let won := wonMarket openPrice finalPrice p.side
  let grossPnl := resolvePnl p.entryPrice cfg.stakeUsd won
  let feeCharged :=
    if cfg.fillCfg.applyFeeInBacktest ∧ 0 < p.entryPrice then
      cfg.fillCfg.feeK * p.entryPrice * (1 - p.entryPrice) * cfg.stakeUsd
    else 0
  { tradeIdx := tradeIdx
    marketSlug := slug
    side := p.side
    entryTs := p.entryTs
    entryPrice := p.entryPrice
    stakeUsd := cfg.stakeUsd
    exitTs := closeTs
    exitPrice := if won then 1 else 0
    resolution := if won then .win else .loss
    pnlUsd := grossPnl - feeCharged
    slippage := p.slippage
    fee := feeCharged
    entryTInWindow := p.tInWindow
    signalFirstSeenTInWindow := signalFirstSeenOf signalFirstSeen p
    impliedProbYesAtEntry := p.impliedProbYes
    modelProbYesAtEntry := p.modelProbYes
    edgeAtEntry := p.edge
    pmSpreadBpsAtEntry := p.spreadBps
    volRegimeAtEntry := p.volRegime
    payload := p.payload }

/-- The code after the tick loop: book the trade and tell the risk manager.
SOURCE: engine/backtest_driver.py:291-327 -/
def closeMarket (cfg : BacktestConfig K S P G) (run : RunState K S P G) (slug : String)
    (openPrice finalPrice closeTs : K) (st : MarketState K S P G) : RunState K S P G :=
  let run := { run with
    strategy := st.strategy
    risk := st.risk
    rng := st.rng
    decisionCounts := st.decisionCounts
    nTicks := st.nTicks }
  match st.position with
  | none => run
  | some p =>
    let trade := closeTrade cfg run.tradeIdx slug openPrice finalPrice closeTs
      st.signalFirstSeen p
    { run with
      trades := run.trades ++ [trade]
      tradeIdx := run.tradeIdx + 1
      risk := if cfg.bypassRisk then run.risk
        else onTradeClosed cfg.riskCfg run.risk trade.pnlUsd closeTs }

/-- One iteration of the loop over the markets, with what its tick loop did.
SOURCE: engine/backtest_driver.py:168-332 -/
def replayMarket (cfg : BacktestConfig K S P G) (settlePrices : Option (String → Option K))
    (run : RunState K S P G) (slug : String) (ticks : List (TickContext K)) :
    RunState K S P G × List (List (TickEvent K P)) :=
  match ticks with
  | [] => (run, [])
  | first :: rest =>
    let last := rest.getLast?.getD first
    let run := { run with nMarkets := run.nMarkets + 1 }
    let closeTs := if first.windowCloseTs ≠ 0 then first.windowCloseTs else last.ts
    match settlePriceFor settlePrices slug last with
    | none => (run, [])
    | some finalPrice =>
      let start := MarketState.start cfg run
      (closeMarket cfg run slug (openPriceMarket first (first :: rest)) finalPrice closeTs
          ((marketLoop cfg).final start (first :: rest)),
        (marketLoop cfg).emissions start (first :: rest))

/-- The run over all markets of the loader.
SOURCE: engine/backtest_driver.py:126-346 -/
def runBacktest (cfg : BacktestConfig K S P G) (settlePrices : Option (String → Option K))
    (strategy : S) (risk : RiskState K) (rng : G)
    (markets : List (String × List (TickContext K))) : RunState K S P G :=
  markets.foldl (fun run m => (replayMarket cfg settlePrices run m.1 m.2).1)
    { strategy := strategy
      risk := risk
      rng := rng
      decisionCounts := ⟨0, 0, 0, 0⟩
      trades := []
      tradeIdx := 0
      nTicks := 0
      nMarkets := 0 }

end TradingEdge.Program
