import TradingEdge.Program.PriceTables
import TradingEdge.Program.TickMessage

/-!
# The loader of recorded paper ticks

`PaperTicksLoader` of `paper/backtest_loader.py`: it replaces the recorded open price of
every tick by the open of the Binance candle of the window's first minute, and hands the
backtest the close of the candle of the market's close minute as its settle price.
-/

set_option autoImplicit false

namespace TradingEdge.Program

open TradingEdge.Model

variable {K : Type} [Field K] [LinearOrder K]

/-- The columns of `paper_ticks` that the loader selects.
SOURCE: paper/backtest_loader.py:164-176 -/
structure RecordedTick (K : Type) where
  ts : K
  marketSlug : String
  tInWindow : K
  windowCloseTs : K
  spotPrice : Option K
  chainlinkPrice : Option K
  openPrice : Option K
  pmYesBid : Option K
  pmYesAsk : Option K
  pmNoBid : Option K
  pmNoAsk : Option K
  pmDepthYes : Option K
  pmDepthNo : Option K
  pmImbalance : Option K
  pmSpreadBps : Option K
  impliedProbYes : Option K

/-- The strike of a market: the open of the candle 300 s before its close.
SOURCE: paper/backtest_loader.py:55-82 -/
def ohlcvOpen (candles : List (CandleRow K)) (windowCloseTs : K) : Option K :=
  (candleAt candles (windowCloseTs - 300)).map (·.open_)

/-- The settle price of a slug: the close of the candle of its close minute.  A later row
of the join overwrites an earlier one, as the dict comprehension does.
SOURCE: paper/backtest_loader.py:85-118, 185-216 -/
def settlePrice [FloorRing K] (candles : List (CandleRow K)) (markets : List (MarketRow K))
    (slug : String) : Option K :=
  (markets.filterMap fun m =>
    if m.slug = slug then
      m.closeTime.bind fun closeTime =>
        (candleAt candles (minuteOf closeTime)).map (·.close)
    else none).getLast?

/-- A recorded row as the tick the backtest replays.
SOURCE: paper/backtest_loader.py:219-257 -/
def rowToTick (r : RecordedTick K) (ohlcvOpen : Option K) : TickContext K :=
  let spot := orZero r.spotPrice
  let recorded :=
    (r.openPrice.filter (· ≠ 0)).or (r.spotPrice.filter (· ≠ 0))
  let openPrice :=
    match ohlcvOpen with
    | some p => if 0 < p then p else orZero recorded
    | none => orZero recorded
  { ts := r.ts
    marketSlug := r.marketSlug
    tInWindow := r.tInWindow
    windowCloseTs := r.windowCloseTs
    spotPrice := spot
    chainlinkPrice := r.chainlinkPrice.filter (· ≠ 0)
    openPrice := openPrice
    pmYesBid := orZero r.pmYesBid
    pmYesAsk := orZero r.pmYesAsk
    pmNoBid := orZero r.pmNoBid
    pmNoAsk := orZero r.pmNoAsk
    pmDepthYes := orZero r.pmDepthYes
    pmDepthNo := orZero r.pmDepthNo
    pmImbalance := orZero r.pmImbalance
    pmSpreadBps := orZero r.pmSpreadBps
    impliedProbYes := orZero r.impliedProbYes
    modelProbYes := 0
    edge := 0
    zScore := 0
    tToClose := max 0 (r.windowCloseTs - r.ts)
    emaFast := 0
    emaSlow := 0
    rsi14 := 50
    volRealized := 0
    volEwma := 0
    deltaBps := deltaBps spot openPrice }

/-- The ticks of one market: all its rows get the strike of the first row's close.
SOURCE: paper/backtest_loader.py:148-152 -/
def marketTicks (candles : List (CandleRow K)) (rows : List (RecordedTick K)) :
    List (TickContext K) :=
  match rows with
  | [] => []
  | first :: _ => rows.map fun r => rowToTick r (ohlcvOpen candles first.windowCloseTs)

/-- With a positive strike, every tick of the market carries it.
SOURCE: paper/backtest_loader.py:223-226 -/
theorem openPrice_of_mem_marketTicks (candles : List (CandleRow K))
    (first : RecordedTick K) (rest : List (RecordedTick K)) (strike : K)
    (hstrike : ohlcvOpen candles first.windowCloseTs = some strike) (hpos : 0 < strike)
    (t : TickContext K) (ht : t ∈ marketTicks candles (first :: rest)) :
    t.openPrice = strike := by
  simp only [marketTicks, List.mem_map] at ht
  obtain ⟨r, -, rfl⟩ := ht
  simp [rowToTick, hstrike, hpos]

end TradingEdge.Program
