import TradingEdge.Program.BacktestDriver
import TradingEdge.Program.BacktestLoader
import TradingEdge.Program.PaperDriver

/-!
# Two readings of one candle table

A candle stores the price at the start of its minute as `open_` and the price a minute
later as `close`.  The backtest loader takes the strike of a market from the open of the
candle at `C - 300`, the paper driver from the close of the same candle, so the driver's
open price is the price one minute into the window.  Both settle at the close of the
candle at `C`, the price one minute after the window.
-/

set_option autoImplicit false

namespace TradingEdge.Analysis

open TradingEdge.Model TradingEdge.Program

variable {K : Type} [Field K] [LinearOrder K]

/-- The candles record the price path: open at the minute, close a minute later. -/
def CandlesRecord (path : K → K) (candles : List (CandleRow K)) : Prop :=
  ∀ r ∈ candles, r.IsBinanceBtc1m → r.open_ = path r.ts ∧ r.close = path (r.ts + 60)

/-- The candle of a minute is there. -/
def HasCandle (candles : List (CandleRow K)) (minute : K) : Prop :=
  ∃ r ∈ candles, r.IsBinanceBtc1m ∧ r.ts = minute

/-- A recorded minute is found, and its candle holds the prices of the path. -/
theorem candleAt_of_record (path : K → K) (candles : List (CandleRow K)) (minute : K)
    (hrec : CandlesRecord path candles) (hhas : HasCandle candles minute) :
    ∃ r, candleAt candles minute = some r ∧ r.open_ = path minute ∧
      r.close = path (minute + 60) := by
  obtain ⟨r', hr', hbtc', hts'⟩ := hhas
  have hsome : (candleAt candles minute).isSome := by
    rw [candleAt, List.find?_isSome]
    exact ⟨r', hr', by simp [hbtc', hts']⟩
  obtain ⟨r, hr⟩ := Option.isSome_iff_exists.mp hsome
  have hmem := List.mem_of_find?_eq_some hr
  have hp := List.find?_some hr
  simp only [decide_eq_true_eq] at hp
  obtain ⟨hopen, hclose⟩ := hrec r hmem hp.1
  rw [hp.2] at hopen hclose
  exact ⟨r, hr, hopen, hclose⟩

variable [FloorRing K]

/-- The open and settle price of the driver's candle fallback.
SOURCE: paper/driver.py:511-562, 651-669 -/
def paperAnchors (tables : PriceTables K) (closeTs : K) : Option (K × K) :=
  match (ohlcvCloseAt (some tables) (closeTs - 300)).1,
    (ohlcvCloseAt (some tables) closeTs).1 with
  | some openPrice, some settle => some (openPrice, settle)
  | _, _ => none

/-- The strike and settle price the backtest uses for a market of the paper loader: the
reference price of its ticks, and the loader's settle price.
SOURCE: paper/backtest_loader.py:55-118, engine/backtest_driver.py:177-200 -/
def backtestAnchors (candles : List (CandleRow K)) (markets : List (MarketRow K))
    (slug : String) (rows : List (RecordedTick K)) : Option (K × K) :=
  match marketTicks candles rows, settlePrice candles markets slug with
  | first :: rest, some settle => some (openPriceMarket first (first :: rest), settle)
  | _, _ => none

/-- The outcome of the path over the window: at or above its start is up. -/
def pathOutcome (path : K → K) (closeTs : K) : Bool := path (closeTs - 300) ≤ path closeTs

/-- Both engines use the same two prices, and decide the outcome of the path from them. -/
def AnchorsAgree (path : K → K) (closeTs : K) (paper backtest : Option (K × K)) : Prop :=
  paper = backtest ∧
    paper.map (fun a => wentUp a.2 a.1) = some (pathOutcome path closeTs) ∧
    backtest.map (fun a => wonMarket a.1 a.2 .yesUp) = some (pathOutcome path closeTs)

/-- The market as the tables describe it: it closes at a multiple of 300, its candles are
there and record the path, its market row gives the close time, and it has a recorded
tick. -/
structure RecordedMarket (path : K → K) (tables : PriceTables K) (markets : List (MarketRow K))
    (slug : String) (rows : List (RecordedTick K)) (closeTs : K) : Prop where
  aligned : ∃ c : ℤ, closeTs = 300 * c
  positive : ∀ t, 0 < path t
  records : CandlesRecord path tables.candles
  openCandle : HasCandle tables.candles (closeTs - 300)
  closeCandle : HasCandle tables.candles closeTs
  marketRow : ∃ m ∈ markets, m.slug = slug
  closeTime : ∀ m ∈ markets, m.slug = slug → m.closeTime = some closeTs
  ticks : rows ≠ []
  ticksClose : ∀ r ∈ rows, r.windowCloseTs = closeTs

variable [IsStrictOrderedRing K]

section Readings

variable {path : K → K} {tables : PriceTables K} {markets : List (MarketRow K)}
  {slug : String} {rows : List (RecordedTick K)} {closeTs : K}

/-- A market's open and close lie on whole minutes. -/
theorem RecordedMarket.minuteOf_eq
    (h : RecordedMarket path tables markets slug rows closeTs) :
    minuteOf closeTs = closeTs ∧ minuteOf (closeTs - 300) = closeTs - 300 := by
  obtain ⟨c, rfl⟩ := h.aligned
  have hc : (300 * (c : K)) = ((5 * c : ℤ) : K) * 60 := by push_cast; ring
  have ho : (300 * (c : K)) - 300 = ((5 * c - 5 : ℤ) : K) * 60 := by push_cast; ring
  rw [ho, hc]
  exact ⟨minuteOf_of_whole _, minuteOf_of_whole _⟩

/-- The driver's open price is the path one minute into the window, its settle price the
path one minute after it. -/
theorem paperAnchors_eq (h : RecordedMarket path tables markets slug rows closeTs) :
    paperAnchors tables closeTs = some (path (closeTs - 240), path (closeTs + 60)) := by
  obtain ⟨hclose, hopen⟩ := h.minuteOf_eq
  obtain ⟨ro, hro, -, hro'⟩ :=
    candleAt_of_record path tables.candles _ h.records h.openCandle
  obtain ⟨rc, hrc, -, hrc'⟩ :=
    candleAt_of_record path tables.candles _ h.records h.closeCandle
  have hshift : closeTs - 300 + 60 = closeTs - 240 := by ring
  simp only [paperAnchors, ohlcvCloseAt, hclose, hopen, hro, hrc, Option.map_some, hro', hrc',
    hshift]

/-- The loader's settle price is the path one minute after the window. -/
theorem settlePrice_eq (h : RecordedMarket path tables markets slug rows closeTs) :
    settlePrice tables.candles markets slug = some (path (closeTs + 60)) := by
  obtain ⟨hclose, -⟩ := h.minuteOf_eq
  obtain ⟨rc, hrc, -, hrc'⟩ :=
    candleAt_of_record path tables.candles _ h.records h.closeCandle
  have hval : ∀ m ∈ markets, m.slug = slug →
      (m.closeTime.bind fun closeTime =>
        (candleAt tables.candles (minuteOf closeTime)).map (·.close)) =
        some (path (closeTs + 60)) := by
    intro m hm hslug
    rw [h.closeTime m hm hslug, Option.bind_some, hclose, hrc, Option.map_some, hrc']
  have hall : ∀ v ∈ (markets.filterMap fun m =>
      if m.slug = slug then
        m.closeTime.bind fun closeTime =>
          (candleAt tables.candles (minuteOf closeTime)).map (·.close)
      else none), v = path (closeTs + 60) := by
    intro v hv
    obtain ⟨m, hm, hmv⟩ := List.mem_filterMap.mp hv
    split at hmv
    · rename_i hslug
      rw [hval m hm hslug] at hmv
      exact (Option.some.inj hmv).symm
    · cases hmv
  obtain ⟨m, hm, hslug⟩ := h.marketRow
  have hne : (markets.filterMap fun m =>
      if m.slug = slug then
        m.closeTime.bind fun closeTime =>
          (candleAt tables.candles (minuteOf closeTime)).map (·.close)
      else none) ≠ [] :=
    List.ne_nil_of_mem (List.mem_filterMap.mpr
      ⟨m, hm, by rw [if_pos hslug]; exact hval m hm hslug⟩)
  rw [settlePrice, List.getLast?_eq_some_getLast hne]
  exact congrArg some (hall _ (List.getLast_mem hne))

/-- The backtest's strike is the path at the window's open. -/
theorem backtestAnchors_eq (h : RecordedMarket path tables markets slug rows closeTs) :
    backtestAnchors tables.candles markets slug rows =
      some (path (closeTs - 300), path (closeTs + 60)) := by
  obtain ⟨ro, hro, hro', -⟩ :=
    candleAt_of_record path tables.candles _ h.records h.openCandle
  obtain ⟨first, rest, rfl⟩ := List.exists_cons_of_ne_nil h.ticks
  have hstrike : ohlcvOpen tables.candles first.windowCloseTs =
      some (path (closeTs - 300)) := by
    rw [h.ticksClose first (by simp), ohlcvOpen, hro, Option.map_some, hro']
  have hopen := openPrice_of_mem_marketTicks tables.candles first rest _ hstrike
    (h.positive _) (rowToTick first (ohlcvOpen tables.candles first.windowCloseTs))
    (by simp [marketTicks])
  have hne := (h.positive (closeTs - 300)).ne'
  unfold backtestAnchors
  rw [settlePrice_eq h]
  simp only [marketTicks, List.map_cons, openPriceMarket, List.find?_cons, hopen, ne_eq, hne,
    not_false_eq_true, decide_true]

end Readings

/-- **The two anchors agree only by coincidence.** On candles that record a positive price
path, paper and backtest use the same prices and decide the outcome of the path over the
window exactly when the price after one minute is the price at the open, and the price a
minute after the close is off the strike and on the same side of it as the close.
SOURCE: paper/driver.py:511-562, 651-669, paper/backtest_loader.py:55-118 -/
theorem anchors_agree_iff (path : K → K) (tables : PriceTables K)
    (markets : List (MarketRow K)) (slug : String) (rows : List (RecordedTick K))
    (closeTs : K) (h : RecordedMarket path tables markets slug rows closeTs) :
    AnchorsAgree path closeTs (paperAnchors tables closeTs)
        (backtestAnchors tables.candles markets slug rows) ↔
      path (closeTs - 240) = path (closeTs - 300) ∧
        path (closeTs + 60) ≠ path (closeTs - 300) ∧
        (path (closeTs - 300) < path (closeTs + 60) ↔
          path (closeTs - 300) ≤ path closeTs) := by
  have hwon : wonMarket (path (closeTs - 300)) (path (closeTs + 60)) .yesUp =
      decide (path (closeTs - 300) ≤ path (closeTs + 60)) := by
    rw [wonMarket, if_neg fun hc =>
      hc.elim (h.positive _).not_ge (h.positive _).not_ge, if_pos rfl]
  rw [paperAnchors_eq h, backtestAnchors_eq h]
  simp only [AnchorsAgree, Option.some.injEq, Prod.mk.injEq, and_true, Option.map_some, hwon,
    wentUp, pathOutcome, decide_eq_decide]
  constructor
  · rintro ⟨heq, hup, hdown⟩
    rw [heq] at hup
    refine ⟨heq, fun hne => ?_, hup⟩
    exact lt_irrefl _ (hne ▸ (hup.trans hdown.symm).mpr hne.ge)
  · rintro ⟨heq, hne, hup⟩
    rw [heq]
    refine ⟨rfl, hup, ?_⟩
    rw [← hup]
    exact ⟨fun hle => lt_of_le_of_ne hle (Ne.symm hne), le_of_lt⟩

section Instance

/-- A price of 100 that falls to 90 in the first minute and then stays at 95. -/
def dippingPath (t : ℚ) : ℚ := if t < 30 then 100 else if t < 120 then 90 else 95

/-- A price of 100 that rises to 101 late in the window. -/
def risingPath (t : ℚ) : ℚ := if t < 200 then 100 else 101

/-- The candles of the market that closes at 300, recording a path. -/
def candlesOf (path : ℚ → ℚ) : PriceTables ℚ where
  paperTicks := []
  candles := [⟨"binance", "BTCUSDT", "1m", 0, path 0, path 60⟩,
    ⟨"binance", "BTCUSDT", "1m", 300, path 300, path 360⟩]

/-- A recorded tick of that market. -/
def recordedTick : RecordedTick ℚ where
  ts := 10
  marketSlug := "btc-updown-5m-300"
  tInWindow := 10
  windowCloseTs := 300
  spotPrice := some 100
  chainlinkPrice := none
  openPrice := some 100
  pmYesBid := none
  pmYesAsk := none
  pmNoBid := none
  pmNoAsk := none
  pmDepthYes := none
  pmDepthNo := none
  pmImbalance := none
  pmSpreadBps := none
  impliedProbYes := none

/-- The tables of the market on any positive path. -/
theorem recordedMarket_candlesOf (path : ℚ → ℚ) (hpos : ∀ t, 0 < path t) :
    RecordedMarket path (candlesOf path) [⟨"btc-updown-5m-300", "0x1", some 300⟩]
      "btc-updown-5m-300" [recordedTick] 300 where
  aligned := ⟨1, by norm_num⟩
  positive := hpos
  records := by
    intro r hr _
    simp only [candlesOf, List.mem_cons, List.not_mem_nil, or_false] at hr
    rcases hr with rfl | rfl <;> norm_num
  openCandle := ⟨_, List.mem_cons_self, ⟨rfl, rfl, rfl⟩, by norm_num⟩
  closeCandle := ⟨_, List.mem_cons_of_mem _ List.mem_cons_self, ⟨rfl, rfl, rfl⟩, rfl⟩
  marketRow := ⟨_, List.mem_cons_self, rfl⟩
  closeTime := by simp
  ticks := by simp
  ticksClose := by simp [recordedTick]

/-- On the dipping path the driver takes 90 as the open, the backtest 100, and the driver
resolves UP a market that closes below its open.
SOURCE: paper/driver.py:544, paper/backtest_loader.py:74-82 -/
theorem anchors_part_on_dip :
    RecordedMarket dippingPath (candlesOf dippingPath)
        [⟨"btc-updown-5m-300", "0x1", some 300⟩] "btc-updown-5m-300" [recordedTick] 300 ∧
      paperAnchors (candlesOf dippingPath) 300 = some (90, 95) ∧
      backtestAnchors (candlesOf dippingPath).candles
        [⟨"btc-updown-5m-300", "0x1", some 300⟩] "btc-updown-5m-300" [recordedTick] =
          some (100, 95) ∧
      ¬AnchorsAgree dippingPath 300 (paperAnchors (candlesOf dippingPath) 300)
        (backtestAnchors (candlesOf dippingPath).candles
          [⟨"btc-updown-5m-300", "0x1", some 300⟩] "btc-updown-5m-300" [recordedTick]) := by
  have hpos : ∀ t, 0 < dippingPath t := by
    intro t
    unfold dippingPath
    split_ifs <;> norm_num
  have hmarket := recordedMarket_candlesOf dippingPath hpos
  have hpaper : paperAnchors (candlesOf dippingPath) 300 = some (90, 95) := by
    rw [paperAnchors_eq hmarket]
    norm_num [dippingPath]
  have hback : backtestAnchors (candlesOf dippingPath).candles
      [⟨"btc-updown-5m-300", "0x1", some 300⟩] "btc-updown-5m-300" [recordedTick] =
        some (100, 95) := by
    rw [backtestAnchors_eq hmarket]
    norm_num [dippingPath]
  refine ⟨hmarket, hpaper, hback, ?_⟩
  rw [hpaper, hback]
  rintro ⟨heq, -, -⟩
  norm_num at heq

/-- The comparison on the rising path, where the two sides agree. -/
theorem anchors_agree_risingPath :
    AnchorsAgree risingPath 300 (paperAnchors (candlesOf risingPath) 300)
      (backtestAnchors (candlesOf risingPath).candles
        [⟨"btc-updown-5m-300", "0x1", some 300⟩] "btc-updown-5m-300" [recordedTick]) := by
  have hpos : ∀ t, 0 < risingPath t := by
    intro t
    unfold risingPath
    split_ifs <;> norm_num
  exact (anchors_agree_iff risingPath (candlesOf risingPath)
    [⟨"btc-updown-5m-300", "0x1", some 300⟩] "btc-updown-5m-300" [recordedTick] 300
    (recordedMarket_candlesOf risingPath hpos)).mpr (by norm_num [risingPath])

end Instance

end TradingEdge.Analysis
