import TradingEdge.Model.Types

/-!
# The price tables and the queries on them

The tables `market_data.paper_ticks`, `market_data.crypto_ohlcv` and
`market_data.polymarket_markets`, with the columns the settlement code reads, and the
three queries of the paper driver.  A query that the database answers with an exception
is the caller's business: here the tables are given.
-/

set_option autoImplicit false

namespace TradingEdge.Program

open TradingEdge.Model

/-- A row of `market_data.paper_ticks`.
SOURCE: infra/postgres/init/05_paper_ticks_and_comparisons.sql -/
structure PaperTickRow (K : Type) where
  conditionId : String
  ts : K
  spotPrice : Option K
  chainlinkPrice : Option K
  openPrice : Option K

/-- A row of `market_data.crypto_ohlcv`.
SOURCE: infra/postgres/init/03_market_data_tables.sql:5-16 -/
structure CandleRow (K : Type) where
  exchange : String
  symbol : String
  interval : String
  ts : K
  open_ : K
  close : K

/-- A row of `market_data.polymarket_markets`. -/
structure MarketRow (K : Type) where
  slug : String
  conditionId : String
  closeTime : Option K

/-- The tables a settlement reads. -/
structure PriceTables (K : Type) where
  paperTicks : List (PaperTickRow K)
  candles : List (CandleRow K)

/-- Where a settle or open price was read. -/
inductive PriceSource where
  | paperTickErr
  | noPaperTick
  | paperTickSpot
  | paperTickChainlink
  | noPriceInTick
  | ohlcv
  | firstTickErr
  | noFirstTick
  | paperTickFirstSpot
deriving DecidableEq, Repr

variable {K : Type} [Field K] [LinearOrder K]

/-- `exchange='binance' AND symbol='BTCUSDT' AND interval='1m'`. -/
def CandleRow.IsBinanceBtc1m (r : CandleRow K) : Prop :=
  r.exchange = "binance" ∧ r.symbol = "BTCUSDT" ∧ r.interval = "1m"

instance (r : CandleRow K) : Decidable r.IsBinanceBtc1m :=
  inferInstanceAs (Decidable (_ ∧ _ ∧ _))

/-- The Binance BTCUSDT one-minute candle of a minute. -/
def candleAt (candles : List (CandleRow K)) (minute : K) : Option (CandleRow K) :=
  candles.find? fun r => r.IsBinanceBtc1m ∧ r.ts = minute

/-- The paper ticks of a market from 305 s before to 5 s after its close.
SOURCE: paper/driver.py:589-602, 629-643 -/
def ticksOfWindow (ticks : List (PaperTickRow K)) (conditionId : String) (closeTs : K) :
    List (PaperTickRow K) :=
  ticks.filter fun r =>
    r.conditionId = conditionId ∧ closeTs - 305 ≤ r.ts ∧ r.ts ≤ closeTs + 5

/-- The price of the latest tick of a market's window: spot, or else Chainlink.  `none` for
the tables is a query that raised.
SOURCE: paper/driver.py:564-611 -/
def lastPaperTickPrice (tables : Option (PriceTables K)) (conditionId : String)
    (closeTs : K) : Option K × K × PriceSource :=
  match tables with
  | none => (none, closeTs, .paperTickErr)
  | some tables =>
    match (ticksOfWindow tables.paperTicks conditionId closeTs).argmax (fun r => r.ts) with
    | none => (none, closeTs, .noPaperTick)
    | some latest =>
      match latest.spotPrice, latest.chainlinkPrice with
      | some sp, _ => (some sp, latest.ts, .paperTickSpot)
      | none, some cl => (some cl, latest.ts, .paperTickChainlink)
      | none, none => (none, closeTs, .noPriceInTick)

/-- The row whose spot price stands for the window open: the earliest tick of the window
with a positive spot price. -/
def firstPricedTick (ticks : List (PaperTickRow K)) (conditionId : String)
    (windowCloseTs : K) : Option (PaperTickRow K) :=
  ((ticksOfWindow ticks conditionId windowCloseTs).filter fun r =>
    r.spotPrice.any fun sp => 0 < sp).argmin (fun r => r.ts)

/-- The spot price of the first tick of a market's window, after the check on
`window_close_ts`.
SOURCE: paper/driver.py:613-649 -/
def firstPaperTickSpot (tables : Option (PriceTables K)) (conditionId : String)
    (windowCloseTs : K) : Option K × PriceSource :=
  match tables with
  | none => (none, .firstTickErr)
  | some tables =>
    match firstPricedTick tables.paperTicks conditionId windowCloseTs with
    | none => (none, .noFirstTick)
    | some row =>
      match row.spotPrice with
      | none => (none, .noFirstTick)
      | some sp => (some sp, .paperTickFirstSpot)

/-- The start of the minute of a timestamp: `int(ts // 60 * 60)`. -/
def minuteOf [FloorRing K] (ts : K) : K := (⌊ts / 60⌋ : K) * 60

/-- The close of the Binance candle of the minute of `closeTs`.
SOURCE: paper/driver.py:651-669 -/
def ohlcvCloseAt [FloorRing K] (tables : Option (PriceTables K)) (closeTs : K) :
    Option K × K :=
  match tables with
  | none => (none, closeTs)
  | some tables => ((candleAt tables.candles (minuteOf closeTs)).map (·.close), closeTs)

/-- The minute of a timestamp that is a whole minute is that timestamp. -/
theorem minuteOf_of_whole [FloorRing K] [IsStrictOrderedRing K] (n : ℤ) :
    minuteOf ((n : K) * 60) = (n : K) * 60 := by
  unfold minuteOf
  rw [mul_div_assoc, div_self (by norm_num), mul_one, Int.floor_intCast]

/-- A row the first-tick query answers with lies in the window of the market and has a
positive spot price. -/
theorem firstPricedTick_spec (ticks : List (PaperTickRow K)) (conditionId : String)
    (windowCloseTs : K) (row : PaperTickRow K)
    (h : firstPricedTick ticks conditionId windowCloseTs = some row) :
    row ∈ ticks ∧ row.conditionId = conditionId ∧ windowCloseTs - 305 ≤ row.ts ∧
      row.ts ≤ windowCloseTs + 5 ∧ ∃ sp, row.spotPrice = some sp ∧ 0 < sp := by
  have hmem := List.argmin_mem h
  simp only [ticksOfWindow, List.mem_filter, decide_eq_true_eq, Option.any_eq_true]
    at hmem
  obtain ⟨⟨hrow, hcid, hlo, hhi⟩, sp, hsp, hpos⟩ := hmem
  exact ⟨hrow, hcid, hlo, hhi, sp, hsp, hpos⟩

/-- The first-tick query answers with the earliest priced tick of the window. -/
theorem firstPricedTick_le (ticks : List (PaperTickRow K)) (conditionId : String)
    (windowCloseTs : K) (row other : PaperTickRow K) (sp : K)
    (h : firstPricedTick ticks conditionId windowCloseTs = some row)
    (hmem : other ∈ ticks) (hcid : other.conditionId = conditionId)
    (hlo : windowCloseTs - 305 ≤ other.ts) (hhi : other.ts ≤ windowCloseTs + 5)
    (hsp : other.spotPrice = some sp) (hpos : 0 < sp) : row.ts ≤ other.ts := by
  refine List.le_of_mem_argmin (f := fun r : PaperTickRow K => r.ts) ?_ h
  simp only [ticksOfWindow, List.mem_filter, decide_eq_true_eq, Option.any_eq_true]
  exact ⟨⟨hmem, hcid, hlo, hhi⟩, sp, hsp, hpos⟩

end TradingEdge.Program
