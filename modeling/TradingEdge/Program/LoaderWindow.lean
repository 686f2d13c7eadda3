import Mathlib.Algebra.Order.Round
import TradingEdge.Library.Grouping
import TradingEdge.Library.KeySort
import TradingEdge.Library.Table
import TradingEdge.Program.BacktestLoader
import TradingEdge.Program.FoldLoops

/-!
# The markets of a window of recorded ticks

`PaperTicksLoader.iter_markets` of `paper/backtest_loader.py`: one query for the ticks of a range,
one for the candles at which their windows open, and a grouping of the ticks by market.  The
database orders the ticks by time and those of one time as it likes; what it answers is an
argument here.  Beside it stands the design it replaced, a query for each market.
-/

set_option autoImplicit false

namespace TradingEdge.Program

open TradingEdge.Library TradingEdge.Model

variable {K : Type} [Field K] [LinearOrder K]

/-- A row of `paper_ticks`, whose `window_close_ts` is a `BIGINT NOT NULL`; a missing slug is the
empty one.
SOURCE: infra/postgres/init/05_paper_ticks_and_comparisons.sql:3-22 -/
structure StoredTick (K : Type) [IntCast K] extends RecordedTick K where
  closeTs : ℤ
  windowCloseTs_eq : windowCloseTs = closeTs

/-- One row for a slug and a time. -/
def tickKey (r : StoredTick K) : String × K := (r.marketSlug, r.ts)

omit [Field K] [LinearOrder K] in
/-- SOURCE: infra/postgres/init/03_market_data_tables.sql:15 -/
def candleKey (r : CandleRow K) : String × String × String × K :=
  (r.exchange, r.symbol, r.interval, r.ts)

/-! ## The queries -/

/-- `ts >= to_timestamp($1) AND ts <= to_timestamp($2)`. -/
def StoredTick.InRange (r : StoredTick K) (fromTs toTs : K) : Prop := fromTs ≤ r.ts ∧ r.ts ≤ toTs

instance (r : StoredTick K) (fromTs toTs : K) : Decidable (r.InRange fromTs toTs) :=
  inferInstanceAs (Decidable (_ ∧ _))

/-- The rows of the range, ordered by time.
SOURCE: paper/backtest_loader.py:160-173 -/
structure FetchesTicks (ticks : List (StoredTick K)) (fromTs toTs : K)
    (rows : List (StoredTick K)) : Prop where
  perm : rows.Perm (ticks.filter fun r => r.InRange fromTs toTs)
  ordered : rows.Pairwise fun r r' => r.ts ≤ r'.ts

/-- The candles at which the windows open, in any order.
SOURCE: paper/backtest_loader.py:74-80 -/
def FetchesCandles (candles : List (CandleRow K)) (closeTss : List ℤ)
    (candleRows : List (CandleRow K)) : Prop :=
  candleRows.Perm (candles.filter fun r =>
    r.IsBinanceBtc1m ∧ r.ts ∈ closeTss.map fun c => ((c - 300 : ℤ) : K))

/-! ## The loader -/

/-- `sorted({int(r["window_close_ts"]) for r in ticks_rows})`.
SOURCE: paper/backtest_loader.py:174 -/
def closeTss (rows : List (StoredTick K)) : List ℤ :=
  sortedBy id (rows.map fun r => r.closeTs).dedup

/-- `datetime.fromtimestamp(s, tz=UTC)` is a date of the calendar. -/
def OnCalendar (s : ℤ) : Prop := datetimeMin ≤ s * 1000000 ∧ s * 1000000 ≤ datetimeMax

instance (s : ℤ) : Decidable (OnCalendar s) := inferInstanceAs (Decidable (_ ∧ _))

/-- The opens of the windows by their closes, or `none` if one of the minutes is no date and
`datetime.fromtimestamp` raises.
SOURCE: paper/backtest_loader.py:55-81 -/
def bulkOhlcvOpens [FloorRing K] (candleRows : List (CandleRow K)) (closeTss : List ℤ) :
    Option (Dict ℤ K) :=
  if ∃ c ∈ closeTss, ¬OnCalendar (c - 300) then none
  else
    let byMinute := Dict.ofList (fun r => round r.ts) CandleRow.open_ candleRows
    let found := closeTss.filterMap fun c => (byMinute.get? (c - 300)).map fun p => (c, p)
    some (Dict.ofList Prod.fst Prod.snd found)

/-- A market as it is yielded, with the strike of the close of its first row.
SOURCE: paper/backtest_loader.py:152-155 -/
def yieldMarket (opens : Dict ℤ K) (slug : String) (rows : List (StoredTick K)) :
    String × List (TickContext K) :=
  match rows with
  | [] => (slug, [])
  | first :: _ => (slug, rows.map fun r => rowToTick r.toRecordedTick (opens.get? first.closeTs))

/-- The markets of the fetched rows, or `none` if an exception is raised.
SOURCE: paper/backtest_loader.py:130-155 -/
def iterMarkets [FloorRing K] (rows : List (StoredTick K)) (candleRows : List (CandleRow K)) :
    Option (List (String × List (TickContext K))) := do
  let opens ← bulkOhlcvOpens candleRows (closeTss rows)
  let bySlug := grouped (fun r => r.marketSlug) (rows.filter fun r => r.marketSlug ≠ "")
  return bySlug.entries.map fun e => yieldMarket opens e.1 e.2

/-! ## A query for each market -/

/-- The rows of a slug in the range, by time. -/
def slugRows (ticks : List (StoredTick K)) (fromTs toTs : K) (slug : String) :
    List (StoredTick K) :=
  sortedBy (fun r => r.ts) (ticks.filter fun r => r.InRange fromTs toTs ∧ r.marketSlug = slug)

/-- `MIN(ts)`, of the rows of a slug in the range. -/
def minTs (ticks : List (StoredTick K)) (fromTs toTs : K) (slug : String) : K :=
  match slugRows ticks fromTs toTs slug with
  | [] => 0
  | first :: _ => first.ts

/-- `GROUP BY slug ORDER BY MIN(ts) ASC`, without the rows that have no slug. -/
def slugsByMinTs (ticks : List (StoredTick K)) (fromTs toTs : K) : List String :=
  sortedBy (minTs ticks fromTs toTs)
    ((ticks.filter fun r => r.InRange fromTs toTs ∧ r.marketSlug ≠ "").map
      fun r => r.marketSlug).dedup

/-- The design that was replaced: the slugs by their first times, and for each of them its rows and
its strike.
SOURCE: paper/backtest_loader.py:131-144 -/
def perSlugMarkets (ticks : List (StoredTick K)) (candles : List (CandleRow K)) (fromTs toTs : K) :
    List (String × List (TickContext K)) :=
  (slugsByMinTs ticks fromTs toTs).map fun slug =>
    (slug, marketTicks candles ((slugRows ticks fromTs toTs slug).map fun r => r.toRecordedTick))

end TradingEdge.Program
