import TradingEdge.Library.CursorWalk
import TradingEdge.Program.CandleIngest

/-!
# The candle backfills

`backfill_ohlcv` of the Binance, Bybit, Coinbase and OKX adapters: a range of time is fetched page
by page and inserted into `market_data.crypto_ohlcv`.  Three walk forwards by spans of time, OKX
walks backwards from the end.  An endpoint is a function of the parameters that are sent; datetimes
are microseconds.
-/

set_option autoImplicit false

namespace TradingEdge.Program

open TradingEdge.Library

variable {K : Type}

/-! ## The loop -/

/-- A backfill as its arguments set it up: the page of a cursor, what the adapter takes from it,
the statement that inserts, and the cursor it starts with, unless the loop is not entered. -/
structure BackfillLoop (K : Type) where
  fetch : ℤ → List (RestCandle K)
  receive : ℤ → List (RestCandle K) → Reception K
  insert : Table (OhlcvRow.key (K := K)) → List (OhlcvRow K) → Table (OhlcvRow.key (K := K))
  start : Option ℤ

/-- What a page leaves to insert. -/
def BackfillLoop.rows (b : BackfillLoop K) (cursor : ℤ) : List (OhlcvRow K) :=
  (b.receive cursor (b.fetch cursor)).rows

/-- The cursor after a page. -/
def BackfillLoop.next (b : BackfillLoop K) (cursor : ℤ) : Option ℤ :=
  (b.receive cursor (b.fetch cursor)).next

/-- A page is inserted and counted in the total. -/
def BackfillLoop.deposit (b : BackfillLoop K) (s : Table (OhlcvRow.key (K := K)) × ℕ)
    (rows : List (OhlcvRow K)) : Table (OhlcvRow.key (K := K)) × ℕ :=
  (b.insert s.1 rows, s.2 + rows.length)

/-- The body of the loop. -/
def BackfillLoop.body (b : BackfillLoop K) :
    Option ℤ × Table (OhlcvRow.key (K := K)) × ℕ →
      Option (Option ℤ × Table (OhlcvRow.key (K := K)) × ℕ) :=
  walkStep b.next b.rows b.deposit

/-- `int(ts.timestamp() * 1000)`, as it comes out for the instants from 2005 to 2037: there the product
of the doubles rounds to the whole millisecond where the instant is one. -/
def timestampMs (ts : ℤ) : ℤ := ts.tdiv 1000

/-- `int(ts.timestamp())`. -/
def timestampS (ts : ℤ) : ℤ := ts.tdiv 1000000

/-- `str.upper`. -/
def upperCase (s : String) : String := String.ofList (s.toList.map Char.toUpper)

/-- The row of a candle, whose time counts `unit` microseconds. -/
def ohlcvRow (exchange symbol interval : String) (unit : ℤ) (c : RestCandle K) : OhlcvRow K :=
  ⟨exchange, upperCase symbol, interval, c.ts * unit, c.open_, c.high, c.low, c.close, c.volume⟩

/-- The symbol in upper case, with a hyphen in front of the first of the quote currencies that it
ends with.
SOURCE: ingest/okx/adapter.py:49-58, ingest/coinbase/adapter.py:58-67 -/
def hyphenated (quotes : List String) (symbol : String) : String :=
  let s := (upperCase symbol).toList
  if '-' ∈ s then String.ofList s
  else
    match quotes.find? fun q => q.toList <:+ s with
    | none => String.ofList s
    | some q => String.ofList (s.take (s.length - q.toList.length) ++ '-' :: q.toList)

/-! ## The adapters that walk forwards -/

/-- One page of a backfill by spans of time.  Times, the interval and the width of a span are in
the unit of the venue.  After an empty page the cursor steps behind the span, otherwise behind the
last candle.
SOURCE: ingest/binance/adapter.py:101-139, ingest/bybit/adapter.py:109-144,
ingest/coinbase/adapter.py:142-177 -/
def spanBackfillPage (row : RestCandle K → OhlcvRow K) (step width stop cursor : ℤ)
    (raw : List (RestCandle K)) : Reception K :=
  let pageEnd := min (cursor + width) stop
  match raw.getLast? with
  | none => ⟨[], [], whileBefore (pageEnd + 1) stop⟩
  | some last => ⟨raw.map row, raw.map row, whileBefore (last.ts + step) stop⟩

/-- The Binance page is one of them.
SOURCE: ingest/binance/adapter.py:91-140 -/
theorem binanceBackfillPage_eq (symbol interval : String) (stop cursor : ℤ)
    (raw : List (RestCandle K)) :
    binanceBackfillPage symbol interval stop cursor raw =
      spanBackfillPage (ohlcvRow "binance" symbol interval 1000)
        ((binanceIntervalMs.lookup interval).getD 0)
        ((binanceIntervalMs.lookup interval).getD 0 * 1000) stop cursor raw := rfl

/-- `klines` answers to symbol, interval, start, end and limit.
SOURCE: ingest/binance/adapter.py:67-140 -/
def binanceBackfill (klines : String → String → ℤ → ℤ → ℕ → List (RestCandle K))
    (symbol interval : String) (fromTs toTs : ℤ) : Except String (BackfillLoop K) :=
  match binanceIntervalMs.lookup interval with
  | none => .error ("unknown interval: " ++ interval)
  | some intervalMs =>
    let endMs := timestampMs toTs
    .ok {
      fetch := fun cursor =>
        klines (upperCase symbol) interval cursor (min (cursor + intervalMs * 1000) endMs) 1000
      receive := binanceBackfillPage symbol interval endMs
      insert := bulkUpsertViaCopy
      start := whileBefore (timestampMs fromTs) endMs }

/-- SOURCE: ingest/bybit/adapter.py:27-33 -/
def intervalToBybit : List (String × String) :=
  [("1m", "1"), ("5m", "5"), ("15m", "15"), ("1h", "60"), ("1d", "D")]

/-- SOURCE: ingest/bybit/adapter.py:34 -/
def bybitIntervalMs : List (String × ℤ) :=
  [("1m", 60000), ("5m", 300000), ("15m", 900000), ("1h", 3600000), ("1d", 86400000)]

/-- SOURCE: ingest/bybit/adapter.py:104-144 -/
def bybitBackfillPage (symbol interval : String) (stop cursor : ℤ) (raw : List (RestCandle K)) :
    Reception K :=
  let intervalMs := (bybitIntervalMs.lookup interval).getD 0
  spanBackfillPage (ohlcvRow "bybit" symbol interval 1000) intervalMs (intervalMs * 1000) stop
    cursor raw

/-- `kline` answers to symbol, interval, start, end and limit, the newest candle first.
SOURCE: ingest/bybit/adapter.py:68-145 -/
def bybitBackfill (kline : String → String → ℤ → ℤ → ℕ → List (RestCandle K))
    (symbol interval : String) (fromTs toTs : ℤ) : Except String (BackfillLoop K) :=
  match intervalToBybit.lookup interval with
  | none => .error ("unknown interval: " ++ interval)
  | some minutes =>
    let intervalMs := (bybitIntervalMs.lookup interval).getD 0
    let endMs := timestampMs toTs
    .ok {
      fetch := fun cursor =>
        (kline (upperCase symbol) minutes cursor (min (cursor + intervalMs * 1000) endMs)
          1000).reverse
      receive := bybitBackfillPage symbol interval endMs
      insert := upsertMany
      start := whileBefore (timestampMs fromTs) endMs }

/-- SOURCE: ingest/coinbase/adapter.py:48-54 -/
def intervalToGranularity : List (String × ℤ) :=
  [("1m", 60), ("5m", 300), ("15m", 900), ("1h", 3600), ("1d", 86400)]

/-- SOURCE: ingest/coinbase/adapter.py:58-67 -/
def toProductId (symbol : String) : String := hyphenated ["USD", "USDT"] symbol

/-- SOURCE: ingest/coinbase/adapter.py:138-177 -/
def coinbaseBackfillPage (symbol interval : String) (stop cursor : ℤ)
    (raw : List (RestCandle K)) : Reception K :=
  let granularity := (intervalToGranularity.lookup interval).getD 0
  spanBackfillPage (ohlcvRow "coinbase" symbol interval 1000000) granularity (290 * granularity)
    stop cursor raw

/-- `candles` answers to product, granularity, start and end, the newest candle first.
SOURCE: ingest/coinbase/adapter.py:103-178 -/
def coinbaseBackfill (candles : String → ℤ → ℤ → ℤ → List (RestCandle K))
    (symbol interval : String) (fromTs toTs : ℤ) : Except String (BackfillLoop K) :=
  match intervalToGranularity.lookup interval with
  | none => .error ("unknown interval: " ++ interval)
  | some granularity =>
    let endS := timestampS toTs
    .ok {
      fetch := fun cursor =>
        (candles (toProductId symbol) granularity cursor
          (min (cursor + 290 * granularity) endS)).reverse
      receive := coinbaseBackfillPage symbol interval endS
      insert := upsertMany
      start := whileBefore (timestampS fromTs) endS }

/-! ## The OKX adapter -/

/-- SOURCE: ingest/okx/adapter.py:39-45 -/
def intervalToBar : List (String × String) :=
  [("1m", "1m"), ("5m", "5m"), ("15m", "15m"), ("1h", "1H"), ("1d", "1D")]

/-- SOURCE: ingest/okx/adapter.py:46 -/
def okxIntervalS : List (String × ℤ) :=
  [("1m", 60), ("5m", 300), ("15m", 900), ("1h", 3600), ("1d", 86400)]

/-- SOURCE: ingest/okx/adapter.py:49-58 -/
def toOkxInstId (symbol : String) : String := hyphenated ["USDT", "USD"] symbol

/-- The head of a loop that walks backwards. -/
def whileAfter (cursor stop : ℤ) : Option ℤ := if stop < cursor then some cursor else none

/-- A page of at most 300 candles, oldest first.  The cursor goes out as `after`, unless it is
zero.
SOURCE: ingest/okx/adapter.py:92-122 -/
def okxCandlesPage (historyCandles : String → String → Option ℤ → ℕ → List (RestCandle K))
    (instId bar : String) (beforeMs : ℤ) : List (RestCandle K) :=
  (historyCandles instId bar (if beforeMs = 0 then none else some beforeMs) 300).reverse

/-- One page of the backfill.  The loop is left on an empty page and where the oldest candle is
not older than the cursor; otherwise the cursor steps one interval behind it.
SOURCE: ingest/okx/adapter.py:136-180 -/
def okxBackfillPage (symbol interval : String) (fromMs cursor : ℤ) (raw : List (RestCandle K)) :
    Reception K :=
  let stepMs := (okxIntervalS.lookup interval).getD 0 * 1000
  let rows := (raw.filter fun c => fromMs ≤ c.ts).map (ohlcvRow "okx" symbol interval 1000)
  match raw.head? with
  | none => ⟨[], [], none⟩
  | some oldest =>
    ⟨rows, rows, if cursor ≤ oldest.ts then none else whileAfter (oldest.ts - stepMs) fromMs⟩

/-- `historyCandles` answers to instrument, bar, `after` and limit, the newest candle first.
SOURCE: ingest/okx/adapter.py:124-181 -/
def okxBackfill (historyCandles : String → String → Option ℤ → ℕ → List (RestCandle K))
    (symbol interval : String) (fromTs toTs : ℤ) : Except String (BackfillLoop K) :=
  match intervalToBar.lookup interval with
  | none => .error ("unknown interval: " ++ interval)
  | some bar =>
    let fromMs := timestampMs fromTs
    .ok {
      fetch := okxCandlesPage historyCandles (toOkxInstId symbol) bar
      receive := okxBackfillPage symbol interval fromMs
      insert := upsertMany
      start := whileAfter (timestampMs toTs) fromMs }

end TradingEdge.Program
