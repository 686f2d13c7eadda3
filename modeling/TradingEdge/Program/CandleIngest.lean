import TradingEdge.Library.Interleave
import TradingEdge.Program.CommonDb

/-!
# The writers of the candle table

Four tasks fill `market_data.crypto_ohlcv` for the two venues: a backfill over REST pages and a
stream for Kraken, and the same for Binance.  All insert with `ON CONFLICT DO NOTHING`.  A task
waits for an answer or a message, then for its insert; in between the other tasks go on.

Times of candles are microseconds, as a `datetime` counts them.
-/

set_option autoImplicit false

namespace TradingEdge.Program

open TradingEdge.Model TradingEdge.Library

/-- A row of `market_data.crypto_ohlcv`.
SOURCE: infra/postgres/init/03_market_data_tables.sql:5-16 -/
structure OhlcvRow (K : Type) where
  exchange : String
  symbol : String
  interval : String
  ts : ℤ
  open_ : K
  high : K
  low : K
  close : K
  volume : K
deriving DecidableEq

/-- The primary key. -/
def OhlcvRow.key {K : Type} (r : OhlcvRow K) : String × String × String × ℤ :=
  (r.exchange, r.symbol, r.interval, r.ts)

/-! ## What the venues send -/

/-- A candle of a REST page: its time in the unit of the venue, and its values. -/
structure RestCandle (K : Type) where
  ts : ℤ
  open_ : K
  high : K
  low : K
  close : K
  volume : K

/-- An entry of Kraken's `ohlc` channel.  `interval` is in minutes and 0 if the entry has none;
`intervalBegin` is `none` where the text is not a time, a price where its key is missing.
SOURCE: ingest/kraken/adapter.py:263-292 -/
structure KrakenOhlc (K : Type) where
  symbol : String
  interval : ℤ
  intervalBegin : Option ℤ
  open_ : Option K
  high : Option K
  low : Option K
  close : Option K
  volume : Option K

/-- A message of the channel. -/
structure KrakenMessage (K : Type) where
  type : String
  data : List (KrakenOhlc K)

/-- The `k` of a Binance stream message; `t` is in milliseconds, `x` says that the candle is
closed. -/
structure Kline (K : Type) where
  t : ℤ
  i : String
  o : K
  h : K
  l : K
  c : K
  v : K
  x : Bool

/-! ## The Kraken adapter -/

/-- SOURCE: ingest/kraken/adapter.py:43-50 -/
def intervalToKrakenMin : List (String × ℤ) :=
  [("1m", 1), ("5m", 5), ("15m", 15), ("1h", 60), ("1d", 1440)]

/-- SOURCE: ingest/kraken/adapter.py:51 -/
def krakenIntervalS : List (String × ℤ) :=
  [("1m", 60), ("5m", 300), ("15m", 900), ("1h", 3600), ("1d", 86400)]

/-- `replace("ZUSD", "USD")`. -/
def replaceZusd : List Char → List Char
  | 'Z' :: 'U' :: 'S' :: 'D' :: rest => 'U' :: 'S' :: 'D' :: replaceZusd rest
  | c :: rest => c :: replaceZusd rest
  | [] => []

/-- SOURCE: ingest/kraken/adapter.py:62-73 -/
def fromKrakenPair (pair : String) : String :=
  let p := pair.toList.map Char.toUpper
  let p := if "XXBT".toList <+: p then p.drop 1 else p
  let p := if "XBT".toList <+: p then "BTC".toList ++ p.drop 3 else p
  String.ofList (replaceZusd p)

/-- The row of an entry: none where the loop goes on to the next entry, an error where the
handler raises.
SOURCE: ingest/kraken/adapter.py:263-293 -/
def krakenRow {K : Type} [Zero K] (d : KrakenOhlc K) : Except Unit (Option (OhlcvRow K)) :=
  match intervalToKrakenMin.find? fun e => e.2 = d.interval with
  | none => .ok none
  | some (interval, _) =>
    match d.intervalBegin, d.open_, d.high, d.low, d.close with
    | some ts, some o, some h, some l, some c =>
      .ok (some {
        exchange := "kraken"
        symbol := fromKrakenPair (String.ofList (d.symbol.toList.filter (· ≠ '/')))
        interval := interval
        ts := ts
        open_ := o
        high := h
        low := l
        close := c
        volume := d.volume.getD 0 })
    | _, _, _, _, _ => .error ()

/-- What a task takes from an answer or a message: the candles it observes in it, the rows it
goes on to insert, and the cursor it continues with, if it does. -/
structure Reception (K : Type) where
  observed : List (OhlcvRow K)
  rows : List (OhlcvRow K)
  next : Option ℤ

/-- The candle that an entry shows, if it can be read and is of an interval that is known. -/
def KrakenOhlc.candle {K : Type} [Zero K] (d : KrakenOhlc K) : Option (OhlcvRow K) :=
  (krakenRow d).toOption.join

/-- The handler of the `ohlc` channel.  One entry that raises loses the message.
SOURCE: ingest/kraken/adapter.py:259-300 -/
def handleOhlc {K : Type} [Zero K] (msg : KrakenMessage K) : Reception K where
  observed := msg.data.filterMap KrakenOhlc.candle
  rows :=
    if msg.type ≠ "update" then []
    else
      match msg.data.mapM krakenRow with
      | .ok rows => rows.filterMap id
      | .error _ => []
  next := some 0

/-- The head of a backfill loop. -/
def whileBefore (cursor stop : ℤ) : Option ℤ := if cursor < stop then some cursor else none

/-- SOURCE: ingest/kraken/adapter.py:149-159 -/
def krakenCandle {K : Type} (symbol interval : String) (c : RestCandle K) : OhlcvRow K :=
  ⟨"kraken", String.ofList (symbol.toList.map Char.toUpper), interval, c.ts * 1000000, c.open_,
    c.high, c.low, c.close, c.volume⟩

/-- One page of the Kraken backfill; `cursor` and `stop` are seconds.
SOURCE: ingest/kraken/adapter.py:131-192 -/
def krakenBackfillPage {K : Type} (symbol interval : String) (stop cursor : ℤ)
    (raw : List (RestCandle K)) : Reception K :=
  match raw.getLast? with
  | none => ⟨[], [], none⟩
  | some last =>
    { observed := raw.map (krakenCandle symbol interval)
      rows := (raw.filter fun c => cursor ≤ c.ts ∧ c.ts ≤ stop).map (krakenCandle symbol interval)
      next :=
        if last.ts ≤ cursor then none
        else whileBefore (last.ts + (krakenIntervalS.lookup interval).getD 0) stop }

/-! ## The Binance adapter -/

/-- SOURCE: ingest/binance/adapter.py:26-32 -/
def binanceIntervalMs : List (String × ℤ) :=
  [("1m", 60000), ("5m", 300000), ("15m", 900000), ("1h", 3600000), ("1d", 86400000)]

/-- SOURCE: ingest/binance/adapter.py:107-119 -/
def binanceCandle {K : Type} (symbol interval : String) (c : RestCandle K) : OhlcvRow K :=
  ⟨"binance", String.ofList (symbol.toList.map Char.toUpper), interval, c.ts * 1000, c.open_,
    c.high, c.low, c.close, c.volume⟩

/-- One page of the Binance backfill; `cursor` and `stop` are milliseconds.
SOURCE: ingest/binance/adapter.py:91-140 -/
def binanceBackfillPage {K : Type} (symbol interval : String) (stop cursor : ℤ)
    (raw : List (RestCandle K)) : Reception K :=
  let intervalMs := (binanceIntervalMs.lookup interval).getD 0
  let pageEnd := min (cursor + intervalMs * 1000) stop
  match raw.getLast? with
  | none => ⟨[], [], whileBefore (pageEnd + 1) stop⟩
  | some last =>
    ⟨raw.map (binanceCandle symbol interval), raw.map (binanceCandle symbol interval),
      whileBefore (last.ts + intervalMs) stop⟩

/-- SOURCE: ingest/binance/adapter.py:171-181 -/
def Kline.candle {K : Type} (symbol : String) (k : Kline K) : OhlcvRow K :=
  ⟨"binance", symbol, k.i, k.t * 1000, k.o, k.h, k.l, k.c, k.v⟩

/-- A message of the kline stream: only a closed candle is inserted.
SOURCE: ingest/binance/adapter.py:154-193 -/
def streamKline {K : Type} (symbol : String) (k : Option (Kline K)) : Reception K :=
  match k with
  | none => ⟨[], [], some 0⟩
  | some k => ⟨[k.candle symbol], if k.x then [k.candle symbol] else [], some 0⟩

/-! ## The tasks -/

/-- The tasks with their arguments. -/
inductive CandleWriter where
  | krakenBackfill (symbol interval : String) (fromTs stop : ℤ)
  | krakenStream
  | binanceBackfill (symbol interval : String) (fromTs stop : ℤ)
  | binanceStream

/-- What a task is resumed with. -/
inductive Resumption (K : Type) where
  | page (raw : List (RestCandle K))
  | ohlc (msg : KrakenMessage K)
  | kline (symbol : String) (k : Option (Kline K))
  | committed
  | raised

/-- A task waits for an answer or a message, waits for an insert, or has ended. -/
inductive WriterState (K : Type) where
  | waiting (cursor : ℤ)
  | inserting (rows : List (OhlcvRow K)) (next : Option ℤ)
  | ended

/-- The candles a task observes and the rows it has inserted. -/
inductive CandleEvent (K : Type) where
  | observed (rows : List (OhlcvRow K))
  | inserted (rows : List (OhlcvRow K))

namespace CandleWriter

variable {K : Type}

/-- A backfill of an interval it does not know raises before its loop.
SOURCE: ingest/kraken/adapter.py:134-140, ingest/binance/adapter.py:94-100 -/
def start : CandleWriter → WriterState K
  | .krakenBackfill _ interval fromTs stop =>
    if (intervalToKrakenMin.lookup interval).isNone then .ended
    else (whileBefore fromTs stop).elim .ended .waiting
  | .binanceBackfill _ interval fromTs stop =>
    if (binanceIntervalMs.lookup interval).isNone then .ended
    else (whileBefore fromTs stop).elim .ended .waiting
  | .krakenStream => .waiting 0
  | .binanceStream => .waiting 0

/-- An exception ends a backfill; a stream connects again.
SOURCE: ingest/kraken/adapter.py:252-257, ingest/binance/adapter.py:195-200 -/
def afterError : CandleWriter → WriterState K
  | .krakenBackfill _ _ _ _ => .ended
  | .binanceBackfill _ _ _ _ => .ended
  | .krakenStream => .waiting 0
  | .binanceStream => .waiting 0

/-- What the task takes from an answer or a message, or `none` where it cannot be one of its
own. -/
def receive [Zero K] (w : CandleWriter) (cursor : ℤ) (r : Resumption K) : Option (Reception K) :=
  match w, r with
  | .krakenBackfill symbol interval _ stop, .page raw =>
    some (krakenBackfillPage symbol interval stop cursor raw)
  | .binanceBackfill symbol interval _ stop, .page raw =>
    some (binanceBackfillPage symbol interval stop cursor raw)
  | .krakenStream, .ohlc msg => some (handleOhlc msg)
  | .binanceStream, .kline symbol k => some (streamKline symbol k)
  | _, _ => none

/-- One resumption of the task. -/
def machine [Zero K] (w : CandleWriter) : Machine (WriterState K) (Resumption K) (CandleEvent K) :=
  ⟨fun s r =>
    match s, r with
    | .waiting _, .raised => (w.afterError, [])
    | .waiting cursor, r =>
      match w.receive cursor r with
      | none => (s, [])
      | some got =>
        (if got.rows = [] then got.next.elim .ended .waiting else .inserting got.rows got.next,
          [.observed got.observed])
    | .inserting rows next, .committed => (next.elim .ended .waiting, [.inserted rows])
    | .inserting _ _, .raised => (w.afterError, [])
    | s, _ => (s, [])⟩

/-- What the task can be resumed with: the answer or the message it waits for, the end of its
insert, or an exception of either. -/
def Awaits [Zero K] (w : CandleWriter) : WriterState K → Resumption K → Prop
  | .waiting cursor, r => r = .raised ∨ (w.receive cursor r).isSome
  | .inserting _ _, r => r = .raised ∨ r = .committed
  | .ended, _ => False

/-- The statement of the task. -/
def insert (w : CandleWriter) (t : Table (OhlcvRow.key (K := K))) (rows : List (OhlcvRow K)) :
    Table (OhlcvRow.key (K := K)) :=
  match w with
  | .binanceBackfill _ _ _ _ => bulkUpsertViaCopy t rows
  | _ => upsertMany t rows

/-- Either statement inserts row by row.
SOURCE: common/db.py:51-125 -/
theorem insert_eq (w : CandleWriter) (t : Table (OhlcvRow.key (K := K)))
    (rows : List (OhlcvRow K)) : w.insert t rows = rows.foldl Table.insertNew t := by
  cases w <;> rfl

end CandleWriter

/-- A run of any number of tasks: in any order, each is resumed with what it waits for. -/
structure CandleRun {ι : Type} [DecidableEq ι] (writers : ι → CandleWriter) (K : Type) [Zero K]
    where
  steps : List (ι × Resumption K)
  awaited : (Machine.interleave fun i => (writers i).machine (K := K)).Along
    (fun s l => (writers l.1).Awaits (s l.1) l.2) (fun i => (writers i).start) steps

/-- What any number of tasks observe and insert, in the order of time. -/
def candleTrace {ι K : Type} [DecidableEq ι] [Zero K] (writers : ι → CandleWriter)
    (ls : List (ι × Resumption K)) : List (ι × CandleEvent K) :=
  (Machine.interleave fun i => (writers i).machine).trace (fun i => (writers i).start) ls

/-- The table after what the tasks have done, from an empty one. -/
def candleTable {ι K : Type} (writers : ι → CandleWriter) (events : List (ι × CandleEvent K)) :
    Table (OhlcvRow.key (K := K)) :=
  events.foldl
    (fun t e =>
      match e.2 with
      | .observed _ => t
      | .inserted rows => (writers e.1).insert t rows)
    Table.empty

end TradingEdge.Program
