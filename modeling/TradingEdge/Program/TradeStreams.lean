import TradingEdge.Library.BatchSink
import TradingEdge.Library.Interleave
import TradingEdge.Program.CommonDb

/-!
# The streams of trades

Three tasks of the ingestor write the trades of their exchange to one table.  Binance sends a trade
a message, and its task writes them in batches: of five hundred, or those of five seconds; Bybit
and Coinbase send several, and their tasks write the trades of each message.  A message that cannot
be read or a write that fails ends the connection, and with it the buffer.
-/

set_option autoImplicit false

namespace TradingEdge.Program

open TradingEdge.Library

variable {K : Type}

/-- Times are in milliseconds.
SOURCE: infra/postgres/init/03_market_data_tables.sql:28-37 -/
structure CryptoTrade (K : Type) where
  exchange : String
  symbol : String
  ts : ℤ
  tradeId : String
  price : K
  qty : K
  side : String
deriving DecidableEq

/-- SOURCE: infra/postgres/init/03_market_data_tables.sql:36 -/
def CryptoTrade.key (r : CryptoTrade K) : String × String × String × ℤ :=
  (r.exchange, r.symbol, r.tradeId, r.ts)

/-- A trade in a message, under the names that its exchange has for the fields: `s`, `T`, `a`, `p`,
`q` and `m` at Binance, `s`, `T`, `i`, `p`, `v` and `S` at Bybit, and `product_id`, `time`,
`trade_id`, `price`, `size` and `side` at Coinbase.  A field that is missing or cannot be read
is none; the last one has a default. -/
structure SentTrade (K : Type) where
  symbol : Option String
  time : Option ℤ
  tradeId : Option String
  price : Option K
  qty : Option K
  taker : Option String

/-- SOURCE: cli/ingestor.py:45-60 -/
inductive TradeTask where
  | binance
  | bybit
  | coinbase
deriving DecidableEq

/-- SOURCE: ingest/binance/adapter.py:36, ingest/bybit/adapter.py:38, ingest/coinbase/adapter.py:71 -/
def TradeTask.name : TradeTask → String
  | .binance => "binance"
  | .bybit => "bybit"
  | .coinbase => "coinbase"

/-- Binance says whether the buyer was the maker, given here as "true" or "false".
SOURCE: ingest/binance/adapter.py:217, ingest/bybit/adapter.py:231,
ingest/coinbase/adapter.py:277-278 -/
def TradeTask.side (task : TradeTask) (taker : Option String) : String :=
  match task with
  | .binance => if taker = some "true" then "sell" else "buy"
  | .bybit => if taker = some "Buy" then "buy" else "sell"
  | .coinbase => if (taker.getD "").toUpper = "BUY" then "buy" else "sell"

/-- SOURCE: ingest/coinbase/adapter.py:285 -/
def TradeTask.canonicalSymbol (task : TradeTask) (symbol : String) : String :=
  match task with
  | .binance => symbol
  | .bybit => symbol
  | .coinbase => String.ofList (symbol.toList.filter (· ≠ '-'))

/-- The row of a trade; none where the handler raises.
SOURCE: ingest/binance/adapter.py:216-228, ingest/bybit/adapter.py:229-243,
ingest/coinbase/adapter.py:275-297 -/
def TradeTask.row (task : TradeTask) (t : SentTrade K) : Option (CryptoTrade K) := do
  let ts ← t.time
  let symbol ← t.symbol
  let tradeId ← t.tradeId
  let price ← t.price
  let qty ← t.qty
  pure {
    exchange := task.name
    symbol := task.canonicalSymbol symbol
    ts := ts
    tradeId := tradeId
    price := price
    qty := qty
    side := task.side t.taker }

/-- When the trades that are held are written, from their number and the time since the last write.
SOURCE: ingest/binance/adapter.py:230, ingest/bybit/adapter.py:246, ingest/coinbase/adapter.py:301 -/
def TradeTask.due (task : TradeTask) (held : ℕ) (age : ℚ) : Bool :=
  match task with
  | .binance => decide (500 ≤ held ∨ 5 ≤ age)
  | .bybit => true
  | .coinbase => true

/-- The task connects; a message comes, with its trades unless it cannot be read at all, and a write
succeeds or raises; the connection breaks. -/
inductive TradeLabel (K : Type) where
  | connected (now : ℚ)
  | message (trades : Option (List (SentTrade K))) (now : ℚ) (ok : Bool)
  | disconnected

/-- The rows of a message.  One trade that raises loses its message; a message of Binance is one
trade, or raises.
SOURCE: ingest/binance/adapter.py:212-229, ingest/bybit/adapter.py:226-245,
ingest/coinbase/adapter.py:271-300 -/
def TradeTask.rows (task : TradeTask) (trades : List (SentTrade K)) :
    Option (List (CryptoTrade K)) :=
  match task with
  | .binance =>
    match trades with
    | [t] => (TradeTask.binance.row t).map fun r => [r]
    | _ => none
  | .bybit => trades.mapM TradeTask.bybit.row
  | .coinbase => trades.mapM TradeTask.coinbase.row

def TradeTask.reading (task : TradeTask) : TradeLabel K → BatchLabel (CryptoTrade K)
  | .connected now => .opened now
  | .message trades now ok => .came (trades.bind task.rows) now ok
  | .disconnected => .closed

/-- SOURCE: ingest/binance/adapter.py:202-253, ingest/bybit/adapter.py:157-187, 226-253,
ingest/coinbase/adapter.py:202-240, 271-310 -/
def tradeMachine (task : TradeTask) :
    Machine (Option (BatchBuffer (CryptoTrade K))) (TradeLabel K) (BatchNote (CryptoTrade K)) :=
  ⟨fun s l => batchStep task.due s (task.reading l)⟩

/-- The three tasks side by side.
SOURCE: cli/ingestor.py:42-66 -/
def tradeTasks : Machine (TradeTask → Option (BatchBuffer (CryptoTrade K)))
    (TradeTask × TradeLabel K) (TradeTask × BatchNote (CryptoTrade K)) :=
  Machine.interleave tradeMachine

/-- The table after a note: a batch that is written goes into it. -/
def tradeNote (t : Table (CryptoTrade.key (K := K))) :
    TradeTask × BatchNote (CryptoTrade K) → Table (CryptoTrade.key (K := K))
  | (_, .written rows) => upsertMany t rows
  | _ => t

/-- The table after some notes: the batches that were written, in their order. -/
def tradeTable (notes : List (TradeTask × BatchNote (CryptoTrade K))) :
    Table (CryptoTrade.key (K := K)) :=
  notes.foldl tradeNote Table.empty

end TradingEdge.Program
