import TradingEdge.Library.WhileLoop
import TradingEdge.Program.CommonDb

/-!
# The trades of a market

`backfill_market_trades` reads the trades of a market from the Data API, newest first and page by
page.  A page that is short or empty is the last one; so is a request that is answered with a
status which is neither 200 nor a reason to try again.
-/

set_option autoImplicit false

namespace TradingEdge.Program

open TradingEdge.Library

variable {K : Type}

/-- What the API says of a trade; any field may be missing.
SOURCE: ingest/polymarket/adapter.py:632-637 -/
structure ApiTrade (K : Type) where
  transactionHash : Option String
  asset : Option String
  timestamp : Option ℤ
  price : Option K
  size : Option K
  side : Option String
deriving DecidableEq

/-- SOURCE: infra/postgres/init/03_market_data_tables.sql:68-77 -/
structure PolymarketTrade (K : Type) where
  conditionId : String
  tokenId : String
  ts : ℤ
  txHash : String
  price : K
  size : K
  side : String
deriving DecidableEq

/-- SOURCE: infra/postgres/init/03_market_data_tables.sql:76 -/
def PolymarketTrade.key (r : PolymarketTrade K) : String × String × ℤ :=
  (r.conditionId, r.txHash, r.ts)

/-- A trade with a field missing, or with an empty text, is left out.
SOURCE: ingest/polymarket/adapter.py:632-650 -/
def tradeRow (conditionId : String) (t : ApiTrade K) : Option (PolymarketTrade K) :=
  match t.transactionHash, t.asset, t.timestamp, t.price, t.size, t.side with
  | some txHash, some tokenId, some ts, some price, some size, some side =>
    if txHash = "" ∨ tokenId = "" ∨ side = "" then none
    else some {
      conditionId := conditionId
      tokenId := tokenId
      ts := ts
      txHash := txHash
      price := price
      size := size
      side := side }
  | _, _, _, _, _, _ => none

/-- The answer to a request after its retries: a page, another status, or an error that is
raised.
SOURCE: ingest/polymarket/adapter.py:671-695 -/
inductive TradesAnswer (K : Type) where
  | page (trades : List (ApiTrade K))
  | otherStatus
  | raised

/-- SOURCE: ingest/polymarket/adapter.py:691-695 -/
def TradesAnswer.trades : TradesAnswer K → Option (List (ApiTrade K))
  | .page trades => some trades
  | .otherStatus => some []
  | .raised => none

/-- The loop with the requests it has made; it goes on until it returns or raises.
SOURCE: ingest/polymarket/adapter.py:624-625 -/
structure TradesBackfill (K : Type) where
  requests : ℕ
  offset : ℕ
  table : Table (PolymarketTrade.key (K := K))
  total : ℕ
  left : Option (Except Unit Unit)

/-- One turn of the loop; `api n` answers the `n`-th request, from its offset and limit.
SOURCE: ingest/polymarket/adapter.py:626-669 -/
def backfillTradesTurn (api : ℕ → ℕ → ℕ → TradesAnswer K) (conditionId : String) (pageSize : ℕ)
    (s : TradesBackfill K) : Option (TradesBackfill K) :=
  match s.left with
  | some _ => none
  | none =>
    match (api s.requests s.offset pageSize).trades with
    | none => some { s with requests := s.requests + 1, left := some (.error ()) }
    | some trades =>
      if trades.length = 0 then
        some { s with requests := s.requests + 1, left := some (.ok ()) }
      else
        let rows := trades.filterMap (tradeRow conditionId)
        some {
          requests := s.requests + 1
          offset := if trades.length < pageSize then s.offset else s.offset + pageSize
          table := upsertMany s.table rows
          total := s.total + rows.length
          left := if trades.length < pageSize then some (.ok ()) else none }

/-- SOURCE: ingest/polymarket/adapter.py:624-625 -/
def backfillTradesStart (t : Table (PolymarketTrade.key (K := K))) : TradesBackfill K :=
  ⟨0, 0, t, 0, none⟩

end TradingEdge.Program
