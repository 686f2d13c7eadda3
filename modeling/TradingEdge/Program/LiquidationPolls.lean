import Mathlib.Algebra.Order.Ring.Rat
import TradingEdge.Library.Dict
import TradingEdge.Program.CommonDb

/-!
# The polls of the liquidations

`run_liquidation_loop` asks Coinalyze every minute for the bars of the last five minutes, so that
each bar is polled several times.  A bar becomes a row for each side on which something was
liquidated, at a price that the poll resolves; the table's key contains this price.  Times are in
seconds.
-/

set_option autoImplicit false

namespace TradingEdge.Program

open TradingEdge.Library

/-- A number in a column with so many decimal places: the nearest one there is, of two the one further
from zero. -/
def numeric (places : ℕ) (x : ℚ) : ℚ :=
  let unit : ℚ := 10 ^ places
  if 0 ≤ x then (x * unit + 1 / 2).floor / unit else -((-x * unit + 1 / 2).floor / unit)

/-- A bar of a symbol's history; any field may be missing.
SOURCE: ingest/coinalyze/adapter.py:108-112 -/
structure LiquidationBar where
  t : Option ℤ
  l : Option ℚ
  s : Option ℚ
  p : Option ℚ

/-- SOURCE: ingest/coinalyze/adapter.py:104-106 -/
structure SymbolEntry where
  symbol : Option String
  history : List LiquidationBar

/-- SOURCE: infra/postgres/init/09_contest_ab.sql:3-11 -/
structure LiquidationCluster where
  ts : ℤ
  symbol : String
  side : String
  price : ℚ
  sizeUsd : ℚ
  source : String
deriving DecidableEq

/-- SOURCE: infra/postgres/init/09_contest_ab.sql:10 -/
def LiquidationCluster.key (r : LiquidationCluster) : String × String × ℚ × ℤ :=
  (r.symbol, r.side, r.price, r.ts)

/-- The row as its columns hold it.
SOURCE: infra/postgres/init/09_contest_ab.sql:7-8 -/
def LiquidationCluster.stored (r : LiquidationCluster) : LiquidationCluster :=
  { r with price := numeric 8 r.price, sizeUsd := numeric 2 r.sizeUsd }

/-- The close of the bar's minute, or of the last one before it that has a candle, five minutes back
at most.
SOURCE: ingest/coinalyze/adapter.py:71-81 -/
def spotForBar (closesByMinute : Dict ℤ ℚ) (barTs : ℤ) : Option ℚ :=
  let minute := barTs / 60 * 60
  (List.range 6).findSome? fun (offset : ℕ) => closesByMinute.get? (minute - offset * 60)

/-- A price of zero counts as missing.
SOURCE: ingest/coinalyze/adapter.py:113 -/
def priceProxy (closesByMinute : Dict ℤ ℚ) (bar : LiquidationBar) (ts : ℤ) : Option ℚ :=
  match bar.p with
  | some p => if p = 0 then spotForBar closesByMinute ts else some p
  | none => spotForBar closesByMinute ts

/-- The rows of a bar: one for each side with an amount.
SOURCE: ingest/coinalyze/adapter.py:108-138 -/
def barClusters (closesByMinute : Dict ℤ ℚ) (symbol : String) (bar : LiquidationBar) :
    List LiquidationCluster :=
  match bar.t with
  | none => []
  | some ts =>
    let longAmt := bar.l.getD 0
    let shortAmt := bar.s.getD 0
    match priceProxy closesByMinute bar ts with
    | none => []
    | some price =>
      (if 0 < longAmt then [⟨ts, symbol, "long", price, longAmt, "coinalyze"⟩] else []) ++
        (if 0 < shortAmt then [⟨ts, symbol, "short", price, shortAmt, "coinalyze"⟩] else [])

/-- SOURCE: ingest/coinalyze/adapter.py:105 -/
def entrySymbol (entry : SymbolEntry) : String :=
  if entry.symbol.getD "" = "" then "BTCUSDT_PERP.A" else entry.symbol.getD ""

/-- SOURCE: ingest/coinalyze/adapter.py:84-139 -/
def expandBarsToClusters (barsPayload : Option (List SymbolEntry))
    (closesByMinute : Option (Dict ℤ ℚ)) : List LiquidationCluster :=
  let closes := closesByMinute.getD Dict.empty
  (barsPayload.getD []).flatMap fun entry =>
    entry.history.flatMap (barClusters closes (entrySymbol entry))

/-- A turn of the loop: what Coinalyze answers, if it does, and the closes of Binance; or it raises
before it has written anything, as it also does where a number is too large for its column.
SOURCE: ingest/coinalyze/adapter.py:174-194 -/
inductive LiquidationPoll where
  | answered (payload : Option (List SymbolEntry)) (closes : Dict ℤ ℚ)
  | raised

/-- SOURCE: ingest/coinalyze/adapter.py:183 -/
def LiquidationPoll.rows : LiquidationPoll → List LiquidationCluster
  | .answered payload closes => expandBarsToClusters payload (some closes)
  | .raised => []

/-- SOURCE: ingest/coinalyze/adapter.py:184-190 -/
def pollLiquidations (t : Table LiquidationCluster.key) (poll : LiquidationPoll) :
    Table LiquidationCluster.key :=
  upsertMany t (poll.rows.map LiquidationCluster.stored)

end TradingEdge.Program
