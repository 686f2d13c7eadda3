import Mathlib.Algebra.Order.AbsoluteValue.Basic
import TradingEdge.Program.BackfillRuns

/-!
# Reconciliation

The reconciliation loop of `paper/driver.py` compares the driver's totals in memory with
`trading.fills`, over the last 24 hours; at boot the driver takes its totals from the same
query.  The loop only raises an alert, so it is a function of the state and the tables.
-/

set_option autoImplicit false

namespace TradingEdge.Program

open TradingEdge.Model TradingEdge.Library

variable {K S P : Type}

/-- The metadata says `"kind": "entry"`. -/
def FillRow.isEntry (f : FillRow K) : Bool :=
  match f.metadata with
  | .entry => true
  | .settle _ _ => false

/-- The fills of a strategy: `trading.fills` joined with its orders.
SOURCE: paper/driver.py:98-118, 743-763 -/
def strategyFills (strategyId : String) (orders : List (OrderRow K))
    (fills : List (FillRow K)) : List (FillRow K) :=
  fills.flatMap fun f =>
    (orders.filter fun o => o.orderId = f.orderId ∧ o.strategyId = strategyId).map fun _ => f

/-- What the query returns. -/
structure DbLedger (K : Type) where
  settledPnl : K
  entries : ℕ
  exits : ℕ

/-- Whether a comparison was made, and how it came out. -/
inductive ReconcileOutcome where
  | skipped
  | ok
  | fail
deriving DecidableEq, Repr

/-- The rows whose write may have been committed while the coroutine that waits for it has not
gone on yet. -/
def World.pendingFills (w : World K S) : List (FillRow K) :=
  (match w.consumer with
    | .persistingFill attempt => [attempt.fill]
    | .settling _ (.settleFill _ _ _ fill) => [fill]
    | _ => []) ++
  match w.watchdog with
  | .settling _ (.settleFill _ _ _ fill) _ => [fill]
  | _ => []

variable [Field K] [LinearOrder K]

/-- `trading.fills` when these writes have been committed as well. -/
def World.committed (w : World K S) (early : List (FillRow K)) : Table (FillRow.key (K := K)) :=
  early.foldl Table.insertNew w.fills

/-- The totals of a strategy over the fills `f.ts >= now() - interval '1 day'`.
SOURCE: paper/driver.py:98-118, 743-767 -/
def readLedger (strategyId : String) (now : K) (orders : List (OrderRow K))
    (fills : List (FillRow K)) : DbLedger K :=
  let rows := (strategyFills strategyId orders fills).filter fun f => now - 86400 ≤ f.ts
  { settledPnl := (rows.map fun f => f.settlePnl.getD 0).sum
    entries := rows.countP (·.isEntry)
    exits := rows.countP (·.isSettle) }

/-- The comparison of one round of the loop.
SOURCE: paper/driver.py:765-781 -/
def reconcile (db : DbLedger K) (st : DriverState K S) : ReconcileOutcome :=
  if db.entries = 0 ∧ st.dailyTrades = 0 then .skipped
  else
    let delta := |db.settledPnl - st.dailyPnl|
    let openDiff := ((db.entries : ℤ) - db.exits) - st.openPositions.values.length
    if 1 < delta ∨ 1 < |openDiff| then .fail else .ok

variable [FloorRing K]

/-- The system at a boot at which the query for the day's totals went through.
SOURCE: paper/driver.py:91-126, 133-137 -/
def World.bootFromDb (env : DriverEnv K S P) (strategy : S) (paused : Bool)
    (rows : Option (List String)) (bootTs : K) (orders : Table (OrderRow.key (K := K)))
    (fills : Table (FillRow.key (K := K))) : World K S :=
  let db := readLedger env.execCfg.strategyId bootTs orders.rows fills.rows
  World.boot (DriverState.boot strategy paused rows db.settledPnl db.entries) orders fills

end TradingEdge.Program
