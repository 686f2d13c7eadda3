import TradingEdge.Program.BackfillRuns
import TradingEdge.Program.OrderStatements

/-!
# The tables that all paper orders share

The driver and the limit book write to the same `trading.orders` and `trading.fills`.  What
the driver leaves there are bought and filled orders with an entry fill; the rows of the limit
book go through all statuses and may be sales.  The backfill script reads both and asks
neither for the side nor for the status of an order.
-/

set_option autoImplicit false

namespace TradingEdge.Program

open TradingEdge.Model TradingEdge.Library

/-- The rows of `trading.orders` and of `trading.fills`. -/
structure PaperTables (K : Type) where
  orders : List (StoredOrder K)
  fills : List (StoredFill K)

variable {K S P : Type}

/-- The row of an entry: `'BUY'` and `'FILLED'`.
SOURCE: paper/exec_client.py:135-168 -/
def OrderRow.stored (o : OrderRow K) : StoredOrder K :=
  { o with
    side := "BUY"
    status := .filled }

/-- SOURCE: paper/exec_client.py:169-199, 243-272 -/
def FillRow.stored (f : FillRow K) : StoredFill K where
  fillId := f.fillId
  orderId := f.orderId
  ts := f.ts
  price := f.price
  qty := f.qty
  fee := f.fee
  kind :=
    match f.metadata with
    | .entry => .entry
    | .settle resolution pnl => .settle resolution pnl

/-- The metadata says `"kind": "settle"`. -/
def StoredFill.isSettle (f : StoredFill K) : Bool :=
  match f.kind with
  | .settle _ _ => true
  | _ => false

/-- What the driver has written. -/
def World.paperTables (w : World K S) : PaperTables K :=
  ⟨w.orders.rows.map (·.stored), w.fills.rows.map (·.stored)⟩

/-- What the limit book has written. -/
def BookStore.paperTables (s : BookStore K) : PaperTables K :=
  ⟨s.orders.rows, s.fills.rows⟩

/-- The rows of two writers that use different order ids. -/
def PaperTables.join (t u : PaperTables K) : PaperTables K :=
  ⟨t.orders ++ u.orders, t.fills ++ u.fills⟩

/-- The order has a settle fill.
SOURCE: scripts/backfill_paper_settles.py:69-73 -/
def PaperTables.hasSettle (t : PaperTables K) (orderId : String) : Bool :=
  t.fills.any fun f => f.orderId = orderId ∧ f.isSettle

variable [LinearOrder K]

/-- `INSERT … ON CONFLICT (fill_id, ts) DO NOTHING`. -/
def PaperTables.insertFill (t : PaperTables K) (f : StoredFill K) : PaperTables K :=
  if f.key ∈ t.fills.map (·.key) then t else ⟨t.orders, t.fills ++ [f]⟩

variable [Field K] [FloorRing K]

/-- The orders a run of the script finds due.
SOURCE: scripts/backfill_paper_settles.py:51-81, 129-172 -/
def PaperTables.due (t : PaperTables K) (now : K) (tables : PriceTables K)
    (markets : List (MarketRow K)) : List (DueOrder K) :=
  dueOrders tables markets now (t.orders.map (·.toOrderRow)) t.hasSettle

/-- What a run of the script leaves.
SOURCE: scripts/backfill_paper_settles.py:127-221 -/
def PaperTables.backfill (t : PaperTables K) (now : K) (tables : PriceTables K)
    (markets : List (MarketRow K)) : PaperTables K :=
  ((t.due now tables markets).map fun d => d.exitFill.stored).foldl PaperTables.insertFill t

omit [LinearOrder K] [Field K] [FloorRing K] in
/-- A stored settlement is one. -/
theorem FillRow.isSettle_stored (f : FillRow K) : f.stored.isSettle = f.isSettle := by
  unfold stored StoredFill.isSettle isSettle
  cases f.metadata <;> rfl

/-- In the driver's own tables the script finds the same orders due as beside the driver. -/
theorem World.due_paperTables (w : World K S) (now : K) (tables : PriceTables K)
    (markets : List (MarketRow K)) :
    w.paperTables.due now tables markets = w.due now tables markets := by
  have horders : (w.paperTables.orders.map fun o => o.toOrderRow) = w.orders.rows := by
    unfold World.paperTables
    rw [List.map_map]
    exact List.map_id _
  have hsettle : w.paperTables.hasSettle = Program.hasSettle w.fills.rows := by
    funext orderId
    unfold PaperTables.hasSettle World.paperTables Program.hasSettle
    rw [List.any_map]
    congr 1
    funext f
    simp only [Function.comp_apply, FillRow.isSettle_stored]
    rfl
  unfold PaperTables.due World.due
  rw [horders, hsettle]

end TradingEdge.Program
