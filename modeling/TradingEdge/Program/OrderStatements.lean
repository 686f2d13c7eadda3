import TradingEdge.Library.Table
import TradingEdge.Program.ExecClient
import TradingEdge.Program.LimitBookSim

/-!
# What the limit book writes to the database

Every operation of `LimitBookSim` first does its work in memory, under the lock and without
an `await`, and then, outside the lock, runs its statements one after another, with an
`await` at each.  So a coroutine that has left its memory part behind is a list of
statements, and the operations that are in flight at the same time are a list of such lists:
`BookStore` takes a step when an operation is called, or when one of them has its next
statement carried out.

Statements succeed here.  The `metadata` of the rows is left out.
-/

set_option autoImplicit false

namespace TradingEdge.Program

open TradingEdge.Model TradingEdge.Library

/-- The values of `trading.orders.status` that the paper engine writes. -/
inductive OrderStatus where
  | new
  | filled
  | cancelled
deriving DecidableEq, Repr

/-- A row of `trading.orders` with the columns in which the two kinds of paper orders differ.
SOURCE: infra/postgres/init/04_trading_research_tables.sql:8-23 -/
structure StoredOrder (K : Type) extends OrderRow K where
  side : String
  status : OrderStatus

/-- The `kind` in the metadata of a fill. -/
inductive FillKind (K : Type) where
  | entry
  | limitFill
  | settle (resolution : Resolution) (pnl : K)

/-- A row of `trading.fills` of either kind of paper order.
SOURCE: infra/postgres/init/04_trading_research_tables.sql:34-47 -/
structure StoredFill (K : Type) where
  fillId : String
  orderId : String
  ts : K
  price : K
  qty : K
  fee : K
  kind : FillKind K

/-- The primary key of `trading.orders`. -/
def StoredOrder.key {K : Type} (r : StoredOrder K) : String × K := (r.orderId, r.tsSubmit)

/-- The primary key of `trading.fills`. -/
def StoredFill.key {K : Type} (r : StoredFill K) : String × K := (r.fillId, r.ts)

/-- A statement of the book, as it is handed to the database. -/
inductive Statement (K : Type) where
  | insertOrder (row : StoredOrder K)
  | cancelOrder (orderId : String) (tsSubmit : K) (ttl : Bool)
  | insertFills (fills : List (LimitFill K))
  | fillOrder (orderId : String) (ts : K)

variable {K : Type}

/-- The row of a new order.
SOURCE: paper/limit_book_sim.py:261-297 -/
def LimitOrder.newRow (o : LimitOrder K) : StoredOrder K where
  orderId := o.coid
  strategyId := o.strategyId
  instrumentId := o.instrumentId
  side := o.side
  qty := o.qty
  price := o.price
  status := .new
  tsSubmit := o.tsPlaced
  tsLastUpdate := o.tsPlaced

/-- The row of a fill of the book.
SOURCE: paper/limit_book_sim.py:320-354 -/
def LimitFill.row (f : LimitFill K) : StoredFill K where
  fillId := f.coid ++ "-fill"
  orderId := f.coid
  ts := f.ts
  price := f.price
  qty := f.qty
  fee := f.fee
  kind := .limitFill

/-- `_persist_cancel`.
SOURCE: paper/limit_book_sim.py:301-317 -/
def LimitOrder.persistCancel (o : LimitOrder K) (ttl : Bool) : Statement K :=
  .cancelOrder o.coid o.tsPlaced ttl

/-- `_persist_fills`: the fill rows in one transaction, then one update for each order.
SOURCE: paper/limit_book_sim.py:319-363 -/
def persistFills (fills : List (LimitFill K)) : List (Statement K) :=
  if fills = [] then [] else .insertFills fills :: fills.map fun f => .fillOrder f.coid f.ts

/-- The book, the operations in flight with the statements they have still to run, and the
two tables. -/
structure BookStore (K : Type) where
  book : LimitBook K
  pending : List (List (Statement K))
  orders : Table (StoredOrder.key (K := K))
  fills : Table (StoredFill.key (K := K))

/-- A book without orders over the given tables. -/
def BookStore.init (orders : Table (StoredOrder.key (K := K)))
    (fills : Table (StoredFill.key (K := K))) : BookStore K :=
  ⟨LimitBook.empty, [], orders, fills⟩

/-- An operation is called, or the operation at a place in the list runs its next statement
at a wall-clock time. -/
inductive StoreLabel (K : Type) where
  | call (c : BookCall K)
  | execute (i : ℕ) (clock : K)

variable [Field K] [LinearOrder K]

/-- The statements an operation goes on to run.
SOURCE: paper/limit_book_sim.py:144-145, 161-162, 190-192, 247-251 -/
def persist (makerFeeBps : K) (b : LimitBook K) (call : BookCall K) : List (Statement K) :=
  match call with
  | .place o =>
    match b.place o with
    | .ok (_, true) => [.insertOrder o.newRow]
    | _ => []
  | .cancel coid => (b.cancel coid).2.toList.map fun o => o.persistCancel false
  | .cancelAll f => (b.cancelAll f).2.map fun o => o.persistCancel false
  | .onTick instrumentId px ts =>
    (b.expired instrumentId ts).map (fun o => o.persistCancel true) ++
      persistFills (b.onTick makerFeeBps instrumentId px ts).2

/-- What a statement does to `trading.orders`.
SOURCE: paper/limit_book_sim.py:304-315, 356-363, common/db.py:51-71 -/
def Statement.runOrders (st : Statement K) (clock : K)
    (orders : Table (StoredOrder.key (K := K))) : Table (StoredOrder.key (K := K)) :=
  match st with
  | .insertOrder row => orders.insertNew row
  | .cancelOrder orderId tsSubmit ttl =>
    orders.updateWhere (fun r => r.orderId = orderId ∧ r.tsSubmit = tsSubmit)
      (fun r => { r with
        status := .cancelled
        tsLastUpdate := if ttl then tsSubmit else clock }) (fun _ => rfl)
  | .insertFills _ => orders
  | .fillOrder orderId ts =>
    orders.updateWhere (fun r => r.orderId = orderId)
      (fun r => { r with status := .filled, tsLastUpdate := ts }) (fun _ => rfl)

/-- What a statement does to `trading.fills`.
SOURCE: paper/limit_book_sim.py:321-354, common/db.py:51-71 -/
def Statement.runFills (st : Statement K) (fills : Table (StoredFill.key (K := K))) :
    Table (StoredFill.key (K := K)) :=
  match st with
  | .insertFills fs => fs.foldl (fun t f => t.insertNew f.row) fills
  | _ => fills

/-- One step: the memory part of a call, or one statement. -/
def storeStep (makerFeeBps : K) (s : BookStore K) (l : StoreLabel K) :
    BookStore K × List (BookEvent K) :=
  match l with
  | .call c =>
    let (book, events) := bookStep makerFeeBps s.book c
    ({ s with book := book, pending := s.pending ++ [persist makerFeeBps s.book c] }, events)
  | .execute i clock =>
    match s.pending[i]? with
    | some (st :: rest) =>
      ({ s with
          pending := s.pending.set i rest
          orders := st.runOrders clock s.orders
          fills := st.runFills s.fills }, [])
    | _ => (s, [])

/-- The book with its database as a machine. -/
def storeMachine (makerFeeBps : K) : Machine (BookStore K) (StoreLabel K) (BookEvent K) :=
  ⟨storeStep makerFeeBps⟩

end TradingEdge.Program
