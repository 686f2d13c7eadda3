import TradingEdge.Program.BackfillSettles
import TradingEdge.Program.PaperDriver

/-!
# The backfill script beside a running driver

The script `scripts/backfill_paper_settles.py` runs in a process of its own.  A run first reads
which orders have no settle fill, and writes its exit fills at the end, all in one statement:
between the two the driver goes on, and so may other runs.
-/

set_option autoImplicit false

namespace TradingEdge.Program

open TradingEdge.Model TradingEdge.Library

/-- The metadata says `"kind": "settle"`. -/
def FillRow.isSettle {K : Type} (r : FillRow K) : Bool :=
  match r.metadata with
  | .settle _ _ => true
  | .entry => false

/-- The pnl in the metadata of a settle fill. -/
def FillRow.settlePnl {K : Type} (r : FillRow K) : Option K :=
  match r.metadata with
  | .settle _ pnl => some pnl
  | .entry => none

/-- The driver's system, and the exit fills that each run of the script in flight has yet to
write. -/
structure SettleSystem (K S : Type) where
  world : World K S
  runs : List (List (FillRow K))

/-- A step: of the driver, or the two halves of a run of the script. -/
inductive SettleLabel (K : Type) where
  | driver (l : DriverLabel K)
  | scriptReads (now : K) (tables : PriceTables K) (markets : List (MarketRow K))
  | scriptWrites (i : ℕ) (outcome : WriteOutcome)

/-- The system at a boot of the driver, with no run of the script. -/
def SettleSystem.boot {K S : Type} (world : World K S) : SettleSystem K S := ⟨world, []⟩

variable {K S P : Type} [Field K] [LinearOrder K] [FloorRing K]

/-- The order has a settle fill.
SOURCE: scripts/backfill_paper_settles.py:69-73 -/
def hasSettle (fills : List (FillRow K)) (orderId : String) : Bool :=
  fills.any fun r => r.orderId = orderId ∧ r.isSettle

/-- The orders a run of the script finds due.
SOURCE: scripts/backfill_paper_settles.py:129-172 -/
def World.due (w : World K S) (now : K) (tables : PriceTables K)
    (markets : List (MarketRow K)) : List (DueOrder K) :=
  dueOrders tables markets now w.orders.rows (hasSettle w.fills.rows)

/-- One step of the system.  The script's statement is atomic.
SOURCE: scripts/backfill_paper_settles.py:127-221 -/
def settleSystemStep (env : DriverEnv K S P) (sys : SettleSystem K S) (l : SettleLabel K) :
    SettleSystem K S × List (DriverEvent K P) :=
  match l with
  | .driver l =>
    let (world, events) := driverStep env sys.world l
    ({ sys with world := world }, events)
  | .scriptReads now tables markets =>
    ({ sys with runs := sys.runs ++ [(sys.world.due now tables markets).map (·.exitFill)] }, [])
  | .scriptWrites i outcome =>
    let rows := (sys.runs[i]?).getD []
    ({ world := { sys.world with fills := rows.foldl (fun t r => writeRow outcome r t) sys.world.fills }
       runs := sys.runs.eraseIdx i }, [])

/-- The driver and the script as a machine. -/
def settleSystem (env : DriverEnv K S P) :
    Machine (SettleSystem K S) (SettleLabel K) (DriverEvent K P) :=
  ⟨settleSystemStep env⟩

end TradingEdge.Program
