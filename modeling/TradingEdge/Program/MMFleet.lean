import TradingEdge.Library.Interleave
import TradingEdge.Program.MMDriver

/-!
# The market making drivers of an engine

The drivers that share one `GlobalMMState` run in one event loop.  A handler gives the loop up
while it writes to the database, so the handlers of two drivers interleave; within a handler
the pieces that nothing can come between are the check of a quote with its placement, a
cancellation, the match of the book, and the credit of one fill.  A replacement is two of them.
`MMTask` is what is left to do of a tick, and `resume` does the next piece of it.

The fills of an instance are the rows that its book writes, and its mids are the last entries of
`_recent_ticks`; the engine keeps both.
-/

set_option autoImplicit false

namespace TradingEdge.Program

open TradingEdge.Model TradingEdge.Library

/-- What is left to do of a tick. -/
inductive MMTask (K : Type) where
  | dispatching (ctx : TickContext K) (actions : List (MMAction K))
  | placing (ctx : TickContext K) (new : PostQuote K) (actions : List (MMAction K))
  | crediting (ctx : TickContext K) (fills : List (LimitFill K))

/-- A driver in the middle of its work. -/
structure MMInstance (K : Type) where
  driver : MMPaperDriver K
  mids : Dict String K
  fills : List (LimitFill K)
  task : Option (MMTask K)

/-- What an instance does next: take a message, or go on with its tick. -/
inductive InstanceLabel (K : Type) where
  | tick (d : TickDict K) (clock : K)
  | control (msg : ControlMessage)
  | resume (clock : K)

/-- An instance at the start of the engine. -/
def MMInstance.init {K : Type} (k : KEstimator K) (paused : Bool) : MMInstance K :=
  ⟨MMPaperDriver.init k paused, Dict.empty, [], none⟩

/-- The book after a piece of the dispatch, which an exception ends. -/
def MMInstance.sent {K : Type} (inst : MMInstance K) (ctx : TickContext K) (sent : Dispatched K)
    (actions : List (MMAction K)) : MMInstance K × List (MMEvent K) :=
  ({ inst with
    driver := { inst.driver with limitBook := sent.book }
    task := if sent.raised.isSome then none else some (.dispatching ctx actions) },
    sent.events ++ sent.raised.toList.map .raised)

variable {K : Type} [Field K] [LinearOrder K]

/-- Take a tick, up to the first action; an instance that is busy takes none.
SOURCE: paper/mm_driver.py:67-94 -/
def MMInstance.takeTick (env : MMDriverEnv K) (inst : MMInstance K) (d : TickDict K) (clock : K) :
    MMInstance K × List (MMEvent K) :=
  let ctx := tickFromDict d
  if inst.task.isSome then (inst, [])
  else
    let inst := { inst with mids := inst.mids.set ctx.marketSlug ctx.impliedProbYes }
    if inst.driver.paused then (inst, [.pausedSkip])
    else
      let (actions, strategy) := inst.driver.strategy.onTick env.toMMEnv ctx clock
      ({ inst with
        driver := { inst.driver with strategy := strategy }
        task := some (.dispatching ctx actions) }, [])

/-- The next piece of a tick: one action, the match, or one fill.
SOURCE: paper/mm_driver.py:95-135, 137-197 -/
def MMInstance.resume (env : MMDriverEnv K) (g : GlobalMMState K) (inst : MMInstance K)
    (clock : K) : MMInstance K × List (MMEvent K) :=
  let book := inst.driver.limitBook
  match inst.task with
  | none => (inst, [])
  | some (.dispatching ctx []) =>
    if TickContext.Matched ctx then
      let instrumentId := instrumentIdYes ctx.marketSlug
      let (book', fills) := book.onTick env.makerFeeBps instrumentId ctx.impliedProbYes ctx.ts
      ({ inst with
        driver := { inst.driver with limitBook := book' }
        fills := inst.fills ++ fills
        task := some (.crediting ctx fills) }, (book.expired instrumentId ctx.ts).map .expired)
    else ({ inst with task := none }, [.handled ctx])
  | some (.dispatching ctx (.replace old new :: actions)) =>
    let (book', gone) := book.cancel old
    ({ inst with
      driver := { inst.driver with limitBook := book' }
      task := some (if gone.isSome then .placing ctx new actions else .dispatching ctx actions) },
      gone.toList.map .cancelled)
  | some (.dispatching ctx (action :: actions)) =>
    inst.sent ctx (dispatchAction env.toMMEnv g ctx book action) actions
  | some (.placing ctx new actions) =>
    inst.sent ctx (placeOrder book (env.limitOrder ctx new)) actions
  | some (.crediting ctx []) => ({ inst with task := none }, [.handled ctx])
  | some (.crediting ctx (f :: fills)) =>
    let strategy := creditFill env.cfg inst.driver.strategy ctx.marketSlug f clock
    ({ inst with
      driver := { inst.driver with strategy := strategy }
      task := some (.crediting ctx fills) },
      [.filled f (strategy.safety.inventory ctx.marketSlug)])

/-- One step of an instance. -/
def instanceStep (env : MMDriverEnv K) (g : GlobalMMState K) (inst : MMInstance K)
    (l : InstanceLabel K) : MMInstance K × List (MMEvent K) :=
  match l with
  | .tick d clock => inst.takeTick env d clock
  | .control msg => ({ inst with driver := inst.driver.handleControlMessage msg }, [])
  | .resume clock => inst.resume env g clock

/-- One instance as a machine. -/
def instanceMachine (env : MMDriverEnv K) (g : GlobalMMState K) :
    Machine (MMInstance K) (InstanceLabel K) (MMEvent K) :=
  ⟨instanceStep env g⟩

/-- The instances of an engine, with the state they share.
SOURCE: cli/paper_engine.py:206-264 -/
def fleetMachine {ι : Type} [DecidableEq ι] (env : ι → MMDriverEnv K) (g : GlobalMMState K) :
    Machine (ι → MMInstance K) (ι × InstanceLabel K) (ι × MMEvent K) :=
  Machine.interleave fun i => instanceMachine (env i) g

/-- The engine at its start. -/
def fleetInit {ι : Type} (k : ι → KEstimator K) (paused : ι → Bool) : ι → MMInstance K :=
  fun i => MMInstance.init (k i) (paused i)

end TradingEdge.Program
