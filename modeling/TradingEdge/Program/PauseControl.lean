import TradingEdge.Library.Replica
import TradingEdge.Program.PaperDriver

/-!
# Pausing a running driver

`api_pause` and `api_resume` of `api/main.py` write the flag to `trading.strategy_state` and then
publish the action on the control channel of the strategy.  The driver reads the flag once, when
it starts, then subscribes, and subscribes again whenever its connection breaks; Redis delivers a
message to the clients that are subscribed when it is published.

Calls for one strategy are modelled, with its row and its channel.  The read of the flag and the
assignment of `_paused` are one step: nothing looks at the field before the driver subscribes.
-/

set_option autoImplicit false

namespace TradingEdge.Program

open TradingEdge.Model TradingEdge.Library

/-- What a call publishes.
SOURCE: api/main.py:158-181 -/
def publishedMessage (paused : Bool) : ControlMessage := if paused then .pause else .resume

/-- The `paused` flag of the strategy's row, if it has a row; the calls that have written and not
published yet; and the driver with its subscription. -/
structure ControlSystem (K S : Type) where
  world : World K S
  stored : Option Bool
  calls : List Bool
  link : Subscription Bool

/-- A step: of a call of the API, of the process and its connection, or of the driver. -/
inductive ControlLabel (K S : Type) where
  | callWrites (paused : Bool)
  | callPublishes (i : ℕ)
  | restarts (strategy : S) (rows : Option (List String)) (dailyPnl : K) (dailyTrades : ℤ)
  | rehydrates (ok : Bool)
  | subscribes
  | disconnects
  | receives
  | driver (l : DriverLabel K)

/-- `_rehydrate_pause_state`, on the answer of its query: `none` is one that raises.
SOURCE: paper/driver.py:237-261 -/
def DriverState.rehydratePauseState {K S : Type} (st : DriverState K S)
    (answer : Option (Option Bool)) : DriverState K S :=
  match answer with
  | some (some paused) => { st with paused := paused }
  | _ => st

variable {K S P : Type} [Field K] [LinearOrder K] [FloorRing K]

/-- A driver that has just been built, beside a row and calls under way. -/
def ControlSystem.boot (stored : Option Bool) (calls : List Bool) (strategy : S)
    (rows : Option (List String)) (dailyPnl : K) (dailyTrades : ℤ)
    (orders : Table (OrderRow.key (K := K))) (fills : Table (FillRow.key (K := K))) :
    ControlSystem K S where
  world := World.boot (DriverState.boot strategy false rows dailyPnl dailyTrades) orders fills
  stored := stored
  calls := calls
  link := .starting

/-- One step of the system.  The driver subscribes and receives in its consumer, so both wait
while that is busy; its tasks and its ticks begin once it has read the flag, and ticks come over
the same subscription.
SOURCE: paper/driver.py:133-201, 237-287, api/main.py:158-181, api/db.py:165-177 -/
def controlStep (env : DriverEnv K S P) (c : ControlSystem K S) (l : ControlLabel K S) :
    ControlSystem K S × List (DriverEvent K P) :=
  match l with
  | .callWrites paused =>
    ({ c with stored := some paused, calls := c.calls ++ [paused] }, [])
  | .callPublishes i =>
    match c.calls[i]? with
    | none => (c, [])
    | some paused =>
      ({ c with calls := c.calls.eraseIdx i, link := c.link.deliver paused }, [])
  | .restarts strategy rows dailyPnl dailyTrades =>
    (ControlSystem.boot c.stored c.calls strategy rows dailyPnl dailyTrades c.world.orders
      c.world.fills, [])
  | .rehydrates ok =>
    match c.link with
    | .starting =>
      ({ c with
          world := { c.world with
            driver := c.world.driver.rehydratePauseState (if ok then some c.stored else none) }
          link := .down }, [])
    | _ => (c, [])
  | .subscribes =>
    match c.link, c.world.consumer with
    | .down, .idle => ({ c with link := .up [] }, [])
    | _, _ => (c, [])
  | .disconnects =>
    match c.link with
    | .up _ => ({ c with link := .down }, [])
    | _ => (c, [])
  | .receives =>
    match c.link, c.world.consumer with
    | .up (paused :: queue), .idle =>
      ({ c with
          world := { c.world with
            driver := c.world.driver.handleControlMessage (publishedMessage paused) }
          link := .up queue }, [])
    | _, _ => (c, [])
  | .driver l =>
    match c.link, l.action with
    | .starting, _ => (c, [])
    | _, .control _ => (c, [])
    | .down, .tick _ _ => (c, [])
    | _, _ =>
      let (world, events) := driverStep env c.world l
      ({ c with world := world }, events)

/-- The API, Redis and the driver as a machine. -/
def controlMachine (env : DriverEnv K S P) :
    Machine (ControlSystem K S) (ControlLabel K S) (DriverEvent K P) :=
  ⟨controlStep env⟩

end TradingEdge.Program
