import Mathlib.Data.Finset.Basic
import TradingEdge.Library.Dict
import TradingEdge.Library.Machine
import TradingEdge.Program.ExecClient
import TradingEdge.Program.Indicators
import TradingEdge.Program.PriceTables
import TradingEdge.Program.Risk
import TradingEdge.Program.TickMessage

/-!
# The paper driver

`PaperDriver` of `paper/driver.py` as a machine.  Four coroutines share the driver's
fields: the consumer, which handles ticks and control messages one at a time, the settle
watchdog, the orphan cleanup and the exec client's database writes inside the first two.
Between two `await`s a coroutine runs alone, so a step of the machine is one such stretch:
a label says which coroutine goes on, at which wall clock, and what the `await` it was
suspended at answered.

Counters, logs, heartbeats and message texts are left out, and so are the reconciliation
and kill switch loops, which only read.
-/

set_option autoImplicit false

namespace TradingEdge.Program

open TradingEdge.Model TradingEdge.Library

/-- SOURCE: paper/driver.py:31-39 -/
structure DriverConfig (K : Type) where
  stakeUsd : K
  earliestEntryT : ℤ
  latestEntryT : ℤ
  dailyAlertPnlThreshold : K
  dailyPausePnlThreshold : K

/-- What a driver is built with. -/
structure DriverEnv (K S P : Type) where
  lib : MathLib K
  execLib : ExecLib K
  strategy : Strategy K S P
  riskCfg : RiskConfig K
  execCfg : ExecConfig K
  cfg : DriverConfig K

/-- The fields of the driver, with the states of its strategy and risk manager.
SOURCE: paper/driver.py:60-84 -/
structure DriverState (K S : Type) where
  strategy : S
  risk : RiskState K
  indicators : Dict String (IndicatorStack K)
  recentTicks : Dict String (List (TickContext K))
  lastTickAt : Dict String K
  openPositions : Dict String (Position K)
  tradeTaken : Finset String
  today : Option ℤ
  dailyPnl : K
  dailyTrades : ℤ
  paused : Bool

/-- One call of `_settle_via_watchdog`: its arguments. -/
structure SettleJob (K : Type) where
  slug : String
  pos : Position K
  now : K

/-- The `await` a settlement is suspended at, with the local variables it still needs.
SOURCE: paper/driver.py:511-562, 442-482 -/
inductive SettlePoint (K : Type) where
  | lastTick
  | ohlcvClose
  | firstTick (settlePrice settleTs : K)
  | ohlcvOpen (settlePrice settleTs : K)
  | settleFill (pos : Position K) (settleTs : K) (pnl : K) (fill : FillRow K)
  | tradeClose
  | lossThreshold

/-- How a stretch of a settlement ends: at an `await`, at its return, or with an exception. -/
inductive SettleStatus (K : Type) where
  | waiting (point : SettlePoint K)
  | returned
  | raised

/-- The coroutine that reads the Redis channels.
SOURCE: paper/driver.py:153-183 -/
inductive Consumer (K : Type) where
  | idle
  | settling (job : SettleJob K) (point : SettlePoint K)
  | persistingOrder (attempt : EntryAttempt K)
  | persistingFill (attempt : EntryAttempt K)
  | notifyingOpen

/-- The watchdog: asleep, or settling one expired position with others to follow.
SOURCE: paper/driver.py:484-509 -/
inductive Watchdog (K : Type) where
  | sleeping
  | settling (job : SettleJob K) (point : SettlePoint K) (rest : List (String × Position K))

/-- The driver with its coroutines and the two tables it writes. -/
structure World (K S : Type) where
  driver : DriverState K S
  consumer : Consumer K
  watchdog : Watchdog K
  orders : Table (OrderRow.key (K := K))
  fills : Table (FillRow.key (K := K))

/-- What becomes of a database write: committed, or an exception before or after the
commit.
SOURCE: common/db.py:51-71 -/
inductive WriteOutcome where
  | committed
  | failed
  | committedThenFailed
deriving DecidableEq, Repr

/-- What the database answers: `tables = none` is a query that raises. -/
structure DbReply (K : Type) where
  tables : Option (PriceTables K)
  write : WriteOutcome

/-- The message of the control channel.
SOURCE: paper/driver.py:263-287 -/
inductive ControlMessage where
  | pause
  | resume
  | other
deriving DecidableEq, Repr

/-- Which coroutine goes on, and what it gets. -/
inductive DriverAction (K : Type) where
  | tick (d : TickDict K) (killSwitchActive : Bool)
  | control (msg : ControlMessage)
  | consumerResumes (reply : DbReply K)
  | watchdogWakes
  | watchdogResumes (reply : DbReply K)
  | orphanSweep

/-- A step of the system at a wall-clock time. -/
structure DriverLabel (K : Type) where
  clock : K
  action : DriverAction K

/-- A call of `exec.settle`, with the wall clock and the prices it was decided on. -/
structure SettleCall (K : Type) where
  clock : K
  pos : Position K
  settleTs : K
  settlePrice : K
  openPrice : K
  wentUp : Bool

/-- What a step of the driver does that its accounts are about. -/
inductive DriverEvent (K P : Type) where
  | tickHandled (ctx : TickContext K)
  | dayRolled (day : ℤ)
  | pauseMarked (slug : String)
  | decided (slug : String) (d : Decision P)
  | tryEnter (req : EntryRequest K)
  | entered (pos : Position K)
  | settled (call : SettleCall K)
  | booked (pos : Position K) (settleTs pnl : K) (fill : FillRow K)
  | dropped (pos : Position K)

section Boot

variable {K S : Type} [Field K] [LinearOrder K] [FloorRing K]

/-- The slugs `_rehydrate_trade_taken` adds: those of the rows that are not empty; a query
that raises adds none.
SOURCE: paper/driver.py:203-235 -/
def rehydrateTradeTaken (rows : Option (List String)) : Finset String :=
  ((rows.getD []).filter (· ≠ "")).toFinset

/-- The driver when its consumer starts: `__init__`, then the rehydrated pause and trade
sets and the day's totals from the database.
SOURCE: paper/driver.py:42-84, 133-137 -/
def DriverState.boot (strategy : S) (paused : Bool) (rows : Option (List String))
    (dailyPnl : K) (dailyTrades : ℤ) : DriverState K S where
  strategy := strategy
  risk := RiskState.init
  indicators := Dict.empty
  recentTicks := Dict.empty
  lastTickAt := Dict.empty
  openPositions := Dict.empty
  tradeTaken := rehydrateTradeTaken rows
  today := none
  dailyPnl := dailyPnl
  dailyTrades := dailyTrades
  paused := paused

/-- The system at boot, with every coroutine at its start. -/
def World.boot (driver : DriverState K S) (orders : Table (OrderRow.key (K := K)))
    (fills : Table (FillRow.key (K := K))) : World K S where
  driver := driver
  consumer := .idle
  watchdog := .sleeping
  orders := orders
  fills := fills

end Boot

section Driver

variable {K S P : Type} [Field K] [LinearOrder K] [FloorRing K]

/-- SOURCE: paper/driver.py:671-674 -/
def DriverState.cleanupMarket (st : DriverState K S) (slug : String) : DriverState K S :=
  { st with
    indicators := st.indicators.pop slug
    recentTicks := st.recentTicks.pop slug
    lastTickAt := st.lastTickAt.pop slug }

/-- A tick of another day than the last one starts the daily fields afresh.
SOURCE: paper/driver.py:708-714 -/
def DriverState.rollDay (st : DriverState K S) (ts : K) : DriverState K S :=
  if some (utcDay ts) ≠ st.today then
    { st with today := some (utcDay ts), dailyPnl := 0, dailyTrades := 0, tradeTaken := ∅ }
  else st

/-- What the day roll reports. -/
def DriverState.rollEvents (st : DriverState K S) (ts : K) : List (DriverEvent K P) :=
  if some (utcDay ts) ≠ st.today then [.dayRolled (utcDay ts)] else []

/-- SOURCE: paper/driver.py:263-287 -/
def DriverState.handleControlMessage (st : DriverState K S) (msg : ControlMessage) :
    DriverState K S :=
  match msg with
  | .pause => { st with paused := true }
  | .resume => { st with paused := false }
  | .other => st

/-- One pass of the orphan cleanup: drop the buffers of markets idle for more than ten
minutes that hold no position.
SOURCE: paper/driver.py:676-706 -/
def DriverState.orphanCleanup (st : DriverState K S) (now : K) : DriverState K S :=
  let stale := st.lastTickAt.entries.filter fun e =>
    600 < now - e.2 ∧ (st.openPositions.get? e.1).isNone
  stale.foldl (fun st e => st.cleanupMarket e.1) st

/-- The outcome of a market in the live settlement: strictly above the open is up.
SOURCE: paper/driver.py:554 -/
def wentUp (settlePrice openPrice : K) : Bool := openPrice < settlePrice

/-- `_settle_from_values` up to the write of the exit fill: take the position out, settle
it, and go on to persist.
SOURCE: paper/driver.py:442-461 -/
def settleFromValues (st : DriverState K S) (clock : K) (slug : String)
    (settleTs settlePrice openPrice : K) :
    DriverState K S × SettleStatus K × List (DriverEvent K P) :=
  match st.openPositions.get? slug with
  | none => (st, .returned, [])
  | some pos =>
    let up := wentUp settlePrice openPrice
    let (result, fill) := settleFill pos settleTs up
    ({ st with openPositions := st.openPositions.pop slug },
      .waiting (.settleFill pos settleTs result.2.2 fill),
      [.settled ⟨clock, pos, settleTs, settlePrice, openPrice, up⟩])

/-- After the settle price is in: give up, retry later, or go on to the open price.
SOURCE: paper/driver.py:522-543, 626-627 -/
def afterSettlePrice (st : DriverState K S) (job : SettleJob K) (settlePrice : Option K)
    (settleTs : K) : DriverState K S × SettleStatus K × List (DriverEvent K P) :=
  match settlePrice with
  | none =>
    if 600 < job.now - job.pos.windowCloseTs then
      (({ st with openPositions := st.openPositions.pop job.slug }).cleanupMarket job.slug,
        .returned, (st.openPositions.get? job.slug).toList.map .dropped)
    else (st, .returned, [])
  | some price =>
    -- `_first_paper_tick_spot` refuses a position without a close time
    if job.pos.windowCloseTs ≤ 0 then (st, .raised, [])
    else (st, .waiting (.firstTick price settleTs), [])

/-- After the open price is in.
SOURCE: paper/driver.py:546-562 -/
def afterOpenPrice (st : DriverState K S) (clock : K) (job : SettleJob K)
    (settlePrice settleTs : K) (openPrice : Option K) :
    DriverState K S × SettleStatus K × List (DriverEvent K P) :=
  match openPrice with
  | none => (st, .returned, [])
  | some openPrice =>
    if openPrice ≤ 0 then (st, .returned, [])
    else settleFromValues st clock job.slug settleTs settlePrice openPrice

/-- One stretch of `_settle_via_watchdog`, from the answer it was waiting for to its next
`await`.
SOURCE: paper/driver.py:511-562, 442-482 -/
def settleStep (env : DriverEnv K S P) (st : DriverState K S) (clock : K)
    (job : SettleJob K) (point : SettlePoint K) (reply : DbReply K) :
    DriverState K S × SettleStatus K × List (DriverEvent K P) :=
  match point with
  | .lastTick =>
    let (settlePrice, settleTs, _) :=
      lastPaperTickPrice reply.tables job.pos.conditionId job.pos.windowCloseTs
    if settlePrice = none ∧ 120 < job.now - job.pos.windowCloseTs then
      (st, .waiting .ohlcvClose, [])
    else afterSettlePrice st job settlePrice settleTs
  | .ohlcvClose =>
    let (settlePrice, settleTs) := ohlcvCloseAt reply.tables job.pos.windowCloseTs
    afterSettlePrice st job settlePrice settleTs
  | .firstTick settlePrice settleTs =>
    match (firstPaperTickSpot reply.tables job.pos.conditionId job.pos.windowCloseTs).1 with
    | none => (st, .waiting (.ohlcvOpen settlePrice settleTs), [])
    | some openPrice => afterOpenPrice st clock job settlePrice settleTs (some openPrice)
  | .ohlcvOpen settlePrice settleTs =>
    afterOpenPrice st clock job settlePrice settleTs
      (ohlcvCloseAt reply.tables (job.pos.windowCloseTs - 300)).1
  | .settleFill pos settleTs pnl fill =>
    ({ st with
        dailyPnl := st.dailyPnl + pnl
        risk := onTradeClosed env.riskCfg st.risk pnl settleTs },
      .waiting .tradeClose, [.booked pos settleTs pnl fill])
  | .tradeClose =>
    if st.dailyPnl ≤ env.cfg.dailyAlertPnlThreshold then (st, .waiting .lossThreshold, [])
    else (st.cleanupMarket job.slug, .returned, [])
  | .lossThreshold => (st.cleanupMarket job.slug, .returned, [])

/-- A write to a table of the client: whether the call raises or not, the row is there
unless it failed before the commit.
SOURCE: common/db.py:51-71 -/
def writeRow {ρ κ : Type} [DecidableEq κ] {key : ρ → κ} (outcome : WriteOutcome) (row : ρ)
    (t : Table key) : Table key :=
  match outcome with
  | .failed => t
  | _ => t.insertNew row

/-- What a settlement writes at the `await` it is suspended at: the exit fill, where there
is one. -/
def SettlePoint.write (point : SettlePoint K) (outcome : WriteOutcome)
    (fills : Table (FillRow.key (K := K))) : Table (FillRow.key (K := K)) :=
  match point with
  | .settleFill _ _ _ fill => writeRow outcome fill fills
  | _ => fills

/-- A tick as the driver evaluates it, the ticks before it, and the driver with its buffers
updated. -/
structure ObservedTick (K S : Type) where
  ctx : TickContext K
  recentTicks : List (TickContext K)
  driver : DriverState K S

/-- The start of `_handle_tick`: the market's buffer of recent ticks (140 kept, the last 120
before this one handed to the strategy), its clock and its indicators.
SOURCE: paper/driver.py:314-327 -/
def observeTick (env : DriverEnv K S P) (st : DriverState K S) (d : TickDict K) :
    ObservedTick K S :=
  let slug := d.marketSlug
  let indicators :=
    (st.indicators.get? slug).getD (IndicatorStack.init IndicatorConfig.default)
  let buf := (st.recentTicks.get? slug).getD []
  let (ctx, indicators) := indicators.update env.lib (tickFromDict d)
  let appended := buf ++ [ctx]
  { ctx := ctx
    recentTicks := buf.rtake 120
    driver := { st with
      indicators := st.indicators.set slug indicators
      recentTicks := st.recentTicks.set slug
        (if 140 < appended.length then appended.drop 1 else appended)
      lastTickAt := st.lastTickAt.set slug ctx.ts } }

/-- The first daily pause gate applies: the loss limit is reached and the market has neither
a position nor a trade.
SOURCE: paper/driver.py:344-345 -/
def DailyPauseMarks (env : DriverEnv K S P) (st : DriverState K S) (slug : String) : Prop :=
  st.paused = false ∧ st.dailyPnl ≤ env.cfg.dailyPausePnlThreshold ∧
    (st.openPositions.get? slug).isNone ∧ slug ∉ st.tradeTaken

instance (env : DriverEnv K S P) (st : DriverState K S) (slug : String) :
    Decidable (DailyPauseMarks env st slug) :=
  inferInstanceAs (Decidable (_ ∧ _ ∧ _ ∧ _))

/-- After the loss limit such a market counts as traded.
SOURCE: paper/driver.py:332-346 -/
def markDailyPause (env : DriverEnv K S P) (st : DriverState K S) (slug : String) :
    DriverState K S :=
  if DailyPauseMarks env st slug then { st with tradeTaken := insert slug st.tradeTaken }
  else st

/-- What that gate reports. -/
def pauseEvents (env : DriverEnv K S P) (st : DriverState K S) (slug : String) :
    List (DriverEvent K P) :=
  if DailyPauseMarks env st slug then [.pauseMarked slug] else []

/-- Where the gates of `_handle_tick` send a tick. -/
inductive TickGate (K S P : Type) where
  | paused
  | settle (pos : Position K)
  | hold
  | taken
  | outOfWindow
  | dailyPause
  | riskSkip (reason : RiskReason K) (risk : RiskState K)
  | strategySkip (risk : RiskState K) (d : Decision P) (strategy : S)
  | enter (risk : RiskState K) (d : Decision P) (strategy : S)

/-- The entry window of the driver.
SOURCE: paper/driver.py:358 -/
def DriverConfig.InEntryWindow (cfg : DriverConfig K) (t : K) : Prop :=
  (cfg.earliestEntryT : K) ≤ t ∧ t ≤ (cfg.latestEntryT : K)

instance (cfg : DriverConfig K) (t : K) : Decidable (cfg.InEntryWindow t) :=
  inferInstanceAs (Decidable (_ ∧ _))

/-- The gates in the order of the source, from the pause gate to the strategy.
SOURCE: paper/driver.py:332-400 -/
def tickGate (env : DriverEnv K S P) (st : DriverState K S) (ctx : TickContext K)
    (recentTicks : List (TickContext K)) : TickGate K S P :=
  if st.paused then .paused
  else
    match st.openPositions.get? ctx.marketSlug with
    | some pos => if 300 ≤ ctx.tInWindow then .settle pos else .hold
    | none =>
      if ctx.marketSlug ∈ st.tradeTaken then .taken
      else if ¬env.cfg.InEntryWindow ctx.tInWindow then .outOfWindow
      else if st.dailyPnl ≤ env.cfg.dailyPausePnlThreshold then .dailyPause
      else
        match canEnter env.riskCfg st.risk ctx with
        | (some reason, risk) => .riskSkip reason risk
        | (none, risk) =>
          let (d, strategy) := env.strategy.shouldEnter st.strategy ctx recentTicks
          match d.action with
          | .skip => .strategySkip risk d strategy
          | .enter => .enter risk d strategy

/-- The arguments `_handle_tick` calls `try_enter` with.
SOURCE: paper/driver.py:402-416 -/
def entryRequest (env : DriverEnv K S P) (conditionId : String) (ctx : TickContext K)
    (side : Side) : EntryRequest K where
  ts := ctx.ts
  conditionId := conditionId
  slug := ctx.marketSlug
  side := side
  stakeUsd := env.cfg.stakeUsd
  pmYesAsk := ctx.pmYesAsk
  pmNoAsk := ctx.pmNoAsk
  bookLastUpdateTs := ctx.ts
  tInWindow := ctx.tInWindow
  latestEntryT := env.cfg.latestEntryT
  windowCloseTs := ctx.windowCloseTs
  openPrice := ctx.openPrice

/-- What `_handle_tick` does at the gate a tick was sent to, up to its first `await`.
SOURCE: paper/driver.py:348-416, 426-440 -/
def atGate (env : DriverEnv K S P) (st : DriverState K S) (clock : K) (conditionId : String)
    (killSwitchActive : Bool) (ctx : TickContext K) (gate : TickGate K S P) :
    DriverState K S × Consumer K × List (DriverEvent K P) :=
  let slug := ctx.marketSlug
  match gate with
  | .paused => (st, .idle, [])
  | .settle pos => (st, .settling ⟨slug, pos, clock⟩ .lastTick, [])
  | .hold => (st, .idle, [])
  | .taken =>
    if 300 ≤ ctx.tInWindow then
      (({ st with tradeTaken := st.tradeTaken.erase slug }).cleanupMarket slug, .idle, [])
    else (st, .idle, [])
  | .outOfWindow =>
    if 300 < ctx.tInWindow then (st.cleanupMarket slug, .idle, []) else (st, .idle, [])
  | .dailyPause => (st, .idle, [])
  | .riskSkip _ risk => ({ st with risk := risk }, .idle, [])
  | .strategySkip risk d strategy =>
    ({ st with risk := risk, strategy := strategy }, .idle, [.decided slug d])
  | .enter risk d strategy =>
    let req := entryRequest env conditionId ctx d.side
    let st := { st with risk := risk, strategy := strategy }
    match tryEnter env.execLib env.execCfg killSwitchActive req with
    | .error _ => (st, .idle, [.decided slug d, .tryEnter req])
    | .ok attempt => (st, .persistingOrder attempt, [.decided slug d, .tryEnter req])

/-- The driver when a tick comes to the gates: buffers updated, day rolled, and the market
marked if the first daily pause gate applies.
SOURCE: paper/driver.py:314-346 -/
def gateState (env : DriverEnv K S P) (st : DriverState K S) (d : TickDict K) :
    DriverState K S :=
  let o := observeTick env st d
  markDailyPause env (o.driver.rollDay o.ctx.ts) o.ctx.marketSlug

/-- `_handle_tick` up to its first `await`.
SOURCE: paper/driver.py:314-416 -/
def handleTick (env : DriverEnv K S P) (st : DriverState K S) (clock : K) (d : TickDict K)
    (killSwitchActive : Bool) : DriverState K S × Consumer K × List (DriverEvent K P) :=
  let o := observeTick env st d
  let st := gateState env st d
  let r := atGate env st clock (conditionIdOf d) killSwitchActive o.ctx
    (tickGate env st o.ctx o.recentTicks)
  (r.1, r.2.1, .tickHandled o.ctx :: o.driver.rollEvents o.ctx.ts ++
    pauseEvents env (o.driver.rollDay o.ctx.ts) o.ctx.marketSlug ++ r.2.2)

/-- What `_handle_tick` does when `try_enter` returns the position.
SOURCE: paper/driver.py:417-424 -/
def DriverState.recordEntry (st : DriverState K S) (pos : Position K) (slug : String) :
    DriverState K S :=
  { st with
    openPositions := st.openPositions.set slug pos
    tradeTaken := insert slug st.tradeTaken
    dailyTrades := st.dailyTrades + 1 }

/-- The consumer goes on with the answer it was waiting for.
SOURCE: paper/driver.py:417-482, paper/exec_client.py:136-230 -/
def consumerStep (env : DriverEnv K S P) (w : World K S) (clock : K) (reply : DbReply K) :
    World K S × List (DriverEvent K P) :=
  match w.consumer with
  | .idle => (w, [])
  | .settling job point =>
    let fills := point.write reply.write w.fills
    match settleStep env w.driver clock job point reply with
    | (driver, .waiting point, events) =>
      ({ w with driver := driver, consumer := .settling job point, fills := fills }, events)
    | (driver, _, events) =>
      ({ w with driver := driver, consumer := .idle, fills := fills }, events)
  | .persistingOrder attempt =>
    let orders := writeRow reply.write attempt.order w.orders
    match reply.write with
    | .committed => ({ w with orders := orders, consumer := .persistingFill attempt }, [])
    | _ => ({ w with orders := orders, consumer := .idle }, [])
  | .persistingFill attempt =>
    let fills := writeRow reply.write attempt.fill w.fills
    match reply.write with
    | .committed =>
      ({ w with
          driver := w.driver.recordEntry attempt.position attempt.position.marketSlug
          fills := fills
          consumer := .notifyingOpen }, [.entered attempt.position])
    | _ => ({ w with fills := fills, consumer := .idle }, [])
  | .notifyingOpen => ({ w with consumer := .idle }, [])

/-- The watchdog takes up the next of its expired positions, or goes back to sleep. -/
def Watchdog.next (now : K) (rest : List (String × Position K)) : Watchdog K :=
  match rest with
  | [] => .sleeping
  | e :: rest => .settling ⟨e.1, e.2, now⟩ .lastTick rest

/-- The watchdog wakes and lists the positions that closed more than 15 s ago.
SOURCE: paper/driver.py:498-508 -/
def watchdogWake (w : World K S) (clock : K) : World K S :=
  match w.watchdog with
  | .sleeping =>
    let expired := w.driver.openPositions.entries.filter fun e =>
      0 < e.2.windowCloseTs ∧ 15 < clock - e.2.windowCloseTs
    { w with watchdog := Watchdog.next clock expired }
  | .settling _ _ _ => w

/-- The watchdog goes on with the answer it was waiting for.
SOURCE: paper/driver.py:498-562 -/
def watchdogStep (env : DriverEnv K S P) (w : World K S) (clock : K) (reply : DbReply K) :
    World K S × List (DriverEvent K P) :=
  match w.watchdog with
  | .sleeping => (w, [])
  | .settling job point rest =>
    let fills := point.write reply.write w.fills
    match settleStep env w.driver clock job point reply with
    | (driver, .waiting point, events) =>
      ({ w with driver := driver, watchdog := .settling job point rest, fills := fills },
        events)
    | (driver, .returned, events) =>
      ({ w with driver := driver, watchdog := Watchdog.next job.now rest, fills := fills },
        events)
    | (driver, .raised, events) =>
      ({ w with driver := driver, watchdog := .sleeping, fills := fills }, events)

/-- One step of the system.  A tick or a control message waits while the consumer is busy.
SOURCE: paper/driver.py:133-201 -/
def driverStep (env : DriverEnv K S P) (w : World K S) (l : DriverLabel K) :
    World K S × List (DriverEvent K P) :=
  match l.action with
  | .tick d killSwitchActive =>
    match w.consumer with
    | .idle =>
      let (driver, consumer, events) := handleTick env w.driver l.clock d killSwitchActive
      ({ w with driver := driver, consumer := consumer }, events)
    | _ => (w, [])
  | .control msg =>
    match w.consumer with
    | .idle => ({ w with driver := w.driver.handleControlMessage msg }, [])
    | _ => (w, [])
  | .consumerResumes reply => consumerStep env w l.clock reply
  | .watchdogWakes => (watchdogWake w l.clock, [])
  | .watchdogResumes reply => watchdogStep env w l.clock reply
  | .orphanSweep => ({ w with driver := w.driver.orphanCleanup l.clock }, [])

/-- The paper driver as a machine. -/
def driverMachine (env : DriverEnv K S P) :
    Machine (World K S) (DriverLabel K) (DriverEvent K P) :=
  ⟨driverStep env⟩

end Driver

end TradingEdge.Program
