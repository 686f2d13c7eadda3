import TradingEdge.Model.Types
import TradingEdge.Program.AlertClient
import TradingEdge.Program.MacroProvider

/-!
# The watcher

The watcher looks at the engine's heartbeat in Redis every half minute and, in a second loop, at
the state of the engine, the kill switch, the day's result and the last trade every minute or
less often.  Each look sends an alert when what it sees has changed for the worse, the first one
also when the heartbeat is back.  The loops share one client, and what they do between two awaits
is one step here.

`formatMoney` stands for the format `,.2f`.  A trade comes with its time as far as it can be read.
A look that raises changes nothing and is left out.
-/

set_option autoImplicit false

namespace TradingEdge.Program

open TradingEdge.Model TradingEdge.Library

/-- SOURCE: bots/telegram/watcher.py:24 -/
def checkIntervalS : ℚ := 30

/-- SOURCE: bots/telegram/watcher.py:25 -/
def lostThresholdS : ℚ := 60

/-- How long Redis keeps a heartbeat.
SOURCE: paper/heartbeat.py:45 -/
def heartbeatTtl : ℚ := 120

/-- SOURCE: common/config.py:57-59 -/
structure WatcherConfig where
  observabilityIntervalS : ℤ
  observabilityPnlAlertThreshold : ℚ
  observabilityStaleTradeMinutes : ℤ
  formatMoney : ℚ → String

/-- The heartbeat that Redis holds with the time it expires at, the client, and what the loops
remember of their last look.
SOURCE: bots/telegram/watcher.py:29-41 -/
structure Watcher where
  heartbeatKey : Option (ℚ × ℚ)
  tg : TelegramClient
  lastStateLost : Bool
  engineAlertActive : Bool
  killswitchAlertActive : Bool
  staleTradesAlertActive : Bool
  pnlAlertDay : Option ℤ

/-- SOURCE: bots/telegram/watcher.py:29-41 -/
def Watcher.new : Watcher := ⟨none, .new, false, false, false, false, none⟩

/-- A heartbeat that is stored, a look of one of the loops with what it reads and when, and the
answer to a message of the client.  `dedupeAt` and `circuitAt` are what the client reads off the
clock if the look sends an alert. -/
inductive WatcherLabel where
  | beat (ts setAt : ℚ)
  | heartbeat (getAt now dedupeAt circuitAt : ℚ)
  | engine (engineUp : Bool) (dedupeAt circuitAt : ℚ)
  | killSwitch (active : Bool) (dedupeAt circuitAt : ℚ)
  | pnl (pnl : ℚ) (nTrades : ℤ) (readAt dedupeAt circuitAt : ℚ)
  | trades (latest : Option (Option ℚ)) (readAt dedupeAt circuitAt : ℚ)
  | answered (ok : Bool) (now : ℚ)

/-- An alert that a look sends, and what the client notes down. -/
inductive WatcherNote where
  | raised (event : AlertEvent) (now : ℚ)
  | client (note : AlertNote)
deriving DecidableEq

/-! ## What a look sends -/

/-- SOURCE: notifications/telegram.py:143-148, bots/telegram/watcher.py:57 -/
def heartbeatLost (age : Option ℚ) : AlertEvent :=
  let ageS : ℤ :=
    match age with
    | none => 9999
    | some a => if a = 0 then 9999 else truncated a
  ⟨"HEARTBEAT_LOST", "🔴 heartbeat lost, last seen " ++ toString ageS ++ "s ago", .crit⟩

/-- SOURCE: notifications/telegram.py:151-155 -/
def heartbeatRecovered : AlertEvent := ⟨"HEARTBEAT_RECOVERED", "🟢 heartbeat recovered", .info⟩

/-- SOURCE: bots/telegram/watcher.py:155-161 -/
def controlEngineDown : AlertEvent :=
  ⟨"CONTROL_ENGINE_DOWN", "control loop detected engine down via /health", .crit⟩

/-- SOURCE: bots/telegram/watcher.py:166-172 -/
def controlKillSwitchOn : AlertEvent :=
  ⟨"CONTROL_KILL_SWITCH_ON", "control loop detected KILL_SWITCH active", .crit⟩

/-- SOURCE: bots/telegram/watcher.py:182-191 -/
def controlPnlAlert (cfg : WatcherConfig) (pnl : ℚ) (nTrades : ℤ) : AlertEvent :=
  ⟨"CONTROL_PNL_ALERT", "daily pnl anomaly detected: $" ++ cfg.formatMoney pnl ++ " across " ++
    toString nTrades ++ " trades", .warn⟩

/-- SOURCE: bots/telegram/watcher.py:197-206 -/
def controlStaleTrades (cfg : WatcherConfig) : AlertEvent :=
  ⟨"CONTROL_STALE_TRADES", "recent trade feed looks stale based on /trades/recent (threshold " ++
    toString cfg.observabilityStaleTradeMinutes ++ " min)", .warn⟩

/-! ## The looks -/

/-- What Redis answers: a heartbeat is there until it expires. -/
def Watcher.readHeartbeat (w : Watcher) (getAt : ℚ) : Option ℚ :=
  w.heartbeatKey.bind fun (ts, expiresAt) => if getAt < expiresAt then some ts else none

/-- SOURCE: bots/telegram/watcher.py:50-55 -/
def heartbeatIsLost (raw : Option ℚ) (now : ℚ) : Bool :=
  match raw with
  | none => true
  | some ts => lostThresholdS < now - ts

/-- SOURCE: bots/telegram/watcher.py:209-221 -/
def tradeIsStale (cfg : WatcherConfig) (trade : Option (Option ℚ)) (now : ℚ) : Bool :=
  match trade with
  | some (some ts) => (cfg.observabilityStaleTradeMinutes : ℚ) * 60 < now - ts
  | _ => true

def Watcher.send (w : Watcher) (event : AlertEvent) (dedupeAt circuitAt : ℚ) :
    Watcher × List WatcherNote :=
  let (tg, notes) := w.tg.step (.send event dedupeAt circuitAt)
  ({ w with tg := tg }, .raised event dedupeAt :: notes.map .client)

/-- SOURCE: bots/telegram/watcher.py:43-63 -/
def Watcher.checkHeartbeat (w : Watcher) (getAt now dedupeAt circuitAt : ℚ) :
    Watcher × List WatcherNote :=
  let raw := w.readHeartbeat getAt
  let ageS := raw.map fun ts => now - ts
  let lost := heartbeatIsLost raw now
  let (w', notes) :=
    if lost && !w.lastStateLost then w.send (heartbeatLost ageS) dedupeAt circuitAt
    else if !lost && w.lastStateLost then w.send heartbeatRecovered dedupeAt circuitAt
    else (w, [])
  ({ w' with lastStateLost := lost }, notes)

/-- One step.  The looks of the second loop are the parts of `_observe_once`.
SOURCE: bots/telegram/watcher.py:43-63, 151-207, paper/heartbeat.py:34-50 -/
def Watcher.step (cfg : WatcherConfig) (w : Watcher) : WatcherLabel → Watcher × List WatcherNote
  | .beat ts setAt => ({ w with heartbeatKey := some (ts, setAt + heartbeatTtl) }, [])
  | .heartbeat getAt now dedupeAt circuitAt => w.checkHeartbeat getAt now dedupeAt circuitAt
  | .engine engineUp dedupeAt circuitAt =>
    let engineDown := !engineUp
    let (w', notes) :=
      if engineDown && !w.engineAlertActive then w.send controlEngineDown dedupeAt circuitAt
      else (w, [])
    ({ w' with engineAlertActive := engineDown }, notes)
  | .killSwitch active dedupeAt circuitAt =>
    let (w', notes) :=
      if active && !w.killswitchAlertActive then w.send controlKillSwitchOn dedupeAt circuitAt
      else (w, [])
    ({ w' with killswitchAlertActive := active }, notes)
  | .pnl pnl nTrades readAt dedupeAt circuitAt =>
    let today := utcDay readAt
    if pnl ≤ cfg.observabilityPnlAlertThreshold ∧ w.pnlAlertDay ≠ some today then
      { w with pnlAlertDay := some today }.send (controlPnlAlert cfg pnl nTrades) dedupeAt circuitAt
    else (w, [])
  | .trades latest readAt dedupeAt circuitAt =>
    let stale := tradeIsStale cfg latest readAt
    let (w', notes) :=
      if stale && !w.staleTradesAlertActive then w.send (controlStaleTrades cfg) dedupeAt circuitAt
      else (w, [])
    ({ w' with staleTradesAlertActive := stale }, notes)
  | .answered ok now =>
    let (tg, notes) := w.tg.step (.answered ok now)
    ({ w with tg := tg }, notes.map .client)

def watcherMachine (cfg : WatcherConfig) : Machine Watcher WatcherLabel WatcherNote :=
  ⟨Watcher.step cfg⟩

/-! ## The clock and the pace -/

/-- The looks, each of which comes round in its own loop. -/
inductive Look where
  | heartbeat
  | engine
  | killSwitch
  | pnl
  | trades
deriving DecidableEq

def WatcherLabel.look : WatcherLabel → Option Look
  | .heartbeat .. => some .heartbeat
  | .engine .. => some .engine
  | .killSwitch .. => some .killSwitch
  | .pnl .. => some .pnl
  | .trades .. => some .trades
  | _ => none

/-- How long a loop sleeps between two looks at least.
SOURCE: bots/telegram/watcher.py:63, 149 -/
def Look.period (cfg : WatcherConfig) : Look → ℚ
  | .heartbeat => checkIntervalS
  | _ => max 60 (cfg.observabilityIntervalS : ℚ)

/-- The times a step reads off the clock. -/
def WatcherLabel.times : WatcherLabel → List ℚ
  | .beat _ setAt => [setAt]
  | .heartbeat getAt now dedupeAt circuitAt => [getAt, now, dedupeAt, circuitAt]
  | .engine _ dedupeAt circuitAt => [dedupeAt, circuitAt]
  | .killSwitch _ dedupeAt circuitAt => [dedupeAt, circuitAt]
  | .pnl _ _ readAt dedupeAt circuitAt => [readAt, dedupeAt, circuitAt]
  | .trades _ readAt dedupeAt circuitAt => [readAt, dedupeAt, circuitAt]
  | .answered _ now => [now]

/-- What holds of the clock at a step after `pre`: it does not go back, it shows a minute at
least, a loop has slept since its last look, and heartbeats are stored one after the other. -/
structure OnTime (cfg : WatcherConfig) (pre : List WatcherLabel) (l : WatcherLabel) : Prop where
  sorted : l.times.Pairwise (· ≤ ·)
  minute : ∀ t ∈ l.times, dedupeSeconds ≤ t
  forward : ∀ l' ∈ pre, ∀ t' ∈ l'.times, ∀ t ∈ l.times, t' ≤ t
  slept : ∀ look, l.look = some look → ∀ l' ∈ pre, l'.look = some look →
    ∀ t' ∈ l'.times, ∀ t ∈ l.times, t' + look.period cfg ≤ t
  beats : ∀ ts setAt, l = .beat ts setAt →
    ts ≤ setAt ∧ ∀ ts' setAt', .beat ts' setAt' ∈ pre → setAt' ≤ ts

end TradingEdge.Program
