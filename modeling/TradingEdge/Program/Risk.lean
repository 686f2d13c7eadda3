import TradingEdge.Model.Types

/-!
# The risk manager

The gate in front of every entry (`engine/risk.py`): daily loss and trade limits,
cooldown, rolling-loss pause, and thresholds on spread, depth, z-score and edge.  Its
state rolls over at midnight UTC of the clock it is given.
-/

set_option autoImplicit false

namespace TradingEdge.Program

open TradingEdge.Model

/-- The limits of `cfg["risk"]`.
SOURCE: engine/risk.py:28-41 -/
structure RiskConfig (K : Type) where
  cooldownSeconds : ℤ
  dailyLossLimit : K
  dailyTradeLimit : ℤ
  minEdgeBps : K
  minZScore : K
  minDepth : K
  maxSpread : K
  lossPauseThreshold : K
  lossPauseWindowS : ℤ
  lossPauseDurationS : ℤ

/-- What the manager remembers within a day.  The two reasons are texts around one
amount, kept here as that amount.
SOURCE: engine/risk.py:14-24 -/
structure RiskState (K : Type) where
  cooldownUntil : K
  dailyPnl : K
  dailyTrades : ℤ
  dayKey : ℤ
  circuitBreakerTripped : Bool
  tripReason : Option K
  recentPnls : List (K × K)
  pauseUntil : K
  pauseReason : Option K

/-- Why an entry is refused, with the numbers its text shows.
SOURCE: engine/risk.py:52-77 -/
inductive RiskReason (K : Type) where
  | circuitBreaker (tripReason : Option K)
  | coolOff (remaining : ℤ) (pauseReason : Option K)
  | cooldown (remaining : ℤ)
  | dailyTrades (limit : ℤ)
  | dailyLossLimit (dailyPnl : K)
  | spread (bps : K)
  | depth (depth minDepth : K)
  | zScore (z minZScore : K)
  | edge (bps : K)

variable {K : Type} [Field K] [LinearOrder K] [FloorRing K]

/-- Limits that refuse nothing in an ordinary run. -/
def RiskConfig.permissive : RiskConfig K where
  cooldownSeconds := 0
  dailyLossLimit := 1000000
  dailyTradeLimit := 1000000
  minEdgeBps := 0
  minZScore := 0
  minDepth := 0
  maxSpread := 1000000
  lossPauseThreshold := 0
  lossPauseWindowS := 0
  lossPauseDurationS := 0

/-- The state at the start of a day.
SOURCE: engine/risk.py:41, 50 -/
def RiskState.fresh (day : ℤ) : RiskState K where
  cooldownUntil := 0
  dailyPnl := 0
  dailyTrades := 0
  dayKey := day
  circuitBreakerTripped := false
  tripReason := none
  recentPnls := []
  pauseUntil := 0
  pauseReason := none

/-- The state `__init__` leaves. -/
def RiskState.init : RiskState K := RiskState.fresh (utcDay (0 : K))

/-- A new day starts from a fresh state.
SOURCE: engine/risk.py:47-50 -/
def RiskState.rollDay (s : RiskState K) (now : K) : RiskState K :=
  if utcDay now ≠ s.dayKey then RiskState.fresh (utcDay now) else s

/-- The gate: `none` lets the entry pass.
SOURCE: engine/risk.py:52-77 -/
def canEnter (cfg : RiskConfig K) (s : RiskState K) (ctx : TickContext K) :
    Option (RiskReason K) × RiskState K :=
  let now := ctx.ts
  let s := s.rollDay now
  let depthNeeded := min ctx.pmDepthYes ctx.pmDepthNo
  if s.circuitBreakerTripped then (some (.circuitBreaker s.tripReason), s)
  else if now < s.pauseUntil then
    (some (.coolOff ⌊s.pauseUntil - now⌋ s.pauseReason), s)
  else if now < s.cooldownUntil then (some (.cooldown ⌊s.cooldownUntil - now⌋), s)
  else if cfg.dailyTradeLimit ≤ s.dailyTrades then
    (some (.dailyTrades cfg.dailyTradeLimit), s)
  else if s.dailyPnl ≤ -cfg.dailyLossLimit then
    (some (.dailyLossLimit s.dailyPnl),
      { s with circuitBreakerTripped := true, tripReason := some s.dailyPnl })
  else if cfg.maxSpread < ctx.pmSpreadBps then (some (.spread ctx.pmSpreadBps), s)
  else if depthNeeded < cfg.minDepth then (some (.depth depthNeeded cfg.minDepth), s)
  else if |ctx.zScore| < cfg.minZScore then (some (.zScore ctx.zScore cfg.minZScore), s)
  else if |ctx.edge| * 10000 < cfg.minEdgeBps then (some (.edge (|ctx.edge| * 10000)), s)
  else (none, s)

/-- A closed trade is booked, starts the cooldown, and pauses entries when the rolling
loss is reached.
SOURCE: engine/risk.py:79-93 -/
def onTradeClosed (cfg : RiskConfig K) (s : RiskState K) (pnl now : K) : RiskState K :=
  let s := s.rollDay now
  let s := { s with
    dailyPnl := s.dailyPnl + pnl
    dailyTrades := s.dailyTrades + 1
    cooldownUntil := now + cfg.cooldownSeconds }
  if 0 < cfg.lossPauseThreshold then
    let cutoff := now - cfg.lossPauseWindowS
    let recent := (s.recentPnls ++ [(now, pnl)]).dropWhile fun e => e.1 < cutoff
    let windowPnl := (recent.map Prod.snd).sum
    if windowPnl ≤ -cfg.lossPauseThreshold then
      { s with
        recentPnls := []
        pauseUntil := now + cfg.lossPauseDurationS
        pauseReason := some windowPnl }
    else { s with recentPnls := recent }
  else s

end TradingEdge.Program
