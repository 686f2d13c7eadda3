import TradingEdge.Model.Types

/-!
# Ticks on the wire

The tick messages of the Redis channel: what the recorder publishes about a market, and
how the paper driver reads one back (`_tick_from_dict`).  A missing or null number is read
as zero.
-/

set_option autoImplicit false

namespace TradingEdge.Program

open TradingEdge.Model

/-- The JSON object of a tick.  The three fields without `Option` are required.
SOURCE: paper/tick_recorder.py:138-160, paper/driver.py:793-825 -/
structure TickDict (K : Type) where
  ts : K
  windowCloseTs : K
  marketSlug : String
  conditionId : Option String := none
  tInWindow : Option K := none
  spotPrice : Option K := none
  chainlinkPrice : Option K := none
  openPrice : Option K := none
  pmYesBid : Option K := none
  pmYesAsk : Option K := none
  pmNoBid : Option K := none
  pmNoAsk : Option K := none
  pmDepthYes : Option K := none
  pmDepthNo : Option K := none
  pmImbalance : Option K := none
  pmSpreadBps : Option K := none
  impliedProbYes : Option K := none

variable {K : Type} [Field K] [LinearOrder K]

/-- `float(d.get(key, 0.0) or 0.0)`. -/
def orZero (x : Option K) : K := x.getD 0

/-- The difference of the spot to the open price in basis points, zero without an open
price.
SOURCE: paper/driver.py:798-800, paper/backtest_loader.py:227-229 -/
def deltaBps (spot openPrice : K) : K :=
  if 0 < openPrice then (spot - openPrice) / openPrice * 10000 else 0

/-- The context of a tick message; the indicator fields are at their defaults.
SOURCE: paper/driver.py:793-825 -/
def tickFromDict (d : TickDict K) : TickContext K :=
  let spot := orZero d.spotPrice
  let openPrice := orZero d.openPrice
  { ts := d.ts
    marketSlug := d.marketSlug
    tInWindow := orZero d.tInWindow
    windowCloseTs := d.windowCloseTs
    spotPrice := spot
    chainlinkPrice := d.chainlinkPrice.filter (· ≠ 0)
    openPrice := openPrice
    pmYesBid := orZero d.pmYesBid
    pmYesAsk := orZero d.pmYesAsk
    pmNoBid := orZero d.pmNoBid
    pmNoAsk := orZero d.pmNoAsk
    pmDepthYes := orZero d.pmDepthYes
    pmDepthNo := orZero d.pmDepthNo
    pmImbalance := orZero d.pmImbalance
    pmSpreadBps := orZero d.pmSpreadBps
    impliedProbYes := orZero d.impliedProbYes
    modelProbYes := 0
    edge := 0
    zScore := 0
    tToClose := max 0 (d.windowCloseTs - d.ts)
    emaFast := 0
    emaSlow := 0
    rsi14 := 50
    volRealized := 0
    volEwma := 0
    deltaBps := deltaBps spot openPrice }

/-- The condition id of a message, or one made from the slug for messages without it.
SOURCE: paper/driver.py:828-831 -/
def conditionIdOf (d : TickDict K) : String :=
  match d.conditionId with
  | some cid => if cid ≠ "" then cid else "local:" ++ d.marketSlug
  | none => "local:" ++ d.marketSlug

section Fields

variable (d : TickDict K)

/-- The tick has the time of the message. -/
@[simp] theorem tickFromDict_ts : (tickFromDict d).ts = d.ts := rfl

/-- The tick has the market of the message. -/
@[simp] theorem tickFromDict_marketSlug : (tickFromDict d).marketSlug = d.marketSlug := rfl

/-- The tick has the second of the message, zero if it has none. -/
@[simp] theorem tickFromDict_tInWindow :
    (tickFromDict d).tInWindow = orZero d.tInWindow := rfl

/-- The tick has the closing time of the message. -/
@[simp] theorem tickFromDict_windowCloseTs :
    (tickFromDict d).windowCloseTs = d.windowCloseTs := rfl

end Fields

end TradingEdge.Program
