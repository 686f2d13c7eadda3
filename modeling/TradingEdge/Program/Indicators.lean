import Mathlib.Data.List.DropRight
import TradingEdge.Model.Types

/-!
# The indicator stack

The per-market indicators that both drivers recompute tick by tick
(`engine/indicators.py`): moving averages, RSI, realised and EWMA volatility, the
Black-Scholes probability of closing up, and the z-score of its edge over the quoted
probability.  A deque with `maxlen` is a list cut to its last elements.
-/

set_option autoImplicit false

namespace TradingEdge.Program

open TradingEdge.Model

variable {K : Type} [Field K] [LinearOrder K]

/-- SOURCE: engine/indicators.py:16-20 -/
structure EMA (K : Type) where
  period : ℕ
  value : K
  initialized : Bool

/-- The first value is taken as it is, later ones are smoothed.
SOURCE: engine/indicators.py:22-29 -/
def EMA.update (e : EMA K) (x : K) : EMA K :=
  if e.initialized then
    let alpha : K := 2 / (e.period + 1)
    { e with value := alpha * x + (1 - alpha) * e.value }
  else { e with value := x, initialized := true }

/-- SOURCE: engine/indicators.py:32-37 -/
structure RSI (K : Type) where
  period : ℕ
  gains : List K
  losses : List K
  prev : Option K

/-- The index and the state after a price.
SOURCE: engine/indicators.py:39-54 -/
def RSI.update (r : RSI K) (x : K) : K × RSI K :=
  match r.prev with
  | none => (50, { r with prev := some x })
  | some prev =>
    let delta := x - prev
    let gains := (r.gains ++ [max delta 0]).rtake 500
    let losses := (r.losses ++ [max (-delta) 0]).rtake 500
    let r := { r with gains := gains, losses := losses, prev := some x }
    if gains.length < r.period then (50, r)
    else
      let avgG := (gains.rtake r.period).sum / r.period
      let avgL := (losses.rtake r.period).sum / r.period
      if avgL = 0 then (100, r)
      else (100 - 100 / (1 + avgG / avgL), r)

/-- SOURCE: engine/indicators.py:57-63 -/
structure RealizedVol (K : Type) where
  windowSeconds : ℕ
  returns : List K
  prev : Option K

/-- Seconds in a year of 365 days. -/
def secondsPerYear : K := 365 * 24 * 3600

/-- The annualised standard deviation of the last log returns, and the state after a price.
SOURCE: engine/indicators.py:65-75 -/
def RealizedVol.update (lib : MathLib K) (v : RealizedVol K) (x : K) : K × RealizedVol K :=
  let returns :=
    match v.prev with
    | none => v.returns
    | some prev =>
      if 0 < prev ∧ 0 < x then (v.returns ++ [lib.log (x / prev)]).rtake 3600
      else v.returns
  let v := { v with returns := returns, prev := some x }
  let n := min returns.length v.windowSeconds
  if n < 2 then (0, v)
  else
    let sample := returns.rtake n
    let mean : K := sample.sum / n
    let var : K := (sample.map fun r => (r - mean) ^ 2).sum / (n - 1)
    (lib.sqrt (var * secondsPerYear), v)

/-- SOURCE: engine/indicators.py:78-84 -/
structure EWMAVol (K : Type) where
  lam : K
  var : K
  prev : Option K

/-- The annualised EWMA volatility, and the state after a price.
SOURCE: engine/indicators.py:86-93 -/
def EWMAVol.update (lib : MathLib K) (v : EWMAVol K) (x : K) : K × EWMAVol K :=
  match v.prev with
  | none => (0, { v with prev := some x })
  | some prev =>
    if prev ≤ 0 ∨ x ≤ 0 then (0, { v with prev := some x })
    else
      let r := lib.log (x / prev)
      let var := v.lam * v.var + (1 - v.lam) * r * r
      (lib.sqrt (var * secondsPerYear), { v with var := var, prev := some x })

/-- SOURCE: engine/indicators.py:96-97 -/
def normCdf (lib : MathLib K) (x : K) : K := 1 / 2 * (1 + lib.erf (x / lib.sqrt 2))

/-- The probability that a driftless geometric Brownian motion ends above the strike.
SOURCE: engine/indicators.py:100-105 -/
def blackScholesBinaryProb (lib : MathLib K) (spot strike sigma t : K) : K :=
  if t ≤ 0 ∨ sigma ≤ 0 ∨ spot ≤ 0 ∨ strike ≤ 0 then 1 / 2
  else
    let d2 := (lib.log (spot / strike) - sigma ^ 2 / 2 * t) / (sigma * lib.sqrt t)
    normCdf lib d2

/-- The z-score of the last of the values within the last `window` of them.
SOURCE: engine/indicators.py:108-116 -/
def rollingZscore (lib : MathLib K) (values : List K) (window : ℕ) : K :=
  if values.length < 2 then 0
  else
    let sample := values.rtake window
    let n := sample.length
    let mean : K := sample.sum / n
    let var : K := (sample.map fun v => (v - mean) ^ 2).sum / (max (n - 1) 1 : ℕ)
    let std : K := if 0 < var then lib.sqrt var else 1 / 1000000000
    (values.getLast?.getD 0 - mean) / std

/-- SOURCE: engine/indicators.py:119-140 -/
structure IndicatorStack (K : Type) where
  emaFast : EMA K
  emaSlow : EMA K
  rsi : RSI K
  volRealized : RealizedVol K
  volEwma : EWMAVol K
  recentEdges : List K

/-- The periods a stack is built with.
SOURCE: engine/indicators.py:128-132, engine/backtest_driver.py:81-87 -/
structure IndicatorConfig (K : Type) where
  emaFastPeriod : ℕ
  emaSlowPeriod : ℕ
  rsiPeriod : ℕ
  volWindowSeconds : ℕ
  volEwmaLambda : K

/-- The defaults, which the paper driver uses. -/
def IndicatorConfig.default : IndicatorConfig K where
  emaFastPeriod := 12
  emaSlowPeriod := 26
  rsiPeriod := 14
  volWindowSeconds := 60
  volEwmaLambda := 94 / 100

/-- `IndicatorStack(...)`.
SOURCE: engine/indicators.py:134-140 -/
def IndicatorStack.init (cfg : IndicatorConfig K) : IndicatorStack K where
  emaFast := ⟨cfg.emaFastPeriod, 0, false⟩
  emaSlow := ⟨cfg.emaSlowPeriod, 0, false⟩
  rsi := ⟨cfg.rsiPeriod, [], [], none⟩
  volRealized := ⟨cfg.volWindowSeconds, [], none⟩
  volEwma := ⟨cfg.volEwmaLambda, 0, none⟩
  recentEdges := []

/-- The tick with its indicator fields overwritten, and the stack after it.
SOURCE: engine/indicators.py:142-156 -/
def IndicatorStack.update (lib : MathLib K) (st : IndicatorStack K) (ctx : TickContext K) :
    TickContext K × IndicatorStack K :=
  let emaFast := st.emaFast.update ctx.spotPrice
  let emaSlow := st.emaSlow.update ctx.spotPrice
  let (rsi14, rsi) := st.rsi.update ctx.spotPrice
  let (volRealized, volRealizedSt) := st.volRealized.update lib ctx.spotPrice
  let (volEwma, volEwmaSt) := st.volEwma.update lib ctx.spotPrice
  let tYears := max (ctx.tToClose / secondsPerYear) (1 / 100000000)
  let sigma := if 0 < volEwma then volEwma else 80 / 100
  let modelProbYes := blackScholesBinaryProb lib ctx.spotPrice ctx.openPrice sigma tYears
  let edge := modelProbYes - ctx.impliedProbYes
  let recentEdges := (st.recentEdges ++ [edge]).rtake 120
  let zScore := rollingZscore lib recentEdges 60
  ({ ctx with
      emaFast := emaFast.value
      emaSlow := emaSlow.value
      rsi14 := rsi14
      volRealized := volRealized
      volEwma := volEwma
      modelProbYes := modelProbYes
      edge := edge
      zScore := zScore },
    { emaFast := emaFast
      emaSlow := emaSlow
      rsi := rsi
      volRealized := volRealizedSt
      volEwma := volEwmaSt
      recentEdges := recentEdges })

/-! The update writes the derived fields only: time, market, quotes and prices stay. -/

section Frame

variable (lib : MathLib K) (st : IndicatorStack K) (ctx : TickContext K)

/-- The indicators leave the time alone. -/
@[simp] theorem IndicatorStack.update_ts : (st.update lib ctx).1.ts = ctx.ts := rfl

/-- They leave the market alone. -/
@[simp] theorem IndicatorStack.update_marketSlug :
    (st.update lib ctx).1.marketSlug = ctx.marketSlug := rfl

/-- They leave the second of the window alone. -/
@[simp] theorem IndicatorStack.update_tInWindow :
    (st.update lib ctx).1.tInWindow = ctx.tInWindow := rfl

/-- They leave the closing time alone. -/
@[simp] theorem IndicatorStack.update_windowCloseTs :
    (st.update lib ctx).1.windowCloseTs = ctx.windowCloseTs := rfl

/-- They leave the price alone. -/
@[simp] theorem IndicatorStack.update_spotPrice :
    (st.update lib ctx).1.spotPrice = ctx.spotPrice := rfl

end Frame

end TradingEdge.Program
