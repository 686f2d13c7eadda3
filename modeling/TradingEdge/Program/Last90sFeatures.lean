import TradingEdge.Program.MacroProvider

/-!
# The feature vector of the last-90-seconds forecaster

`build_vector` of `strategies/polymarket_btc5m/_v2_features.py` puts together 21 numbers: the
micro features of a series of spot prices (`engine/features/micro.py`, `jumps.py`), the macro
snapshot, the book of the market and the time of day.  Behind them stand the five microstructure
features of the Binance tape (`engine/features/binance_microstructure.py`).  Training and serving
call the same functions.
-/

set_option autoImplicit false

namespace TradingEdge.Program

open TradingEdge.Library TradingEdge.Model

/-- The circular functions of `math`. -/
structure Trig (K : Type) where
  pi : K
  sin : K → K
  cos : K → K

/-- Rational stand-ins, for running the model where the values do not matter. -/
def Trig.rational : Trig ℚ := ⟨22 / 7, id, id⟩

variable {K : Type} [Field K] [LinearOrder K]

/-! ## The series of spot prices -/

/-- The consecutive pairs of a series. -/
def steps (w : List K) : List (K × K) := w.zip w.tail

/-- The change of the last price on the one `lookback` samples before it, in basis points; zero
on a shorter series.
SOURCE: engine/features/micro.py:15-28 -/
def momentumBps (spots : List K) (lookback : ℕ) : K :=
  if lookback < 1 ∨ spots.length < lookback + 1 then 0
  else
    let w := spots.rtake (lookback + 1)
    let past := w.headD 0
    let now := w.getLastD 0
    if past ≤ 0 then 0 else (now / past - 1) * 10000

/-- The log returns of the steps between positive prices.
SOURCE: engine/features/micro.py:42-47 -/
def stepReturns (lib : MathLib K) (w : List K) : List K :=
  (steps w).filterMap fun s => if s.1 ≤ 0 ∨ s.2 ≤ 0 then none else some (lib.log (s.2 / s.1))

/-- The standard deviation of a sample.
SOURCE: engine/features/micro.py:50-52 -/
def sampleStd (lib : MathLib K) (rets : List K) : K :=
  let mean := rets.sum / rets.length
  let var := (rets.map fun r => (r - mean) ^ 2).sum / ((rets.length : K) - 1)
  lib.sqrt (max var 0)

/-- The volatility of the last `window` steps; zero on a shorter series.
SOURCE: engine/features/micro.py:31-52 -/
def realizedVolYz (lib : MathLib K) (spots : List K) (window : ℕ) : K :=
  if window < 2 ∨ spots.length < window + 1 then 0
  else
    let rets := stepReturns lib (spots.rtake (window + 1))
    if rets.length < 2 then 0 else sampleStd lib rets

/-- How many steps go up.
SOURCE: engine/features/micro.py:60-63 -/
def upSteps (w : List K) : ℕ := (steps w).countP fun s => s.1 < s.2

/-- The fraction of the last `window` steps that go up; zero on a shorter series.
SOURCE: engine/features/micro.py:55-64 -/
def tickUpRatio (spots : List K) (window : ℕ) : K :=
  if window < 1 ∨ spots.length < window + 1 then 0
  else (upSteps (spots.rtake (window + 1)) : K) / window

/-- One of the last returns is larger than `zThreshold` times the bipower volatility.
SOURCE: engine/features/jumps.py:14-42 -/
def leeMyklandJumpFlag (lib : MathLib K) (trig : Trig K) (spots : List K) (window : ℕ)
    (zThreshold : K) : Bool :=
  if window < 4 ∨ spots.length < window + 1 then false
  else
    let rets : List K := (steps (spots.rtake (window + 1))).map fun s =>
      if s.1 ≤ 0 ∨ s.2 ≤ 0 then 0 else lib.log (s.2 / s.1)
    if rets.length < 3 then false
    else
      let bipower : K := ((steps rets).map fun s => |s.2| * |s.1|).sum
      let k : K := trig.pi / 2 / (max (rets.length - 1) 1 : ℕ)
      let localVar : K := k * bipower
      if localVar ≤ 1 / 10 ^ (20 : ℕ) then false
      else
        let sigma := lib.sqrt localVar
        rets.any fun r => zThreshold < |r| / sigma

/-! ## The flow of the tape -/

section Flow

variable {K : Type} [Zero K] [One K] [Add K] [Sub K] [Neg K] [Mul K] [Div K] [NatCast K]
  [LE K] [DecidableLE K]

/-- SOURCE: engine/features/binance_microstructure.py:65-72 -/
def cvdNormalized (trades : List (TapeTrade K)) : K :=
  let total := leftSum (trades.map TapeTrade.qty)
  if trades = [] ∨ total ≤ 0 then 0
  else leftSum (trades.map fun t => if t.side = "buy" then t.qty else -t.qty) / total

/-- SOURCE: engine/features/binance_microstructure.py:105-118 -/
def signedTradeAutocorrLag1 (trades : List (TapeTrade K)) : K :=
  if trades.length < 10 then 0
  else
    let s : List K := trades.map fun t => if t.side = "buy" then 1 else -1
    let mu := leftSum s / s.length
    let centered := s.map fun v => v - mu
    let var := leftSum (centered.map fun c => c * c) / s.length
    if var ≤ 1 / 1000000000 then 0
    else leftSum ((steps centered).map fun c => c.1 * c.2) / ((s.length : K) - 1) / var

end Flow

/-! ## The book and the tape -/

/-- The microprice of the YES and NO asks.
SOURCE: engine/features/microprice.py:6-19 -/
def stoikovMicroprice (yesAsk noAsk depthYes depthNo : K) : K :=
  let total := max (depthYes + depthNo) (1 / 10 ^ 12)
  (depthNo * yesAsk + depthYes * (1 - noAsk)) / total

/-- SOURCE: engine/features/binance_microstructure.py:75-81 -/
def takerBuyRatio (trades : List (TapeTrade K)) : K :=
  let total := (trades.map TapeTrade.qty).sum
  if trades = [] ∨ total ≤ 0 then 1 / 2
  else ((trades.filter fun t => t.side = "buy").map TapeTrade.qty).sum / total

/-- SOURCE: engine/features/binance_microstructure.py:84-95 -/
def tradeIntensity (nInWindow : ℕ) (baselineTrades24h windowS : ℤ) : K :=
  if baselineTrades24h ≤ 0 ∨ windowS ≤ 0 then 1
  else
    let nWindows24h : K := max 1 (86400 / windowS)
    let baselinePerWindow := baselineTrades24h / nWindows24h
    if baselinePerWindow < 100 then 1 else nInWindow / baselinePerWindow

/-- SOURCE: engine/features/binance_microstructure.py:98-102 -/
def largeTradeFlag (trades : List (TapeTrade K)) (thresholdUsd : K) : K :=
  if trades.any fun t => thresholdUsd ≤ t.price * t.qty then 1 else 0

/-- The five features of the tape.
SOURCE: engine/features/binance_microstructure.py:46-62 -/
structure Microstructure (K : Type) where
  cvdNormalized : K
  takerBuyRatio : K
  tradeIntensity : K
  largeTradeFlag : K
  signedAutocorrLag1 : K

/-- SOURCE: engine/features/binance_microstructure.py:124-140 -/
def binanceMicrostructureFromTrades (trades : List (TapeTrade K)) (baselineTrades24h windowS : ℤ)
    (largeThresholdUsd : K) : Microstructure K where
  cvdNormalized := Program.cvdNormalized trades
  takerBuyRatio := Program.takerBuyRatio trades
  tradeIntensity := Program.tradeIntensity trades.length baselineTrades24h windowS
  largeTradeFlag := Program.largeTradeFlag trades largeThresholdUsd
  signedAutocorrLag1 := signedTradeAutocorrLag1 trades

/-- The features in the order of `_V3_TAIL`.
SOURCE: strategies/polymarket_btc5m/last_90s_forecaster_v3.py:44-50, 154 -/
def Microstructure.tail (m : Microstructure K) : List K :=
  [m.cvdNormalized, m.takerBuyRatio, m.tradeIntensity, m.largeTradeFlag, m.signedAutocorrLag1]

/-! ## The vector -/

/-- SOURCE: strategies/polymarket_btc5m/_v2_features.py:29-51 -/
def featureNamesBase : List String :=
  ["m30_bps", "m60_bps", "m90_bps", "rv_90s", "tick_up_ratio", "ema8_vs_ema34_pct", "adx_14",
    "consecutive_same_dir", "regime_uptrend", "regime_downtrend", "regime_range",
    "implied_prob_yes", "microprice", "microprice_minus_implied", "pm_imbalance",
    "pm_spread_bps", "lee_mykland_jump_60s", "hour_sin", "hour_cos", "dow_sin", "dow_cos"]

/-- SOURCE: strategies/polymarket_btc5m/last_90s_forecaster_v3.py:44-54 -/
def featureNamesV3 : List String :=
  featureNamesBase ++ ["bm_cvd_normalized", "bm_taker_buy_ratio", "bm_trade_intensity",
    "bm_large_trade_flag", "bm_signed_autocorr_lag1"]

/-- What the base vector is built from.
SOURCE: strategies/polymarket_btc5m/_v2_features.py:65-91 -/
structure V2FeatureInputs (K : Type) where
  asOfTs : K
  spotsLast90s : List K
  macroSnap : MacroSnapshot K
  impliedProbYes : K
  yesAsk : K
  noAsk : K
  depthYes : K
  depthNo : K
  pmImbalance : K
  pmSpreadBps : K

variable [FloorRing K]

/-- The hour of the UTC day with its minutes as a fraction.
SOURCE: strategies/polymarket_btc5m/_v2_features.py:110-111 -/
def utcHour (ts : K) : K := ((⌊ts / 3600⌋ % 24 : ℤ) : K) + ((⌊ts / 60⌋ % 60 : ℤ) : K) / 60

/-- The day of the week, Monday being zero; 1970-01-01 was a Thursday.
SOURCE: strategies/polymarket_btc5m/_v2_features.py:114 -/
def weekday (ts : K) : ℤ := (utcDay ts + 3) % 7

/-- The base vector, without the Brownian bridge block.
SOURCE: strategies/polymarket_btc5m/_v2_features.py:94-142 -/
def buildVector (lib : MathLib K) (trig : Trig K) (inp : V2FeatureInputs K) : List K :=
  let m30 := momentumBps inp.spotsLast90s 30
  let m60 := momentumBps inp.spotsLast90s 60
  let m90 := momentumBps inp.spotsLast90s 90
  let rv := realizedVolYz lib inp.spotsLast90s 90
  let tur := tickUpRatio inp.spotsLast90s 90
  let mp := stoikovMicroprice inp.yesAsk inp.noAsk inp.depthYes inp.depthNo
  let hour := utcHour inp.asOfTs
  let dow : K := weekday inp.asOfTs
  [m30, m60, m90, rv, tur, inp.macroSnap.ema8VsEma34Pct, inp.macroSnap.adx14,
    inp.macroSnap.consecutiveSameDir,
    if inp.macroSnap.regime = .uptrend then 1 else 0,
    if inp.macroSnap.regime = .downtrend then 1 else 0,
    if inp.macroSnap.regime = .range then 1 else 0,
    inp.impliedProbYes, mp, mp - inp.impliedProbYes, inp.pmImbalance, inp.pmSpreadBps,
    if leeMyklandJumpFlag lib trig inp.spotsLast90s 60 3 then 1 else 0,
    trig.sin (2 * trig.pi * hour / 24), trig.cos (2 * trig.pi * hour / 24),
    trig.sin (2 * trig.pi * dow / 7), trig.cos (2 * trig.pi * dow / 7)]

/-- The names and the values of a vector match one to one. -/
theorem featureNamesV3_length (lib : MathLib K) (trig : Trig K)
    (inp : V2FeatureInputs K) (m : Microstructure K) :
    (buildVector lib trig inp ++ m.tail).length = featureNamesV3.length := rfl

/-- The vector of a training sample: the book is set to neutral values.  A window of 34 candles
always has a snapshot.
SOURCE: cli/train_last90s.py:410-447 -/
def trainVector (lib : MathLib K) (trig : Trig K) (windowS : ℤ) (largeThresholdUsd : K)
    (inp : FeatureInputs K) : List K :=
  match macroSnapshot (inp.macroWindow.map Candle5m.high) (inp.macroWindow.map Candle5m.low)
      (inp.macroWindow.map Candle5m.close) 20 2 with
  | none => []
  | some snap =>
    let base := buildVector lib trig {
      asOfTs := inp.asOfTs
      spotsLast90s := inp.spotsLast90s
      macroSnap := snap
      impliedProbYes := inp.impliedProbYes
      yesAsk := inp.impliedProbYes
      noAsk := 1 - inp.impliedProbYes
      depthYes := 100
      depthNo := 100
      pmImbalance := 0
      pmSpreadBps := 50 }
    match inp.microstructure with
    | none => base
    | some (trades, baseline) =>
      base ++ (binanceMicrostructureFromTrades trades baseline windowS largeThresholdUsd).tail

end TradingEdge.Program
