import TradingEdge.Library.Arithmetic
import TradingEdge.Library.Bisect
import TradingEdge.Program.TrainLast90s

/-!
# The macro features and their providers

`engine/features/macro.py` computes moving averages, the average directional index, the streak
of the closes and the regime from a window of 5-minute candles.
`strategies/polymarket_btc5m/_macro_provider.py` finds the window of a time by bisection;
`cli/train_last90s.py` finds it by a filter.
-/

set_option autoImplicit false

namespace TradingEdge.Program

open TradingEdge.Library TradingEdge.Model

/-! ## The features of a window -/

/-- SOURCE: engine/features/macro.py:9 -/
inductive Regime where
  | uptrend
  | downtrend
  | range
deriving DecidableEq, Repr

/-- SOURCE: engine/features/macro.py:12-19 -/
structure MacroSnapshot (K : Type) where
  ema8 : K
  ema34 : K
  adx14 : K
  consecutiveSameDir : ℤ
  regime : Regime
  ema8VsEma34Pct : K
deriving DecidableEq

section DirectionalIndex

variable {K : Type} [Zero K] [One K] [Add K] [Sub K] [Neg K] [Mul K] [Div K] [NatCast K]
  [LE K] [LT K] [DecidableLE K] [DecidableLT K] [Max K] [BEq K]

/-- `_wilder`: the running sums over `n` values, each step forgetting one `n`-th.
SOURCE: engine/features/macro.py:58-64 -/
def wilder (n : ℕ) (xs : List K) : List K :=
  if xs.length < n then []
  else (xs.drop n).scanl (fun out v => out - out / n + v) (leftSum (xs.take n))

/-- The directional movements and the true range of a bar after another one, each given as high,
low and close.
SOURCE: engine/features/macro.py:43-56 -/
def movement (previous bar : K × K × K) : K × K × K :=
  let up := bar.1 - previous.1
  let dn := previous.2.1 - bar.2.1
  (if dn < up ∧ 0 < up then up else 0, if up < dn ∧ 0 < dn then dn else 0,
    max (max (bar.1 - bar.2.1) (magnitude (bar.1 - previous.2.2)))
      (magnitude (bar.2.1 - previous.2.2)))

/-- The directional index of smoothed movements, unless they are flat.
SOURCE: engine/features/macro.py:71-80 -/
def directionalIndex (plus minus trs : K) : Option K :=
  if trs ≤ 0 then none
  else
    let plusDi := 100 * plus / trs
    let minusDi := 100 * minus / trs
    if plusDi + minusDi == 0 then none
    else some (100 * magnitude (plusDi - minusDi) / (plusDi + minusDi))

/-- Wilder's average directional index over 14 bars.
SOURCE: engine/features/macro.py:35-87 -/
def adx14 (highs lows closes : List K) : K :=
  let n := 14
  if closes.length < 2 * n ∨ highs.length ≠ closes.length ∨ lows.length ≠ closes.length then 0
  else
    let bars := highs.zip (lows.zip closes)
    let moves := bars.zipWith movement bars.tail
    let plusSmooth := wilder n (moves.map fun m => m.1)
    let minusSmooth := wilder n (moves.map fun m => m.2.1)
    let trSmooth := wilder n (moves.map fun m => m.2.2)
    let dxs := (plusSmooth.zip (minusSmooth.zip trSmooth)).filterMap fun s =>
      directionalIndex s.1 s.2.1 s.2.2
    if dxs.length < n then 0
    else
      (dxs.drop n).foldl (fun adx v => (adx * ((n : K) - 1) + v) / n) (leftSum (dxs.take n) / n)

end DirectionalIndex

section Features

variable {K : Type} [Field K] [LinearOrder K]

/-- The exponential moving average, seeded with the mean of the first values.
SOURCE: engine/features/macro.py:22-32 -/
def ema (values : List K) (period : ℕ) : K :=
  if period < 1 ∨ values.length < period then 0
  else
    let alpha : K := 2 / (period + 1)
    (values.drop period).foldl (fun out v => alpha * v + (1 - alpha) * out)
      ((values.take period).sum / period)

/-- The sign of a change of the close. -/
def changeSign (previous close : K) : ℤ :=
  if 0 < close - previous then 1 else if close - previous < 0 then -1 else 0

/-- The scan of the signs, the newest first, with the streak and the sign so far.
SOURCE: engine/features/macro.py:99-112 -/
def streakLoop : List ℤ → ℤ → ℤ → ℤ
  | [], streak, sign => streak * sign
  | s :: older, streak, sign =>
    if s = 0 then streak * sign
    else if sign = 0 then streakLoop older 1 s
    else if s ≠ sign then streak * sign
    else streakLoop older (streak + 1) sign

/-- How many changes of the close in a row had the sign of the last, with that sign.
SOURCE: engine/features/macro.py:90-112 -/
def consecutiveSameDirection (closes : List K) : ℤ :=
  if closes.length < 2 then 0
  else streakLoop (closes.zipWith changeSign closes.tail).reverse 0 0

/-- SOURCE: engine/features/macro.py:115-128 -/
def classifyRegime (emaFast emaSlow adxVal : K) (consec : ℤ) (adxThreshold : K)
    (consecutiveMin : ℤ) : Regime :=
  if emaSlow < emaFast ∧ adxThreshold ≤ adxVal ∧ consecutiveMin ≤ consec then .uptrend
  else if emaFast < emaSlow ∧ adxThreshold ≤ adxVal ∧ consecutiveMin ≤ -consec then .downtrend
  else .range

/-- The snapshot of a window, or `none` if it has fewer than 28 bars.
SOURCE: engine/features/macro.py:131-164 -/
def macroSnapshot (highs lows closes : List K) (adxThreshold : K) (consecutiveMin : ℤ) :
    Option (MacroSnapshot K) :=
  if closes.length < 28 ∨ highs.length ≠ closes.length ∨ lows.length ≠ closes.length then none
  else
    let emaFast := ema closes 8
    let emaSlow := if 34 ≤ closes.length then ema closes 34 else ema closes (min closes.length 34)
    let adxVal := adx14 highs lows closes
    let consec := consecutiveSameDirection closes
    some {
      ema8 := emaFast
      ema34 := emaSlow
      adx14 := adxVal
      consecutiveSameDir := consec
      regime := classifyRegime emaFast emaSlow adxVal consec adxThreshold consecutiveMin
      ema8VsEma34Pct := if emaSlow = 0 then 0 else (emaFast - emaSlow) / emaSlow * 100 }

/-! ## The providers -/

/-- The snapshot of the last `lookback` candles that were complete at a time, found by bisection
in the parallel list of their times.
SOURCE: strategies/polymarket_btc5m/_macro_provider.py:41-71 -/
def snapshotFromWindow (candles : List (Candle5m K)) (tss : List K) (asOf : K) (lookback : ℤ)
    (adxThreshold : K) (consecutiveMin : ℤ) : Option (MacroSnapshot K) :=
  let cutoff := asOf - 300
  let idx := bisectRight tss cutoff
  if (idx : ℤ) < lookback then none
  else
    let window := (candles.take idx).drop (idx - lookback).toNat
    macroSnapshot (window.map Candle5m.high) (window.map Candle5m.low)
      (window.map Candle5m.close) adxThreshold consecutiveMin

/-- A provider: its candles, ascending, and the parallel list of their times.
SOURCE: strategies/polymarket_btc5m/_macro_provider.py:74-98, 112-132 -/
structure MacroProvider (K : Type) [LE K] where
  candles : List (Candle5m K)
  tss : List K
  lookback : ℤ
  adxThreshold : K
  consecutiveMin : ℤ
  inSync : tss = candles.map Candle5m.ts
  ascending : tss.Pairwise (· ≤ ·)

/-- SOURCE: strategies/polymarket_btc5m/_macro_provider.py:99-107, 166-174 -/
def MacroProvider.snapshotAt (p : MacroProvider K) (asOf : K) : Option (MacroSnapshot K) :=
  snapshotFromWindow p.candles p.tss asOf p.lookback p.adxThreshold p.consecutiveMin

omit [Field K] in
/-- Sorted candles ascend. -/
theorem ascending_mergeSort (candles : List (Candle5m K)) :
    ((candles.mergeSort fun a b => a.ts ≤ b.ts).map Candle5m.ts).Pairwise (· ≤ ·) := by
  rw [List.pairwise_map]
  have hsorted : (candles.mergeSort fun a b => a.ts ≤ b.ts).Pairwise
      fun a b => decide (a.ts ≤ b.ts) = true :=
    List.pairwise_mergeSort
      (fun a b c hab hbc => decide_eq_true ((of_decide_eq_true hab).trans (of_decide_eq_true hbc)))
      (fun a b => by simpa using le_total a.ts b.ts) candles
  exact hsorted.imp fun hle => of_decide_eq_true hle

/-- The in-memory provider sorts what it is given, with the defaults of its options.
SOURCE: strategies/polymarket_btc5m/_macro_provider.py:74-97 -/
def fixedMacroProvider (candles : List (Candle5m K)) : MacroProvider K where
  candles := candles.mergeSort fun a b => a.ts ≤ b.ts
  tss := (candles.mergeSort fun a b => a.ts ≤ b.ts).map Candle5m.ts
  lookback := 34
  adxThreshold := 20
  consecutiveMin := 2
  inSync := rfl
  ascending := ascending_mergeSort candles

/-! ## The training set -/

/-- `int(x)`: the part after the point is cut off. -/
def truncated [FloorRing K] (x : K) : ℤ := if 0 ≤ x then ⌊x⌋ else ⌈x⌉

/-- `_macro_at`: the snapshot of the last 34 candles that were complete at a time.
SOURCE: cli/train_last90s.py:348-357 -/
def trainMacroAt [FloorRing K] (candles : List (Candle5m K)) (asOf : K) :
    Option (MacroSnapshot K) :=
  match macroAt candles (truncated asOf) with
  | none => none
  | some window => macroSnapshot (window.map Candle5m.high) (window.map Candle5m.low)
      (window.map Candle5m.close) 20 2

end Features

end TradingEdge.Program
