import TradingEdge.Program.Last90sFeatures

/-!
# What the feature functions can raise

A division by zero raises `ZeroDivisionError`, and `zip(..., strict=True)` raises `ValueError` on
sequences of different lengths.  `Raising` has the functions that divide by what they have
computed, with these exceptions: two features of the tape
(`engine/features/binance_microstructure.py`) and the average directional index
(`engine/features/macro.py`).
-/

set_option autoImplicit false

namespace TradingEdge.Program

open TradingEdge.Library TradingEdge.Model

/-- What the arithmetic of a feature can raise. -/
inductive FeatureError where
  | zeroDivision
  | zipLengths
deriving DecidableEq, Repr

section Division

variable {K : Type} [Zero K] [Div K] [BEq K]

/-- The operator `/`. -/
def divide (x y : K) : Except FeatureError K :=
  if y == 0 then .error .zeroDivision else .ok (x / y)

/-- A division by anything but zero raises nothing. -/
theorem divide_of_ne_zero [LawfulBEq K] (x : K) {y : K} (h : y ≠ 0) : divide x y = .ok (x / y) := by
  unfold divide
  rw [if_neg (by simpa using h)]

end Division

/-- `zip(xs, ys, zs, strict=True)`. -/
def zipStrict {α : Type} (xs ys zs : List α) : Except FeatureError (List (α × α × α)) :=
  if ys.length = xs.length ∧ zs.length = xs.length then .ok (xs.zip (ys.zip zs))
  else .error .zipLengths

/-! ## The movements and their smoothing -/

variable {K : Type} [Zero K] [One K] [Add K] [Sub K] [Neg K] [Mul K] [Div K] [NatCast K]
  [LE K] [LT K] [DecidableLE K] [DecidableLT K] [Max K] [BEq K]

/-- The movements of each bar after the first.
SOURCE: engine/features/macro.py:40-54 -/
def movements (highs lows closes : List K) : List (K × K × K) :=
  let bars := highs.zip (lows.zip closes)
  bars.zipWith movement bars.tail

/-- The three smoothed sequences, step by step.
SOURCE: engine/features/macro.py:64-70 -/
def smoothed (n : ℕ) (moves : List (K × K × K)) : List (K × K × K) :=
  (wilder n (moves.map fun m => m.1)).zip
    ((wilder n (moves.map fun m => m.2.1)).zip (wilder n (moves.map fun m => m.2.2)))

namespace Raising

/-- SOURCE: engine/features/binance_microstructure.py:66-73 -/
def cvdNormalized (trades : List (TapeTrade K)) : Except FeatureError K :=
  let total := leftSum (trades.map TapeTrade.qty)
  if trades = [] ∨ total ≤ 0 then .ok 0
  else divide (leftSum (trades.map fun t => if t.side = "buy" then t.qty else -t.qty)) total

/-- SOURCE: engine/features/binance_microstructure.py:106-118 -/
def signedTradeAutocorrLag1 (trades : List (TapeTrade K)) : Except FeatureError K :=
  if trades.length < 10 then .ok 0
  else do
    let s : List K := trades.map fun t => if t.side = "buy" then 1 else -1
    let mu ← divide (leftSum s) (s.length : K)
    let centered := s.map fun v => v - mu
    let var ← divide (leftSum (centered.map fun c => c * c)) (s.length : K)
    if var ≤ 1 / 1000000000 then return 0
    let nPairs : K := (s.length : K) - 1
    let cov ← divide (leftSum ((steps centered).map fun c => c.1 * c.2)) nPairs
    divide cov var

/-- `_wilder`.
SOURCE: engine/features/macro.py:56-62 -/
def wilder (n : ℕ) (xs : List K) : Except FeatureError (List K) :=
  if xs.length < n then .ok []
  else
    (xs.drop n).scanlM (fun out v => do return out - (← divide out (n : K)) + v)
      (leftSum (xs.take n))

/-- One round of the loop over the smoothed sequences: what it appends to `dxs`, if anything.
SOURCE: engine/features/macro.py:70-78 -/
def directionalIndex (plus minus trs : K) : Except FeatureError (Option K) :=
  if trs ≤ 0 then .ok none
  else do
    let plusDi ← divide (100 * plus) trs
    let minusDi ← divide (100 * minus) trs
    if plusDi + minusDi == 0 then return none
    return some (← divide (100 * magnitude (plusDi - minusDi)) (plusDi + minusDi))

/-- SOURCE: engine/features/macro.py:35-85 -/
def adx14 (highs lows closes : List K) : Except FeatureError K :=
  let n := 14
  if closes.length < 2 * n ∨ highs.length ≠ closes.length ∨ lows.length ≠ closes.length then .ok 0
  else do
    let moves := movements highs lows closes
    let plusSmooth ← wilder n (moves.map fun m => m.1)
    let minusSmooth ← wilder n (moves.map fun m => m.2.1)
    let trSmooth ← wilder n (moves.map fun m => m.2.2)
    if trSmooth.isEmpty then return 0
    let rows ← zipStrict plusSmooth minusSmooth trSmooth
    let found ← rows.mapM fun s => directionalIndex s.1 s.2.1 s.2.2
    let dxs := found.reduceOption
    if dxs.length < n then return 0
    let seed ← divide (leftSum (dxs.take n)) (n : K)
    (dxs.drop n).foldlM (fun adx v => divide (adx * ((n : K) - 1) + v) (n : K)) seed

end Raising

end TradingEdge.Program
