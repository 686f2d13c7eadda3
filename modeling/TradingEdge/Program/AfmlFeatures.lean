import Mathlib.Algebra.Order.BigOperators.Group.List
import Mathlib.Data.List.DropRight
import TradingEdge.Model.Types

/-!
# The AFML features

The features of `engine/afml_features.py` that a decision reads: the fractional difference,
the microprice, the rate of CUSUM events and the autocorrelations of the log returns.  The
entropy, the book pressure and the flag of the last CUSUM event only go into the log.

NumPy's logarithm of a price that is not positive is not finite, and the source drops every
return that is not; so a return is there where both prices are positive.
-/

set_option autoImplicit false

namespace TradingEdge.Program

open TradingEdge.Model

variable {K : Type} [Field K] [LinearOrder K]

/-- Python's `a[n:]`. -/
def sliceFrom {α : Type} (n : ℤ) (l : List α) : List α :=
  if 0 ≤ n then l.drop n.toNat else l.rtake (-n).toNat

/-- Python's `a[:n]`. -/
def sliceTo {α : Type} (n : ℤ) (l : List α) : List α :=
  if 0 ≤ n then l.take n.toNat else l.rdrop (-n).toNat

/-- The weight of the price `k` steps back.
SOURCE: engine/afml_features.py:18-24 -/
def fracDiffWeight (d : K) : ℕ → K
  | 0 => 1
  | k + 1 => -fracDiffWeight d k * (d - (k + 1) + 1) / (k + 1)

/-- The weights, the one of the last price at the end.
SOURCE: engine/afml_features.py:18-24 -/
def fracDiffWeights (d : K) (size : ℕ) : List K :=
  ((List.range size).map (fracDiffWeight d)).reverse

/-- SOURCE: engine/afml_features.py:27-33 -/
def fracDiffSeries (series : List K) (d : K) (size : ℕ) : K :=
  if series.length < size then 0
  else (List.zipWith (· * ·) (fracDiffWeights d size) (series.rtake size)).sum

/-- `np.diff(np.log(arr))`, less the values that are not finite.
SOURCE: engine/afml_features.py:130-132, 167-169 -/
def logReturns (lib : MathLib K) : List K → List K
  | a :: b :: rest =>
    (if 0 < a ∧ 0 < b then [lib.log b - lib.log a] else []) ++ logReturns lib (b :: rest)
  | _ => []

/-- SOURCE: engine/afml_features.py:68-72 -/
def microprice (bid ask bidDepth askDepth : K) : K :=
  let total := bidDepth + askDepth
  if total ≤ 0 ∨ bid ≤ 0 ∨ ask ≤ 0 then
    if 0 < bid ∧ 0 < ask then (bid + ask) / 2 else 0
  else ask * (bidDepth / total) + bid * (askDepth / total)

/-- The two running sums and the indices of the events so far. -/
structure CusumState (K : Type) where
  pos : K
  neg : K
  events : List ℕ

/-- SOURCE: engine/afml_features.py:90-98 -/
def cusumStep (threshold : K) (s : CusumState K) (e : K × ℕ) : CusumState K :=
  let pos := max 0 (s.pos + e.1)
  let neg := min 0 (s.neg + e.1)
  if threshold < pos then ⟨0, neg, s.events ++ [e.2]⟩
  else if neg < -threshold then ⟨pos, 0, s.events ++ [e.2]⟩
  else ⟨pos, neg, s.events⟩

/-- The indices at which the CUSUM filter fires.
SOURCE: engine/afml_features.py:85-99 -/
def cusumEvents (series : List K) (threshold : K) : List ℕ :=
  (series.zipIdx.foldl (cusumStep threshold) ⟨0, 0, []⟩).events

/-- The mean of a list. -/
def mean (l : List K) : K := l.sum / l.length

/-- The correlation of a series with itself `lag` steps later.
SOURCE: engine/afml_features.py:112-123 -/
def autocorr (lib : MathLib K) (series : List K) (lag : ℤ) : K :=
  if (series.length : ℤ) ≤ lag + 1 then 0
  else
    let a := sliceTo (-lag) series
    let b := sliceFrom lag series
    let va := a.map fun x => x - mean a
    let vb := b.map fun x => x - mean b
    let denom := lib.sqrt ((va.map (· ^ 2)).sum * (vb.map (· ^ 2)).sum)
    if denom ≤ 0 then 0 else (List.zipWith (· * ·) va vb).sum / denom

/-- The autocorrelation of the returns at each lag; all are zero for fewer prices than
`max(lags) + 2`.
SOURCE: engine/afml_features.py:126-133 -/
def returnsAutocorrMulti (lib : MathLib K) (prices : List K) (lags : List ℤ) :
    List (ℤ × K) :=
  if ∃ lag ∈ lags, (prices.length : ℤ) < lag + 2 then lags.map fun lag => (lag, 0)
  else lags.map fun lag => (lag, autocorr lib (logReturns lib prices) lag)

/-- The parameters of the features.  A window of no prices and a tuple of no lags raise, so these are
left out. -/
structure AfmlParams (K : Type) where
  fracD : K
  fracSize : ℕ
  cusumThreshold : K
  cusumLookback : ℤ
  arLags : List ℤ
  fracSize_pos : 0 < fracSize
  arLags_ne_nil : arLags ≠ []

/-- The defaults of the strategy that uses them.
SOURCE: strategies/polymarket_btc5m/trend_confirm_t1_v1.py:61-67 -/
def AfmlParams.default : AfmlParams K where
  fracD := 2 / 5
  fracSize := 60
  cusumThreshold := 5 / 10000
  cusumLookback := 120
  arLags := [1, 5, 15, 30]
  fracSize_pos := by decide
  arLags_ne_nil := by decide

/-- The features a decision reads. -/
structure AfmlFeatures (K : Type) where
  fracdiff : K
  microprice : K
  cusumEventRate : K
  ar : List (ℤ × K)

/-- The returns the CUSUM filter runs over.
SOURCE: engine/afml_features.py:170 -/
def cusumWindow (p : AfmlParams K) (rets : List K) : List K :=
  if p.cusumLookback ≤ (rets.length : ℤ) then sliceFrom (-p.cusumLookback) rets else rets

/-- The share of these returns at which the filter fires.
SOURCE: engine/afml_features.py:166-176 -/
def cusumEventRate (lib : MathLib K) (p : AfmlParams K) (prices : List K) : K :=
  if prices.length < 3 then 0
  else
    let cwindow := cusumWindow p (logReturns lib prices)
    (cusumEvents cwindow p.cusumThreshold).length / (max 1 cwindow.length : ℕ)

/-- SOURCE: engine/afml_features.py:139-185 -/
def computeAfmlFeatures (lib : MathLib K) (p : AfmlParams K) (prices : List K)
    (pmYesBid pmYesAsk pmDepthYes pmDepthNo : K) : AfmlFeatures K where
  fracdiff := fracDiffSeries prices p.fracD p.fracSize
  microprice := microprice pmYesBid pmYesAsk pmDepthYes pmDepthNo
  cusumEventRate := cusumEventRate lib p prices
  ar := returnsAutocorrMulti lib prices p.arLags

end TradingEdge.Program
