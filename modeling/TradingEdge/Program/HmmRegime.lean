import Mathlib.Algebra.Field.Defs
import TradingEdge.Library.KeySort

/-!
# The labels of the regime model

`canonical_label_order` of `engine/features/hmm_regime.py` names the states of a fitted hidden
Markov model by their mean returns and mean volatilities.  Training and the walk forward store the
labels with the model; the detector reads them.
-/

set_option autoImplicit false

namespace TradingEdge.Program

open TradingEdge.Library

/-- SOURCE: engine/features/hmm_regime.py:26 -/
inductive HmmRegime where
  | trendingBull
  | trendingBear
  | ranging
  | highVol
deriving DecidableEq, Repr

variable {K : Type} [Field K] [LinearOrder K]

/-- `means[i][0]`. -/
def meanReturn (means : List (K × K)) (i : ℕ) : K := (means.getD i (0, 0)).1

/-- `means[i][1]`. -/
def meanVol (means : List (K × K)) (i : ℕ) : K := (means.getD i (0, 0)).2

/-- The states by volatility.
SOURCE: engine/features/hmm_regime.py:89 -/
def byVol (means : List (K × K)) : List ℕ := sortedBy (meanVol means) (List.range means.length)

/-- The three calmer states.
SOURCE: engine/features/hmm_regime.py:90 -/
def low3 (means : List (K × K)) : List ℕ := (byVol means).take 3

/-- The labels of the states, in the order of the states.
SOURCE: engine/features/hmm_regime.py:77-98 -/
def canonicalLabelOrder (means : List (K × K)) : List HmmRegime :=
  let n := means.length
  if n ≠ 4 then List.replicate n .ranging
  else
    let high1 := (byVol means).getD 3 0
    let sortedLow := sortedBy (meanReturn means) (low3 means)
    let labels := List.replicate n HmmRegime.ranging
    let labels := labels.set (sortedLow.getD 0 0) .trendingBear
    let labels := labels.set (sortedLow.getD 2 0) .trendingBull
    let labels := labels.set (sortedLow.getD 1 0) .ranging
    labels.set high1 .highVol

end TradingEdge.Program
