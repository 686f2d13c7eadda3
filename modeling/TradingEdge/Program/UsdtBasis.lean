import TradingEdge.Program.OracleLag

/-!
# The implicit USDT basis

`engine/features/usdt_basis.py`: the ratio of the Coinbase BTC-USD close to the Binance
BTC-USDT close of the same minute, kept when it lies in a band around one.  The series of
these ratios is what the cesta of `oracle_lag_v1` looks its basis up in.
-/

set_option autoImplicit false

namespace TradingEdge.Program

open TradingEdge.Model

variable {K : Type} [Field K] [LinearOrder K]

/-- `BASIS_MIN`.
SOURCE: engine/features/usdt_basis.py:39 -/
def basisMin : K := 95 / 100

/-- `BASIS_MAX`.
SOURCE: engine/features/usdt_basis.py:40 -/
def basisMax : K := 105 / 100

/-- The ratio of the two closes, if both are positive and it lies in the band.  The source
also asks that it be finite, which a quotient of a field is.
SOURCE: engine/features/usdt_basis.py:43-70 -/
def implicitBasis (binanceBtcusdtClose coinbaseBtcusdClose : Option K) : Option K :=
  match binanceBtcusdtClose, coinbaseBtcusdClose with
  | some binance, some coinbase =>
    if binance ≤ 0 ∨ coinbase ≤ 0 then none
    else
      let basis := coinbase / binance
      if basis < basisMin ∨ basisMax < basis then none else some basis
  | _, _ => none

/-- A minute with a candle of either exchange: its time and the two closes.
SOURCE: engine/features/usdt_basis.py:106-119 -/
structure BasisRow (K : Type) where
  ts : K
  binanceClose : K
  coinbaseClose : K

/-- The series of the accepted ratios.
SOURCE: engine/features/usdt_basis.py:96-131 -/
def loadBasisSeries (rows : List (BasisRow K)) : List (K × K) :=
  rows.filterMap fun r =>
    (implicitBasis (some r.binanceClose) (some r.coinbaseClose)).map fun b => (r.ts, b)

/-- An accepted basis is the ratio of two positive closes. -/
theorem implicitBasis_eq_some {binance coinbase basis : K}
    (h : implicitBasis (some binance) (some coinbase) = some basis) :
    0 < binance ∧ 0 < coinbase ∧ basis = coinbase / binance := by
  unfold implicitBasis at h
  dsimp only at h
  split at h
  · cases h
  rename_i hpos
  rw [not_or, not_le, not_le] at hpos
  split at h
  · cases h
  · exact ⟨hpos.1, hpos.2, (Option.some.inj h).symm⟩

end TradingEdge.Program
