import TradingEdge.Program.UsdtBasis

/-!
# What the USDT basis does to the Binance quote

The basis is the Coinbase close over the Binance close, so that a USDT price times the basis is
one in USD (`basis_mul_binance`).  The cesta divides by it.  The Binance quote then moves away
from the Coinbase quote, by its distance from it times the sum of the two closes over the
Coinbase close (`corrected_sub`), and the correction is right only where there is nothing to
correct (`basis_corrects_iff`).
-/

set_option autoImplicit false

namespace TradingEdge.Analysis

open TradingEdge.Library TradingEdge.Model TradingEdge.Program

/-- Every weight of the vector is positive. -/
structure PositiveWeights {K : Type} [Zero K] [LT K] (w : CestaWeights K) : Prop where
  binance : 0 < w.binance
  bybit : 0 < w.bybit
  coinbase : 0 < w.coinbase
  okx : 0 < w.okx
  kraken : 0 < w.kraken

variable {K : Type} [Field K] [LinearOrder K]

/-- At `ts` the cesta has a Coinbase price and a basis, and no other exchange but Binance. -/
structure OnlyBinanceAndCoinbase (cesta : CestaProvider K) (ts coinbase basis : K) : Prop where
  basisIs : basisAt ts cesta.basis = basis
  coinbaseIs : cestaLookup cesta.coinbase ts = some coinbase
  bybitMissing : cestaLookup cesta.bybit ts = none
  okxMissing : cestaLookup cesta.okx ts = none
  krakenMissing : cestaLookup cesta.kraken ts = none

/-- The correction of the Binance close `binance` by `basis` is right: it gives the Coinbase
close, so does the cesta of these two exchanges whatever its weights, and a quote that is off
comes closer.
SOURCE: engine/features/usdt_basis.py:43-91,
strategies/polymarket_btc5m/_oracle_lag_cesta.py:130-163 -/
structure BasisCorrects (binance coinbase basis : K) : Prop where
  converts : usdtToUsd basis (some binance) = some coinbase
  spot : ∀ (cesta : CestaProvider K) (ts : K), PositiveWeights cesta.weights →
    OnlyBinanceAndCoinbase cesta ts coinbase basis → cesta.pSpot ts binance = coinbase
  approaches : binance ≠ coinbase → |binance / basis - coinbase| < |binance - coinbase|

omit [LinearOrder K] in
/-- Multiplying by the basis is the conversion to USD.
SOURCE: engine/features/usdt_basis.py:47-52 -/
theorem basis_mul_binance {binance coinbase basis : K} (hbinance : binance ≠ 0)
    (hbasis : basis = coinbase / binance) : binance * basis = coinbase := by
  rw [hbasis]
  exact mul_div_cancel₀ coinbase hbinance

omit [LinearOrder K] in
/-- Dividing by it leaves the quote off on the same side, by more. -/
theorem corrected_sub {binance coinbase basis : K} (hcoinbase : coinbase ≠ 0)
    (hbasis : basis = coinbase / binance) :
    binance / basis - coinbase =
      (binance - coinbase) * ((binance + coinbase) / coinbase) := by
  rw [hbasis, div_div_eq_mul_div]
  field_simp
  ring

variable [IsStrictOrderedRing K]

/-- **The correction goes the wrong way.** A Binance quote that is off is further off after it.
SOURCE: engine/features/usdt_basis.py:43-70,
strategies/polymarket_btc5m/_oracle_lag_cesta.py:140 -/
theorem corrected_further {binance coinbase basis : K}
    (h : implicitBasis (some binance) (some coinbase) = some basis) (hne : binance ≠ coinbase) :
    |binance - coinbase| < |binance / basis - coinbase| := by
  obtain ⟨hbinance, hcoinbase, hbasis⟩ := implicitBasis_eq_some h
  have hfactor : 1 < (binance + coinbase) / coinbase := by
    rw [lt_div_iff₀ hcoinbase]
    linarith
  have hoff : 0 < |binance - coinbase| := abs_pos.mpr (sub_ne_zero.mpr hne)
  rw [corrected_sub hcoinbase.ne' hbasis, abs_mul, abs_of_pos (one_pos.trans hfactor)]
  exact lt_mul_of_one_lt_right hoff hfactor

/-- Positive weights are scaled to positive weights. -/
theorem normalised_pos {w : CestaWeights K} (h : PositiveWeights w) :
    0 < w.normalised.binance ∧ 0 < w.normalised.coinbase := by
  obtain ⟨hbinance, hbybit, hcoinbase, hokx, hkraken⟩ := h
  have htotal : 0 < w.binance + w.bybit + w.coinbase + w.okx + w.kraken := by positivity
  unfold CestaWeights.normalised
  dsimp only
  rw [if_neg htotal.not_ge]
  exact ⟨div_pos hbinance htotal, div_pos hcoinbase htotal⟩

/-- The cesta of two exchanges is the average of the divided Binance quote and the Coinbase
quote.
SOURCE: strategies/polymarket_btc5m/_oracle_lag_cesta.py:130-163 -/
theorem pSpot_of_two (cesta : CestaProvider K) (ts binance coinbase basis : K)
    (hweights : PositiveWeights cesta.weights)
    (honly : OnlyBinanceAndCoinbase cesta ts coinbase basis) (hbinance : 0 < binance)
    (hcoinbase : 0 < coinbase) (hbasis : 0 < basis) :
    cesta.pSpot ts binance =
      (cesta.weights.normalised.binance * (binance / basis) +
          cesta.weights.normalised.coinbase * coinbase) /
        (cesta.weights.normalised.binance + cesta.weights.normalised.coinbase) := by
  obtain ⟨hb, hc⟩ := normalised_pos hweights
  obtain ⟨basisIs, coinbaseIs, bybitMissing, okxMissing, krakenMissing⟩ := honly
  have husd : 0 < binance / basis := div_pos hbinance hbasis
  have htotal : ¬cesta.weights.normalised.binance + cesta.weights.normalised.coinbase ≤ 0 :=
    (add_pos hb hc).not_ge
  unfold CestaProvider.pSpot
  dsimp only
  rw [basisIs, coinbaseIs, bybitMissing, okxMissing, krakenMissing, if_pos hbasis]
  simp [usdtToUsd, Option.filter, husd, hcoinbase, htotal, leftSum_eq_sum]

/-- **The correction is right exactly where there is none.** For all positive closes whose ratio
the band accepts, the conversion gives the Coinbase close back exactly when the two closes are
equal.
SOURCE: engine/features/usdt_basis.py:43-91,
strategies/polymarket_btc5m/_oracle_lag_cesta.py:123-163 -/
theorem basis_corrects_iff (binance coinbase basis : K)
    (h : implicitBasis (some binance) (some coinbase) = some basis) :
    BasisCorrects binance coinbase basis ↔ binance = coinbase := by
  obtain ⟨hbinance, hcoinbase, hbasis⟩ := implicitBasis_eq_some h
  constructor
  · intro hcorrects
    by_contra hne
    exact absurd (hcorrects.approaches hne) (corrected_further h hne).not_gt
  · rintro rfl
    have hone : basis = 1 := by
      rw [hbasis]
      exact div_self hbinance.ne'
    subst hone
    refine ⟨?_, ?_, fun hne => absurd rfl hne⟩
    · simp [usdtToUsd, hbinance.ne']
    · intro cesta ts hweights honly
      obtain ⟨hb, hc⟩ := normalised_pos hweights
      have htotal := (add_pos hb hc).ne'
      rw [pSpot_of_two cesta ts binance binance 1 hweights honly hbinance hbinance one_pos,
        div_one, ← add_mul]
      exact mul_div_cancel_left₀ binance htotal

/-- At par the correction is right. -/
theorem basis_corrects_at_par :
    BasisCorrects (100000 : ℚ) 100000 1 :=
  (basis_corrects_iff 100000 100000 1 (by decide +kernel)).mpr rfl

/-- Binance at 100000 USDT and Coinbase at 99900 USD: the basis is 0.999, and the division gives
100100.1 USD.
SOURCE: engine/features/usdt_basis.py:43-70,
strategies/polymarket_btc5m/_oracle_lag_cesta.py:140 -/
theorem corrects_away :
    ¬∀ binance coinbase basis : ℚ,
      implicitBasis (some binance) (some coinbase) = some basis →
        BasisCorrects binance coinbase basis := by
  intro h
  have hband : implicitBasis (some (100000 : ℚ)) (some 99900) = some (999 / 1000) := by
    decide +kernel
  have hconverts := (h 100000 99900 (999 / 1000) hband).converts
  exact absurd hconverts (by decide +kernel)

end TradingEdge.Analysis
