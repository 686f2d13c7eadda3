import TradingEdge.Analysis.MakerQuotes

/-!
# The shape of a pair of quotes

Whatever the inventory, the bid is below the ask and both are prices of a tenth of a cent at
least and 99.9 cents at most; and more inventory moves neither of them up.

Where the bridge has volatility left, the reservation price is clamped.  The clamps of the two
quotes then cannot make them meet (`clamped_bid_lt_ask`), and each moves with the reservation
price.  Where it has none, the reservation price is the mid itself, at any inventory; there the
clamps can meet, and the quotes are collapsed around the mid.  Nothing here depends on what
`math.sqrt` and `math.log` are.
-/

set_option autoImplicit false

namespace TradingEdge.Analysis

open TradingEdge.Model TradingEdge.Program

variable {K : Type} [Field K] [LinearOrder K]

section Reservation

variable (lib : MathLib K) (p q t : K) (params : ASParams K)

/-- Without volatility the reservation price is the mid.
SOURCE: strategies/polymarket_btc15m/_mm_features.py:86-88 -/
theorem reservationPrice_of_sigma_eq_zero (h : sigmaBm lib p t params.windowSeconds = 0) :
    reservationPrice lib p q params t = p := by
  rw [reservationPrice, if_pos h]

/-- With it, the mid less the skew, clamped.
SOURCE: strategies/polymarket_btc15m/_mm_features.py:89-93 -/
theorem reservationPrice_of_sigma_ne_zero (h : sigmaBm lib p t params.windowSeconds ≠ 0) :
    reservationPrice lib p q params t =
      min (999 / 1000) (max (1 / 1000) (p - q * inventoryRisk lib p params t)) := by
  have hskew : q * inventoryRisk lib p params t = q * params.gammaInventoryRisk *
      sigmaBm lib p t params.windowSeconds ^ 2 * max 0 ((params.windowSeconds : K) - t) := by
    unfold inventoryRisk
    ring
  rw [reservationPrice, if_neg h, hskew]

variable [IsStrictOrderedRing K]

/-- Inventory costs something, whatever the volatility is.
SOURCE: strategies/polymarket_btc15m/_mm_features.py:113-115 -/
theorem inventoryRisk_nonneg (hgamma : 0 ≤ params.gammaInventoryRisk) :
    0 ≤ inventoryRisk lib p params t :=
  mul_nonneg (mul_nonneg hgamma (sq_nonneg _)) (le_max_left _ _)

/-- More inventory does not raise the reservation price.
SOURCE: strategies/polymarket_btc15m/_mm_features.py:89-93 -/
theorem reservationPrice_antitone (hgamma : 0 ≤ params.gammaInventoryRisk) {q q' : K}
    (hq : q ≤ q') :
    reservationPrice lib p q' params t ≤ reservationPrice lib p q params t := by
  by_cases hsigma : sigmaBm lib p t params.windowSeconds = 0
  · rw [reservationPrice_of_sigma_eq_zero lib p q t params hsigma,
      reservationPrice_of_sigma_eq_zero lib p q' t params hsigma]
  · rw [reservationPrice_of_sigma_ne_zero lib p q t params hsigma,
      reservationPrice_of_sigma_ne_zero lib p q' t params hsigma]
    have hskew := mul_le_mul_of_nonneg_right hq (inventoryRisk_nonneg lib p t params hgamma)
    exact min_le_min_left _ (max_le_max_left _ (sub_le_sub_left hskew p))

end Reservation

variable [IsStrictOrderedRing K]

/-- A quote lies within the clamps. -/
theorem clamped_mem (x : K) :
    1 / 1000 ≤ max (1 / 1000) (min (999 / 1000) x) ∧
      max (1 / 1000) (min (999 / 1000) x) ≤ 999 / 1000 :=
  ⟨le_max_left _ _, max_le (by norm_num) (min_le_left _ _)⟩

/-- Quotes collapsed around a price between zero and one.
SOURCE: strategies/polymarket_btc15m/_mm_features.py:150-153 -/
theorem collapsed_quotes {r : K} (hlo : 0 < r) (hhi : r < 1) :
    1 / 1000 ≤ max (1 / 1000) (r - 5 / 1000) ∧
      max (1 / 1000) (r - 5 / 1000) < min (999 / 1000) (r + 5 / 1000) ∧
      min (999 / 1000) (r + 5 / 1000) ≤ 999 / 1000 := by
  refine ⟨le_max_left _ _, ?_, min_le_left _ _⟩
  rw [max_lt_iff, lt_min_iff, lt_min_iff]
  exact ⟨⟨by norm_num, by linarith⟩, by linarith, by linarith⟩

section Quotes

variable (lib : MathLib K) (p q k t : K) (params : ASParams K)

/-- Any reservation price between zero and one gives a bid below the ask.
SOURCE: strategies/polymarket_btc15m/_mm_features.py:145-154 -/
theorem optimalBidAsk_mem (hlo : 0 < reservationPrice lib p q params t)
    (hhi : reservationPrice lib p q params t < 1) :
    1 / 1000 ≤ (optimalBidAsk lib p q k params t).1 ∧
      (optimalBidAsk lib p q k params t).1 < (optimalBidAsk lib p q k params t).2 ∧
      (optimalBidAsk lib p q k params t).2 ≤ 999 / 1000 := by
  unfold optimalBidAsk
  dsimp only
  split
  · exact collapsed_quotes hlo hhi
  · rename_i hopen
    exact ⟨(clamped_mem _).1, not_le.mp hopen, (clamped_mem _).2⟩

/-- The reservation price of a mid between zero and one lies there too.
SOURCE: strategies/polymarket_btc15m/_mm_features.py:86-93 -/
theorem reservationPrice_mem (hp : 0 < p ∧ p < 1) :
    0 < reservationPrice lib p q params t ∧ reservationPrice lib p q params t < 1 := by
  by_cases hsigma : sigmaBm lib p t params.windowSeconds = 0
  · rw [reservationPrice_of_sigma_eq_zero lib p q t params hsigma]
    exact hp
  · rw [reservationPrice_of_sigma_ne_zero lib p q t params hsigma]
    refine ⟨lt_min (by norm_num) (lt_max_of_lt_left (by norm_num)), ?_⟩
    exact min_lt_of_left_lt (by norm_num)

/-- With volatility the quotes never collapse.
SOURCE: strategies/polymarket_btc15m/_mm_features.py:145-149 -/
theorem optimalBidAsk_of_sigma_ne_zero (hspread : 0 < optimalTotalSpread lib p k params t)
    (hsigma : sigmaBm lib p t params.windowSeconds ≠ 0) :
    optimalBidAsk lib p q k params t =
      (max (1 / 1000) (min (999 / 1000)
          (reservationPrice lib p q params t - optimalTotalSpread lib p k params t / 2)),
        max (1 / 1000) (min (999 / 1000)
          (reservationPrice lib p q params t + optimalTotalSpread lib p k params t / 2))) := by
  have hr := reservationPrice_of_sigma_ne_zero lib p q t params hsigma
  have hlo : 1 / 1000 ≤ reservationPrice lib p q params t := by
    rw [hr]
    exact le_min (by norm_num) (le_max_left _ _)
  have hhi : reservationPrice lib p q params t ≤ 999 / 1000 := by
    rw [hr]
    exact min_le_left _ _
  unfold optimalBidAsk
  dsimp only
  rw [if_neg (not_le.mpr (clamped_bid_lt_ask (half_pos hspread) hlo hhi))]

/-- More inventory raises neither quote.
SOURCE: strategies/polymarket_btc15m/_mm_features.py:126-154 -/
theorem optimalBidAsk_antitone (hgamma : 0 ≤ params.gammaInventoryRisk)
    (hspread : 0 < optimalTotalSpread lib p k params t) {q q' : K} (hq : q ≤ q') :
    (optimalBidAsk lib p q' k params t).1 ≤ (optimalBidAsk lib p q k params t).1 ∧
      (optimalBidAsk lib p q' k params t).2 ≤ (optimalBidAsk lib p q k params t).2 := by
  by_cases hsigma : sigmaBm lib p t params.windowSeconds = 0
  · -- the quotes do not look at the inventory
    have hsame : optimalBidAsk lib p q' k params t = optimalBidAsk lib p q k params t := by
      unfold optimalBidAsk
      rw [reservationPrice_of_sigma_eq_zero lib p q t params hsigma,
        reservationPrice_of_sigma_eq_zero lib p q' t params hsigma]
    rw [hsame]
    exact ⟨le_refl _, le_refl _⟩
  · have hr := reservationPrice_antitone lib p t params hgamma hq
    rw [optimalBidAsk_of_sigma_ne_zero lib p q k t params hspread hsigma,
      optimalBidAsk_of_sigma_ne_zero lib p q' k t params hspread hsigma]
    constructor
    · exact max_le_max_left _ (min_le_min_left _ (sub_le_sub_right hr _))
    · exact max_le_max_left _ (min_le_min_left _ (add_le_add_left hr _))

end Quotes

/-- **The shape of the quotes.** For a mid between zero and one, the bid is below the ask and both
lie within the clamps, at every inventory, every fill intensity and every time; and both fall, or
stay, as the inventory grows.
SOURCE: strategies/polymarket_btc15m/_mm_features.py:56-154 -/
theorem quotes_well_formed (lib : MathLib K) (params : ASParams K) (p k t : K)
    (hp : 0 < p ∧ p < 1) (hgamma : 0 ≤ params.gammaInventoryRisk)
    (hfloor : 0 < params.spreadFloorBps)
    (hceil : params.spreadFloorBps ≤ params.spreadCeilingBps) :
    (∀ q, 1 / 1000 ≤ (optimalBidAsk lib p q k params t).1 ∧
      (optimalBidAsk lib p q k params t).1 < (optimalBidAsk lib p q k params t).2 ∧
      (optimalBidAsk lib p q k params t).2 ≤ 999 / 1000) ∧
    ∀ q q', q ≤ q' →
      (optimalBidAsk lib p q' k params t).1 ≤ (optimalBidAsk lib p q k params t).1 ∧
        (optimalBidAsk lib p q' k params t).2 ≤ (optimalBidAsk lib p q k params t).2 := by
  constructor
  · intro q
    obtain ⟨hlo, hhi⟩ := reservationPrice_mem lib p q t params hp
    exact optimalBidAsk_mem lib p q k t params hlo hhi
  · intro q q' hq
    have hspread := optimalTotalSpread_pos lib p k t params hfloor hceil
    exact optimalBidAsk_antitone lib p k t params hgamma hspread hq

/-- The defaults of the parameters.
SOURCE: strategies/polymarket_btc15m/_mm_features.py:49-53 -/
def ASParams.default : ASParams ℚ where
  gammaInventoryRisk := 1 / 2
  windowSeconds := 900
  spreadFloorBps := 50
  spreadCeilingBps := 500
  tauTerminalS := 60

/-- The default parameters, five minutes before the close. -/
theorem quotes_well_formed_default :
    (∀ q : ℚ, 1 / 1000 ≤ (optimalBidAsk MathLib.rational (1 / 5) q 0 ASParams.default 300).1 ∧
      (optimalBidAsk MathLib.rational (1 / 5) q 0 ASParams.default 300).1 <
        (optimalBidAsk MathLib.rational (1 / 5) q 0 ASParams.default 300).2 ∧
      (optimalBidAsk MathLib.rational (1 / 5) q 0 ASParams.default 300).2 ≤ 999 / 1000) ∧
    ∀ q q' : ℚ, q ≤ q' →
      (optimalBidAsk MathLib.rational (1 / 5) q' 0 ASParams.default 300).1 ≤
          (optimalBidAsk MathLib.rational (1 / 5) q 0 ASParams.default 300).1 ∧
        (optimalBidAsk MathLib.rational (1 / 5) q' 0 ASParams.default 300).2 ≤
          (optimalBidAsk MathLib.rational (1 / 5) q 0 ASParams.default 300).2 :=
  quotes_well_formed MathLib.rational ASParams.default (1 / 5) 0 300
    (by norm_num) (by norm_num [ASParams.default]) (by norm_num [ASParams.default])
    (by norm_num [ASParams.default])

end TradingEdge.Analysis
