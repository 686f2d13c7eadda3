import TradingEdge.Analysis.BasisCorrection
import TradingEdge.Library.WeightedMean

/-!
# The spot price of the cesta

The cesta looks up the last close of each exchange, drops the exchanges that have none within 300
seconds, and averages the rest.  `cestaLookup_eq_some_iff` says which observation a lookup
returns.  `quoted_eq_rescale` says that what is averaged are the available exchanges with their
weights divided by one total, so the price is their mean under the weights they were given, and
lies between two of their prices (`cesta_spot_sound`).
-/

set_option autoImplicit false

namespace TradingEdge.Analysis

open TradingEdge.Library TradingEdge.Program

/-! ## What is to be shown -/

section Soundness

variable {K : Type} [Zero K] [One K] [Sub K] [Div K] [NatCast K] [LE K] [LT K] [DecidableLE K]
  [DecidableLT K]

/-- The price of the last observation at or before a time, not more than 300 seconds old. -/
def IsLatest (series : List (K × K)) (ts px : K) : Prop :=
  ∃ earlier t later, series = earlier ++ (t, px) :: later ∧ t ≤ ts ∧ ts - t ≤ 300 ∧
    ∀ e ∈ later, ts < e.1

/-- The times of a series ascend. -/
def Ascending (series : List (K × K)) : Prop := series.Pairwise fun a b => a.1 ≤ b.1

/-- The prices of a series are positive. -/
def PositivePrices (series : List (K × K)) : Prop := ∀ e ∈ series, 0 < e.2

/-- The series of a cesta, as its loaders leave them. -/
structure SoundCesta (cesta : CestaProvider K) : Prop where
  ascending : ∀ series ∈ [cesta.coinbase, cesta.bybit, cesta.okx, cesta.kraken, cesta.basis],
    Ascending series
  positive : ∀ series ∈ [cesta.coinbase, cesta.bybit, cesta.okx, cesta.kraken, cesta.basis],
    PositivePrices series
  weights : PositiveWeights cesta.weights

/-- The exchanges with their weights and, where they are available at `ts`, their prices in USD.
The Binance price is the one the strategy comes with. -/
def cestaVenues (cesta : CestaProvider K) (ts binanceSpot : K) : List (K × Option K) :=
  let basis := basisAt ts cesta.basis
  [(cesta.weights.binance, if 0 < binanceSpot then some (binanceSpot / basis) else none),
    (cesta.weights.bybit, (cestaLookup cesta.bybit ts).map (· / basis)),
    (cesta.weights.coinbase, cestaLookup cesta.coinbase ts),
    (cesta.weights.okx, (cestaLookup cesta.okx ts).map (· / basis)),
    (cesta.weights.kraken, cestaLookup cesta.kraken ts)]

/-- The available exchanges. -/
def availableVenues (cesta : CestaProvider K) (ts binanceSpot : K) : List (K × K) :=
  (cestaVenues cesta ts binanceSpot).filterMap fun v => v.2.map fun px => (v.1, px)

end Soundness

variable {K : Type} [Field K] [LinearOrder K]

/-! ## The lookups -/

omit [Field K] in
/-- What a scan up to a time leaves lies after it. -/
theorem Ascending.lt_of_mem_dropWhile {series : List (K × K)} (h : Ascending series) {ts : K}
    {e : K × K} (he : e ∈ series.dropWhile fun e => decide (e.1 ≤ ts)) : ts < e.1 := by
  have hsorted : Ascending (series.dropWhile fun e => decide (e.1 ≤ ts)) :=
    h.sublist (List.dropWhile_sublist _)
  cases hdrop : series.dropWhile fun e => decide (e.1 ≤ ts) with
  | nil =>
    rw [hdrop] at he
    cases he
  | cons first rest =>
    have hfirst : ts < first.1 := by
      have hhead := List.head_dropWhile_not (fun e : K × K => decide (e.1 ≤ ts)) (l := series)
        (by simp [hdrop])
      simpa [hdrop] using hhead
    rw [hdrop] at he hsorted
    rcases List.mem_cons.mp he with rfl | hrest
    · exact hfirst
    · exact hfirst.trans_le ((List.pairwise_cons.mp hsorted).1 e hrest)

/-- **A lookup** returns the last observation at or before the time, if it is recent.
SOURCE: strategies/polymarket_btc5m/_oracle_lag_cesta.py:91-106,
engine/features/usdt_basis.py:73-91 -/
theorem cestaLookup_eq_some_iff {series : List (K × K)} (h : Ascending series) (ts px : K) :
    cestaLookup series ts = some px ↔ IsLatest series ts px := by
  unfold cestaLookup
  constructor
  · intro hlookup
    cases hlast : (series.takeWhile fun e => e.1 ≤ ts).getLast? with
    | none =>
      rw [hlast] at hlookup
      cases hlookup
    | some last =>
      obtain ⟨t, px'⟩ := last
      rw [hlast] at hlookup
      dsimp only at hlookup
      split at hlookup
      · cases hlookup
      · rename_i hfresh
        obtain rfl := Option.some.inj hlookup
        obtain ⟨earlier, hearlier⟩ := List.getLast?_eq_some_iff.mp hlast
        have hmem : (t, px') ∈ series.takeWhile fun e => e.1 ≤ ts := by
          rw [hearlier]
          exact List.mem_append_right _ List.mem_cons_self
        refine ⟨earlier, t, series.dropWhile fun e => e.1 ≤ ts, ?_, ?_, not_lt.mp hfresh, ?_⟩
        · rw [← List.singleton_append, ← List.append_assoc, ← hearlier]
          exact List.takeWhile_append_dropWhile.symm
        · have hle := List.mem_takeWhile_imp hmem
          exact of_decide_eq_true hle
        · exact fun e he => h.lt_of_mem_dropWhile he
  · rintro ⟨earlier, t, later, rfl, hle, hfresh, hlater⟩
    have hearlier : ∀ e ∈ earlier ++ [(t, px)], decide (e.1 ≤ ts) = true := by
      intro e he
      rcases List.mem_append.mp he with hold | hnew
      · exact decide_eq_true
          (((List.pairwise_append.mp h).2.2 e hold (t, px) List.mem_cons_self).trans hle)
      · rw [List.mem_singleton.mp hnew]
        exact decide_eq_true hle
    have hstop : (later.takeWhile fun e => decide (e.1 ≤ ts)) = [] := by
      cases later with
      | nil => rfl
      | cons e rest =>
        rw [List.takeWhile_cons_of_neg (by simpa using hlater e List.mem_cons_self)]
    have htake : (earlier ++ (t, px) :: later).takeWhile (fun e => decide (e.1 ≤ ts)) =
        earlier ++ [(t, px)] := by
      rw [← List.singleton_append, ← List.append_assoc,
        List.takeWhile_append_of_pos hearlier, hstop, List.append_nil]
    rw [htake, List.getLast?_concat]
    dsimp only
    rw [if_neg (not_lt.mpr hfresh)]

/-- **It reports a miss** exactly when every observation at or before the time is too old.
SOURCE: strategies/polymarket_btc5m/_oracle_lag_cesta.py:91-106 -/
theorem cestaLookup_eq_none_iff [IsStrictOrderedRing K] {series : List (K × K)}
    (h : Ascending series) (ts : K) :
    cestaLookup series ts = none ↔ ∀ e ∈ series, e.1 ≤ ts → 300 < ts - e.1 := by
  constructor
  · intro hnone e he hle
    by_contra hfresh
    -- the scan does not stop before `e`, and ends at an observation that is no older
    have hscanned : e ∈ series.takeWhile fun e => decide (e.1 ≤ ts) := by
      have hsplit : e ∈ (series.takeWhile fun e => decide (e.1 ≤ ts)) ++
          series.dropWhile fun e => decide (e.1 ≤ ts) := by
        rw [List.takeWhile_append_dropWhile]
        exact he
      rcases List.mem_append.mp hsplit with hbefore | hafter
      · exact hbefore
      · exact absurd (h.lt_of_mem_dropWhile hafter) (not_lt.mpr hle)
    rcases List.eq_nil_or_concat (series.takeWhile fun e : K × K => decide (e.1 ≤ ts)) with
      hnil | ⟨earlier, last, hconcat⟩
    · rw [hnil] at hscanned
      cases hscanned
    · rw [List.concat_eq_append] at hconcat
      have hsorted : Ascending (earlier ++ [last]) := by
        rw [← hconcat]
        exact h.sublist (List.takeWhile_sublist _)
      have hnewer : e.1 ≤ last.1 := by
        rw [hconcat] at hscanned
        rcases List.mem_append.mp hscanned with hold | hlast
        · exact (List.pairwise_append.mp hsorted).2.2 e hold last List.mem_cons_self
        · rw [List.mem_singleton.mp hlast]
      unfold cestaLookup at hnone
      rw [hconcat, List.getLast?_concat] at hnone
      dsimp only at hnone
      rw [if_neg (by linarith)] at hnone
      cases hnone
  · intro hold
    cases hlookup : cestaLookup series ts with
    | none => rfl
    | some px =>
      obtain ⟨earlier, t, later, rfl, hle, hfresh, -⟩ :=
        (cestaLookup_eq_some_iff h ts px).mp hlookup
      exact absurd (hold (t, px) (by simp) hle) (not_lt.mpr hfresh)

/-! ## The average -/

/-- A price that a lookup returns is one of the series. -/
theorem cestaLookup_mem {series : List (K × K)} {ts px : K} (h : cestaLookup series ts = some px) :
    ∃ t, (t, px) ∈ series := by
  unfold cestaLookup at h
  cases hlast : (series.takeWhile fun e => e.1 ≤ ts).getLast? with
  | none =>
    rw [hlast] at h
    cases h
  | some last =>
    rw [hlast] at h
    dsimp only at h
    split at h
    · cases h
    · rw [← Option.some.inj h]
      exact ⟨last.1, (List.takeWhile_sublist _).subset (List.mem_of_getLast? hlast)⟩

/-- A price that is found is positive. -/
theorem cestaLookup_pos {series : List (K × K)} (hpos : PositivePrices series) {ts px : K}
    (h : cestaLookup series ts = some px) : 0 < px := by
  obtain ⟨t, hmem⟩ := cestaLookup_mem h
  exact hpos (t, px) hmem

/-- The price of an exchange in USD passes the check for a positive price.
SOURCE: strategies/polymarket_btc5m/_oracle_lag_cesta.py:145-166 -/
theorem filter_cestaLookup {series : List (K × K)} (hpos : PositivePrices series) (ts : K) :
    (cestaLookup series ts).filter (0 < ·) = cestaLookup series ts := by
  cases hlookup : cestaLookup series ts with
  | none => rfl
  | some px =>
    rw [Option.filter_some, if_pos (decide_eq_true (cestaLookup_pos hpos hlookup))]

/-- The weight of an available exchange is one of the weights of the cesta. -/
theorem availableVenues_weight_pos {cesta : CestaProvider K} (h : PositiveWeights cesta.weights)
    (ts binanceSpot : K) : ∀ v ∈ availableVenues cesta ts binanceSpot, 0 < v.1 := by
  have hvenues : ∀ v ∈ cestaVenues cesta ts binanceSpot, 0 < v.1 := by
    simp only [cestaVenues, List.mem_cons, List.not_mem_nil, or_false, forall_eq_or_imp, forall_eq]
    exact ⟨h.binance, h.bybit, h.coinbase, h.okx, h.kraken⟩
  intro v hv
  obtain ⟨venue, hvenue, hsome⟩ := List.mem_filterMap.mp hv
  obtain ⟨px, -, rfl⟩ := Option.map_eq_some_iff.mp hsome
  exact hvenues venue hvenue

section Average

variable [IsStrictOrderedRing K]

/-- The basis is positive. -/
theorem basisAt_pos {series : List (K × K)} (hpos : PositivePrices series) (ts : K) :
    0 < basisAt ts series := by
  unfold basisAt
  cases hlookup : cestaLookup series ts with
  | none => exact one_pos
  | some basis => exact cestaLookup_pos hpos hlookup

/-- So does a price in USDT, divided by a positive basis. -/
theorem filter_usdtToUsd {series : List (K × K)} (hpos : PositivePrices series) (ts : K)
    {basis : K} (hbasis : 0 < basis) :
    (usdtToUsd basis (cestaLookup series ts)).filter (0 < ·) =
      (cestaLookup series ts).map (· / basis) := by
  cases hlookup : cestaLookup series ts with
  | none => rfl
  | some px =>
    have hpx := cestaLookup_pos hpos hlookup
    unfold usdtToUsd
    dsimp only
    rw [if_pos ⟨bne_iff_ne.mpr hpx.ne', hbasis⟩, Option.filter_some,
      if_pos (decide_eq_true (div_pos hpx hbasis))]
    rfl

omit [IsStrictOrderedRing K] in
/-- Normalised weights are the weights over their total.
SOURCE: strategies/polymarket_btc5m/_oracle_lag_cesta.py:40-50 -/
theorem normalised_eq {w : CestaWeights K} {total : K}
    (htotal : total = w.binance + w.bybit + w.coinbase + w.okx + w.kraken) (hpos : 0 < total) :
    w.normalised = ⟨w.binance / total, w.bybit / total, w.coinbase / total, w.okx / total,
      w.kraken / total⟩ := by
  unfold CestaWeights.normalised
  dsimp only
  rw [← htotal, if_neg hpos.not_ge]

omit [LinearOrder K] [IsStrictOrderedRing K] in
/-- Dividing the weights of all exchanges divides those of the available ones. -/
theorem rescale_filterMap (total : K) (venues : List (K × Option K)) :
    rescale total (venues.filterMap fun v => v.2.map fun px => (v.1, px)) =
      (venues.map fun v => (v.1 / total, v.2)).filterMap fun v =>
        v.2.map fun px => (v.1, px) := by
  unfold rescale
  rw [List.map_filterMap, List.filterMap_map]
  apply List.filterMap_congr
  rintro ⟨w, price⟩ _
  cases price <;> rfl

/-- The exchanges the average runs over: weights normalised, prices not checked yet. -/
def quotedVenues (cesta : CestaProvider K) (ts binanceSpot : K) : List (K × Option K) :=
  let basis := basisAt ts cesta.basis
  let w := cesta.weights.normalised
  [(w.binance, some (if 0 < basis then binanceSpot / basis else binanceSpot)),
    (w.bybit, usdtToUsd basis (cestaLookup cesta.bybit ts)),
    (w.coinbase, cestaLookup cesta.coinbase ts),
    (w.okx, usdtToUsd basis (cestaLookup cesta.okx ts)),
    (w.kraken, cestaLookup cesta.kraken ts)]

/-- What passes the check for a positive price are the available exchanges, their weights divided
by the total.
SOURCE: strategies/polymarket_btc5m/_oracle_lag_cesta.py:132-160 -/
theorem quoted_eq_rescale {cesta : CestaProvider K} (h : SoundCesta cesta) (ts binanceSpot : K) :
    ∃ total, 0 < total ∧
      ((quotedVenues cesta ts binanceSpot).filterMap fun v =>
        (v.2.filter (0 < ·)).map fun px => (v.1, px)) =
      rescale total (availableVenues cesta ts binanceSpot) := by
  obtain ⟨-, hpos, hbinance, hbybit, hcoinbase, hokx, hkraken⟩ := h
  simp only [List.mem_cons, List.not_mem_nil, or_false, forall_eq_or_imp, forall_eq] at hpos
  obtain ⟨hposCoinbase, hposBybit, hposOkx, hposKraken, hposBasis⟩ := hpos
  have htotal : 0 < cesta.weights.binance + cesta.weights.bybit + cesta.weights.coinbase +
      cesta.weights.okx + cesta.weights.kraken := by positivity
  have hbasis := basisAt_pos hposBasis ts
  have hspot : (some (if 0 < basisAt ts cesta.basis then binanceSpot / basisAt ts cesta.basis
      else binanceSpot)).filter (0 < ·) =
      if 0 < binanceSpot then some (binanceSpot / basisAt ts cesta.basis) else none := by
    rw [if_pos hbasis, Option.filter_some]
    simp only [div_pos_iff_of_pos_right hbasis, decide_eq_true_eq]
  -- exchange by exchange, the check keeps what is available
  have hvenues : (quotedVenues cesta ts binanceSpot).map (fun v => (v.1, v.2.filter (0 < ·))) =
      (cestaVenues cesta ts binanceSpot).map fun v => (v.1 / (cesta.weights.binance +
        cesta.weights.bybit + cesta.weights.coinbase + cesta.weights.okx +
        cesta.weights.kraken), v.2) := by
    simp only [quotedVenues, cestaVenues, normalised_eq rfl htotal, List.map_cons, List.map_nil,
      hspot, filter_usdtToUsd hposBybit ts hbasis, filter_usdtToUsd hposOkx ts hbasis,
      filter_cestaLookup hposCoinbase, filter_cestaLookup hposKraken]
  refine ⟨_, htotal, ?_⟩
  rw [availableVenues, rescale_filterMap, ← hvenues, List.filterMap_map]
  rfl

/-- **The price** is the mean of the available exchanges under the weights of the cesta, or the
Binance price where none is available.
SOURCE: strategies/polymarket_btc5m/_oracle_lag_cesta.py:123-174 -/
theorem pSpot_eq {cesta : CestaProvider K} (h : SoundCesta cesta) (ts binanceSpot : K) :
    cesta.pSpot ts binanceSpot =
      if availableVenues cesta ts binanceSpot = [] then binanceSpot
      else weightedMean (availableVenues cesta ts binanceSpot) := by
  obtain ⟨total, htotal, hquoted⟩ := quoted_eq_rescale h ts binanceSpot
  have hpSpot : cesta.pSpot ts binanceSpot =
      let quoted := (quotedVenues cesta ts binanceSpot).filterMap fun v =>
        (v.2.filter (0 < ·)).map fun px => (v.1, px)
      if totalWeight quoted ≤ 0 ∨ quoted = [] then binanceSpot else weightedMean quoted := by
    unfold CestaProvider.pSpot totalWeight weightedMean
    simp only [leftSum_eq_sum, List.isEmpty_iff]
    rfl
  rw [hpSpot, hquoted]
  dsimp only
  have hempty : rescale total (availableVenues cesta ts binanceSpot) = [] ↔
      availableVenues cesta ts binanceSpot = [] := List.map_eq_nil_iff
  by_cases hnone : availableVenues cesta ts binanceSpot = []
  · rw [if_pos (Or.inr (hempty.mpr hnone)), if_pos hnone]
  · have hweight : 0 < totalWeight (rescale total (availableVenues cesta ts binanceSpot)) := by
      rw [totalWeight_rescale]
      exact div_pos (totalWeight_pos (availableVenues_weight_pos h.weights ts binanceSpot) hnone)
        htotal
    rw [if_neg hnone, if_neg (not_or.mpr ⟨hweight.not_ge, hempty.not.mpr hnone⟩),
      weightedMean_rescale htotal.ne']

/-- **The spot price of the cesta is sound**, in exact arithmetic. A lookup returns the last
observation at or before the time that is at most 300 seconds old, and reports a miss where there is
none; the price is the mean of the available exchanges under their own weights, and lies between two
of their prices.
SOURCE: strategies/polymarket_btc5m/_oracle_lag_cesta.py:40-52, 91-174,
engine/features/usdt_basis.py:73-91 -/
theorem cesta_spot_sound {cesta : CestaProvider K} (h : SoundCesta cesta) (ts binanceSpot : K) :
    (∀ series ∈ [cesta.coinbase, cesta.bybit, cesta.okx, cesta.kraken, cesta.basis],
      (∀ px, cestaLookup series ts = some px ↔ IsLatest series ts px) ∧
      (cestaLookup series ts = none ↔ ∀ e ∈ series, e.1 ≤ ts → 300 < ts - e.1)) ∧
    (availableVenues cesta ts binanceSpot ≠ [] →
      cesta.pSpot ts binanceSpot = weightedMean (availableVenues cesta ts binanceSpot) ∧
      (∃ v ∈ availableVenues cesta ts binanceSpot, v.2 ≤ cesta.pSpot ts binanceSpot) ∧
      ∃ v ∈ availableVenues cesta ts binanceSpot, cesta.pSpot ts binanceSpot ≤ v.2) := by
  constructor
  · intro series hseries
    have hascending := h.ascending series hseries
    exact ⟨cestaLookup_eq_some_iff hascending ts, cestaLookup_eq_none_iff hascending ts⟩
  · intro havailable
    rw [pSpot_eq h, if_neg havailable]
    exact ⟨rfl, weightedMean_mem (availableVenues_weight_pos h.weights ts binanceSpot) havailable⟩

/-- At time 350 Kraken is out of date and OKX has no candle; the other three are averaged. -/
def krakenStale : CestaProvider ℚ where
  coinbase := [(0, 101), (100, 102), (400, 150)]
  basis := [(100, 51 / 50)]
  bybit := [(60, 104)]
  okx := []
  kraken := [(0, 90)]
  weights := ⟨2, 1, 2, 1, 1⟩

/-- Coinbase is found, and Kraken is too old. -/
theorem cesta_spot_sound_krakenStale :
    cestaLookup krakenStale.coinbase 350 = some 102 ∧ cestaLookup krakenStale.kraken 350 = none ∧
      krakenStale.pSpot 350 102 = weightedMean (availableVenues krakenStale 350 102) := by
  have hsound : SoundCesta krakenStale := by
    refine ⟨?_, ?_, ⟨by decide, by decide, by decide, by decide, by decide⟩⟩
    · norm_num [krakenStale, Ascending]
    · simp only [krakenStale, PositivePrices, List.mem_cons, List.not_mem_nil, or_false,
        forall_eq_or_imp, forall_eq]
      norm_num
  obtain ⟨hlookups, hmean⟩ := cesta_spot_sound hsound 350 102
  obtain ⟨hcoinbase, -⟩ := hlookups krakenStale.coinbase (by simp)
  obtain ⟨-, hkraken⟩ := hlookups krakenStale.kraken (by simp)
  refine ⟨(hcoinbase 102).mpr ⟨[(0, 101)], 100, [(400, 150)], rfl, by norm_num, by norm_num, ?_⟩,
    hkraken.mpr ?_, (hmean ?_).1⟩
  · norm_num
  · norm_num [krakenStale]
  · simp [availableVenues, cestaVenues]

end Average

/-! ## In doubles -/

/-- No exchange but Binance has a candle, and the weights are the default ones. -/
def binanceAlone : CestaProvider Float := ⟨[], [], [], [], [], CestaWeights.default⟩

/-- In doubles the price of one exchange times its weight, over this weight, can be more than the
price: 60000.02 comes out as 60000.020000000004.
SOURCE: strategies/polymarket_btc5m/_oracle_lag_cesta.py:159-163 -/
theorem cesta_rounds_above :
    ¬∀ (cesta : CestaProvider Float) (ts binanceSpot : Float), SoundCesta cesta →
      availableVenues cesta ts binanceSpot ≠ [] →
      (∃ v ∈ availableVenues cesta ts binanceSpot, v.2 ≤ cesta.pSpot ts binanceSpot) ∧
      ∃ v ∈ availableVenues cesta ts binanceSpot, cesta.pSpot ts binanceSpot ≤ v.2 := by
  intro h
  have hsound : SoundCesta binanceAlone := by
    refine ⟨?_, ?_, ⟨by decide +kernel, by decide +kernel, by decide +kernel, by decide +kernel,
      by decide +kernel⟩⟩
    · simp [binanceAlone, Ascending]
    · simp [binanceAlone, PositivePrices]
  have havailable : availableVenues binanceAlone 350 60000.02 ≠ [] := by decide +kernel
  exact absurd (h binanceAlone 350 60000.02 hsound havailable).2 (by decide +kernel)

end TradingEdge.Analysis
