import TradingEdge.Library.Buffer
import TradingEdge.Program.Last90sForecaster
import TradingEdge.Program.TickMessage

/-!
# How many samples the forecaster needs

The gate asks for 60 samples.  A feature that looks back over `n` steps needs `n + 1`, and answers
zero on fewer: the 60-second momentum is missing at 60 samples, and the 90-second momentum, the
volatility and the up ratio at every number from 60 to 90.  All five are computed from full
look-backs exactly from 91 samples on (`fullLookBacks_iff`).  The same holds of the training
samples, whose minimum is the same 60.
-/

set_option autoImplicit false

namespace TradingEdge.Analysis

open TradingEdge.Library TradingEdge.Model TradingEdge.Program

variable {K : Type} [Field K] [LinearOrder K]

/-- The last `n + 1` samples, over which a feature looks back `n` steps. -/
def IsLookBack (spots : List K) (n : ℕ) (w : List K) : Prop := w <:+ spots ∧ w.length = n + 1

/-- The first five entries of a vector are computed from full look-backs: the momenta over 30, 60
and 90 steps, the volatility and the up ratio over 90.
SOURCE: engine/features/micro.py:15-64, strategies/polymarket_btc5m/_v2_features.py:97-101 -/
structure FullLookBacks (lib : MathLib K) (spots vec : List K) : Prop where
  momentum : ∀ i n, (i, n) ∈ [(0, 30), (1, 60), (2, 90)] → ∃ w past now, IsLookBack spots n w ∧
    w.head? = some past ∧ w.getLast? = some now ∧ 0 < past ∧
    vec[i]? = some ((now / past - 1) * 10000)
  volatility : ∃ w, IsLookBack spots 90 w ∧ 2 ≤ (stepReturns lib w).length ∧
    vec[3]? = some (sampleStd lib (stepReturns lib w))
  upRatio : ∃ w, IsLookBack spots 90 w ∧ vec[4]? = some ((upSteps w : K) / (90 : ℕ))

/-- The first five entries of a vector are what the feature functions answer on a series.
SOURCE: strategies/polymarket_btc5m/_v2_features.py:97-101, 119-124 -/
structure HasMicroFeatures (lib : MathLib K) (spots vec : List K) : Prop where
  momentum : ∀ i n, (i, n) ∈ [(0, 30), (1, 60), (2, 90)] → vec[i]? = some (momentumBps spots n)
  volatility : vec[3]? = some (realizedVolYz lib spots 90)
  upRatio : vec[4]? = some (tickUpRatio spots 90)

/-- A series of samples, all of them positive but perhaps the last. -/
def SampleSeries (spots : List K) : Prop :=
  ∃ before now, spots = before ++ [now] ∧ ∀ px ∈ before, 0 < px

/-! ## The features on a long series -/

omit [Field K] [LinearOrder K] in
/-- The last prices are a look back. -/
theorem rtake_isLookBack (spots : List K) {n : ℕ} (h : n + 1 ≤ spots.length) :
    IsLookBack spots n (spots.rtake (n + 1)) :=
  ⟨List.drop_suffix _ _, length_rtake h⟩

/-- The look-back over `n` steps is `n` positive samples and the current one. -/
theorem SampleSeries.rtake_eq {spots : List K} (h : SampleSeries spots) {n : ℕ}
    (hlength : n + 1 ≤ spots.length) :
    ∃ before now, spots.rtake (n + 1) = before ++ [now] ∧ before.length = n ∧
      ∀ px ∈ before, 0 < px := by
  obtain ⟨before, now, rfl, hpos⟩ := h
  rw [List.length_append, List.length_singleton] at hlength
  exact ⟨before.rtake n, now, List.rtake_concat_succ before n now, length_rtake (by omega),
    fun px hpx => hpos px (mem_of_mem_rtake hpx)⟩

/-- SOURCE: engine/features/micro.py:22-28 -/
theorem momentumBps_eq {spots : List K} (h : SampleSeries spots) {n : ℕ} (hn : 1 ≤ n)
    (hlength : n + 1 ≤ spots.length) :
    ∃ past now, (spots.rtake (n + 1)).head? = some past ∧
      (spots.rtake (n + 1)).getLast? = some now ∧ 0 < past ∧
      momentumBps spots n = (now / past - 1) * 10000 := by
  obtain ⟨before, now, hw, hcount, hpos⟩ := h.rtake_eq hlength
  cases before with
  | nil =>
    rw [List.length_nil] at hcount
    omega
  | cons past rest =>
    have hpast : 0 < past := hpos past List.mem_cons_self
    refine ⟨past, now, by rw [hw]; rfl, by rw [hw, List.getLast?_concat], hpast, ?_⟩
    unfold momentumBps
    rw [if_neg (by omega), hw]
    dsimp only
    rw [List.cons_append, List.headD_cons, ← List.cons_append, List.getLastD_concat,
      if_neg (not_le.mpr hpast)]

/-- There are returns enough for a standard deviation. -/
theorem two_le_stepReturns (lib : MathLib K) {before : List K} {now : K}
    (hpos : ∀ px ∈ before, 0 < px) (hcount : 3 ≤ before.length) :
    2 ≤ (stepReturns lib (before ++ [now])).length := by
  rcases before with _ | ⟨a, _ | ⟨b, _ | ⟨c, rest⟩⟩⟩
  · simp at hcount
  · simp at hcount
  · simp at hcount
  · have ha : 0 < a := hpos a (by simp)
    have hb : 0 < b := hpos b (by simp)
    have hc : 0 < c := hpos c (by simp)
    have hfirst : stepReturns lib (a :: b :: c :: rest ++ [now]) =
        lib.log (b / a) :: lib.log (c / b) :: stepReturns lib (c :: rest ++ [now]) := by
      simp only [stepReturns, steps, List.cons_append, List.tail_cons, List.zip_cons_cons,
        List.filterMap_cons, ha.not_ge, hb.not_ge, hc.not_ge, or_self, if_false]
    rw [hfirst, List.length_cons, List.length_cons]
    omega

/-- A look-back over 90 steps is full on 91 samples only. -/
theorem FullLookBacks.length_ge {lib : MathLib K} {spots vec : List K}
    (h : FullLookBacks lib spots vec) : 91 ≤ spots.length := by
  obtain ⟨w, ⟨hsuffix, hlength⟩, -⟩ := h.upRatio
  have hle := hsuffix.length_le
  omega

/-- **The five features are complete** exactly on a series of at least 91 samples.
SOURCE: engine/features/micro.py:15-64 -/
theorem fullLookBacks_iff (lib : MathLib K) {spots vec : List K} (h : SampleSeries spots)
    (hvec : HasMicroFeatures lib spots vec) :
    FullLookBacks lib spots vec ↔ 91 ≤ spots.length := by
  constructor
  · exact fun hfull => hfull.length_ge
  · intro hlength
    refine ⟨?_, ?_, ?_⟩
    · intro i n hin
      have hrange : 1 ≤ n ∧ n + 1 ≤ spots.length := by
        simp only [List.mem_cons, List.not_mem_nil, or_false, Prod.mk.injEq] at hin
        omega
      obtain ⟨past, now, hhead, hlast, hpast, hmomentum⟩ := momentumBps_eq h hrange.1 hrange.2
      refine ⟨_, past, now, rtake_isLookBack spots hrange.2, hhead, hlast, hpast, ?_⟩
      rw [hvec.momentum i n hin, hmomentum]
    · obtain ⟨before, now, hw, hcount, hpos⟩ := h.rtake_eq (n := 90) hlength
      have htwo : 2 ≤ (stepReturns lib (spots.rtake (90 + 1))).length := by
        rw [hw]
        exact two_le_stepReturns lib hpos (by omega)
      refine ⟨_, rtake_isLookBack spots hlength, htwo, ?_⟩
      rw [hvec.volatility]
      unfold realizedVolYz
      rw [if_neg (by omega)]
      dsimp only
      rw [if_neg (by omega)]
    · refine ⟨_, rtake_isLookBack spots hlength, ?_⟩
      rw [hvec.upRatio]
      unfold tickUpRatio
      rw [if_neg (by omega)]

/-! ## The vectors of serving and training -/

/-- SOURCE: strategies/polymarket_btc5m/last_90s_forecaster_v3.py:100-105 -/
theorem spotsLast90s_series (ctx : TickContext K) (recentTicks : List (TickContext K)) :
    SampleSeries (spotsLast90s ctx recentTicks) := by
  refine ⟨_, ctx.spotPrice, rfl, ?_⟩
  intro px hpx
  obtain ⟨t, ht, rfl⟩ := List.mem_map.mp hpx
  have hkept := (List.mem_filter.mp ht).2
  exact (of_decide_eq_true hkept).2

/-- SOURCE: cli/train_last90s.py:273-299 -/
theorem loadTicksForSlug_series {db : Option (PolybotDb K)} {slug : String} {openTs cutoffTs : ℤ}
    (h : loadTicksForSlug db slug openTs cutoffTs ≠ []) :
    SampleSeries (loadTicksForSlug db slug openTs cutoffTs) := by
  refine ⟨_, _, (List.dropLast_append_getLast h).symm, ?_⟩
  intro px hpx
  have hmem := List.mem_of_mem_dropLast hpx
  unfold loadTicksForSlug at hmem
  cases db with
  | none => cases hmem
  | some db =>
    obtain ⟨t, -, hsome⟩ := List.mem_filterMap.mp hmem
    split at hsome
    · exact of_decide_eq_true (Option.filter_eq_some_iff.mp hsome).2
    · cases hsome

variable [FloorRing K]

/-- SOURCE: strategies/polymarket_btc5m/_v2_features.py:97-101, 119-124 -/
theorem buildVector_microFeatures (lib : MathLib K) (trig : Trig K) {inp : V2FeatureInputs K}
    {spots : List K} (hspots : inp.spotsLast90s = spots) (tail : List K) :
    HasMicroFeatures lib spots (buildVector lib trig inp ++ tail) := by
  subst hspots
  refine ⟨?_, rfl, rfl⟩
  · intro i n hin
    simp only [List.mem_cons, List.not_mem_nil, or_false, Prod.mk.injEq] at hin
    rcases hin with ⟨rfl, rfl⟩ | ⟨rfl, rfl⟩ | ⟨rfl, rfl⟩
    · rfl
    · rfl
    · rfl

/-- The vector of the strategy has them.
SOURCE: strategies/polymarket_btc5m/last_90s_forecaster_v3.py:124-155 -/
theorem vector_microFeatures (lib : MathLib K) (trig : Trig K) (s : Last90sForecasterV3 K)
    (ctx : TickContext K) (spots : List K) (snap : MacroSnapshot K) :
    HasMicroFeatures lib spots (s.vector lib trig ctx spots snap) := by
  unfold Last90sForecasterV3.vector
  apply buildVector_microFeatures
  rfl

/-- So has that of the training set.
SOURCE: cli/train_last90s.py:410-447 -/
theorem trainVector_microFeatures (lib : MathLib K) (trig : Trig K) (windowS : ℤ)
    (largeThresholdUsd : K) {inp : FeatureInputs K} {spots : List K}
    (hspots : inp.spotsLast90s = spots) {snap : MacroSnapshot K}
    (hsnap : macroSnapshot (inp.macroWindow.map Candle5m.high)
      (inp.macroWindow.map Candle5m.low) (inp.macroWindow.map Candle5m.close) 20 2 = some snap) :
    HasMicroFeatures lib spots (trainVector lib trig windowS largeThresholdUsd inp) := by
  unfold trainVector
  rw [hsnap]
  dsimp only
  cases inp.microstructure with
  | none =>
    dsimp only
    rw [← List.append_nil (buildVector _ _ _)]
    apply buildVector_microFeatures
    exact hspots
  | some tape =>
    dsimp only
    apply buildVector_microFeatures
    exact hspots

/-- The sources of the training set, with the vector the source builds. -/
def withTrainVector {V : Type} (lib : MathLib K) (trig : Trig K) (windowS : ℤ)
    (largeThresholdUsd : K) (src : TrainSources K V) : TrainSources K (List K) :=
  { src with vector := trainVector lib trig windowS largeThresholdUsd }

omit [FloorRing K] in
/-- A window of the training set has a snapshot.
SOURCE: cli/train_last90s.py:348-357, engine/features/macro.py:131-141 -/
theorem macroAt_snapshot {candles window : List (Candle5m K)} {asOf : ℤ}
    (h : macroAt candles asOf = some window) :
    ∃ snap, macroSnapshot (window.map Candle5m.high) (window.map Candle5m.low)
      (window.map Candle5m.close) 20 2 = some snap := by
  have hlength : window.length = 34 := by
    unfold macroAt at h
    dsimp only at h
    split at h
    · cases h
    · rename_i henough
      rw [← Option.some.inj h, List.length_drop]
      omega
  unfold macroSnapshot
  rw [if_neg (by simp only [List.length_map]; omega)]
  exact ⟨_, rfl⟩

/-- **The five features of a training sample are complete** exactly if its market has 91 samples;
the minimum is 60 here too.
SOURCE: cli/train_last90s.py:373-447 -/
theorem sample_complete_iff {V : Type} (lib : MathLib K) (trig : Trig K) (windowS : ℤ)
    (largeThresholdUsd : K) {src : TrainSources K V} {options : SampleOptions}
    {candles : List (Candle5m K)} {db : Option (PolybotDb K)} {m : ResolvedMarket K}
    {smp : Sample (List K)}
    (h : sampleOf (withTrainVector lib trig windowS largeThresholdUsd src) options candles db m =
      some smp) :
    FullLookBacks lib (loadTicksForSlug db m.slug (m.openTs + 120) (m.openTs + 210))
        smp.features ↔
      91 ≤ (loadTicksForSlug db m.slug (m.openTs + 120) (m.openTs + 210)).length := by
  unfold sampleOf at h
  dsimp only at h
  split at h
  · cases h
  · rename_i henough
    split at h
    · cases h
    · rename_i window hwindow
      split at h
      · cases h
      · split at h
        · cases h
        · obtain ⟨snap, hsnap⟩ := macroAt_snapshot hwindow
          rw [← Option.some.inj h]
          apply fullLookBacks_iff
          · apply loadTicksForSlug_series
            intro hnil
            rw [hnil, List.length_nil] at henough
            omega
          · apply trainVector_microFeatures
            · rfl
            · exact hsnap

/-- **The five features of serving are complete** unless a tick that reaches the model has 60 to
90 samples.
SOURCE: strategies/polymarket_btc5m/last_90s_forecaster_v3.py:97-155,
engine/features/micro.py:15-64 -/
theorem features_complete_iff (lib : MathLib K) (trig : Trig K) (s : Last90sForecasterV3 K)
    (ctx : TickContext K) (recentTicks : List (TickContext K)) :
    ((s.shouldEnter lib trig ctx recentTicks).payload.features ≠ [] →
      FullLookBacks lib (spotsLast90s ctx recentTicks)
        ((s.shouldEnter lib trig ctx recentTicks).payload.features.map Prod.snd)) ↔
    ¬(s.cfg.InEntryWindow ctx ∧ (s.macroSnap ctx.ts).isSome ∧
      60 ≤ (spotsLast90s ctx recentTicks).length ∧
      (spotsLast90s ctx recentTicks).length ≤ 90) := by
  rw [s.shouldEnter_features]
  by_cases hgate : s.cfg.InEntryWindow ctx ∧ 60 ≤ (spotsLast90s ctx recentTicks).length
  · rw [if_pos hgate]
    cases hsnap : s.macroSnap ctx.ts with
    | none => simp
    | some snap =>
      have hvalues : (featureNamesV3.zip
          (s.vector lib trig ctx (spotsLast90s ctx recentTicks) snap)).map Prod.snd =
          s.vector lib trig ctx (spotsLast90s ctx recentTicks) snap :=
        List.map_snd_zip (featureNamesV3_length lib trig _ _).le
      have hrecorded : featureNamesV3.zip
          (s.vector lib trig ctx (spotsLast90s ctx recentTicks) snap) ≠ [] := by
        intro hnil
        rw [hnil] at hvalues
        cases hvalues
      dsimp only
      rw [hvalues, fullLookBacks_iff lib (spotsLast90s_series ctx recentTicks)
        (vector_microFeatures lib trig s ctx _ snap)]
      constructor
      · rintro hfull ⟨-, -, -, hfew⟩
        exact absurd (hfull hrecorded) (by omega)
      · intro hmany _
        by_contra hfew
        exact hmany ⟨hgate.1, rfl, hgate.2, by omega⟩
  · rw [if_neg hgate]
    constructor
    · rintro - ⟨hwindow, -, henough, -⟩
      exact hgate ⟨hwindow, henough⟩
    · intro _ hrecorded
      exact absurd rfl hrecorded

section Instance

/-- The default strategy with a snapshot and a model at hand. -/
def readyForecaster : Last90sForecasterV3 ℚ where
  cfg := ForecasterConfig.default
  macroProvider := some fun _ => some ⟨64000, 64000, 25, 1, .range, 0⟩
  model := some fun _ => 1 / 2
  msProvider := none

/-- A tick of a window that opened at second 1200. -/
def sampledTick (second : ℕ) : TickContext ℚ := tickFromDict
  { ts := 1200 + second
    windowCloseTs := 1500
    marketSlug := "btc-updown-5m-1500"
    tInWindow := some second
    spotPrice := some 64000 }

/-- At second 210, after 59 ticks a second apart, there are 60 samples: the gate lets the tick
pass, and no look-back over 90 steps is full. -/
theorem gate_passes_sixty :
    ¬∀ (s : Last90sForecasterV3 ℚ) (ctx : TickContext ℚ) (recentTicks : List (TickContext ℚ)),
      (s.shouldEnter MathLib.rational Trig.rational ctx recentTicks).payload.features ≠ [] →
      FullLookBacks MathLib.rational (spotsLast90s ctx recentTicks)
        ((s.shouldEnter MathLib.rational Trig.rational ctx recentTicks).payload.features.map
          Prod.snd) := by
  intro h
  have hlength : (spotsLast90s (sampledTick 210)
      ((List.range' 151 59).map sampledTick)).length = 60 := by decide +kernel
  have hrecorded : (readyForecaster.shouldEnter MathLib.rational Trig.rational (sampledTick 210)
      ((List.range' 151 59).map sampledTick)).payload.features.isEmpty = false := by
    decide +kernel
  have hfull := h readyForecaster (sampledTick 210) ((List.range' 151 59).map sampledTick)
    (fun hnil => by rw [hnil] at hrecorded; cases hrecorded)
  have hge := hfull.length_ge
  omega

end Instance

end TradingEdge.Analysis
