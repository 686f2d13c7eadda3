import TradingEdge.Program.AfmlFeatures
import TradingEdge.Program.FillModel

/-!
# The strategy `trend_confirm_t1_v1`

`TrendConfirmT1V1.should_enter`: a chain of gates on the tick alone (`trendGate`), then six
filters that look at the ticks before it and one Monte Carlo vote, and an entry where enough
of them confirm.  A decision past the gates carries its filters and its vote in the signal
features, and the estimate behind the vote once more in the breakdown.  What else goes there, the
numbers the filters are read off and the wording, is left out: it depends on the ticks alone.
-/

set_option autoImplicit false

namespace TradingEdge.Program

open TradingEdge.Model

/-- The parameters of the strategy.
SOURCE: strategies/polymarket_btc5m/trend_confirm_t1_v1.py:39-79 -/
structure TrendConfirmConfig (K : Type) where
  entryHorizonS : ℤ
  horizonToleranceS : K
  deltaBpsMin : K
  maxPrice : K
  minFavPrice : K
  minConfirmations : ℤ
  highPriceThreshold : K
  minConfirmationsHighPrice : ℤ
  cusumMinRate : K
  recentWindowS : K
  dojiBodyRatioMin : K
  priorTrendWindowS : K
  priorTrendMinSlopeBps : K
  clAdverseMaxBps : K
  clConcordanceMinRatio : K
  afml : AfmlParams K
  autocorrLag : ℤ
  mcEnabled : Bool
  mcShadow : Bool
  mcNSims : ℕ
  mcThreshold : K
  orderType : Model.OrderType
  limitOffsetBps : K
  gtcTtlSeconds : ℤ

/-- The markets entered so far, and the source of randomness of the bootstrap. -/
structure TrendState (R : Type) where
  perWindowEntered : Finset String
  rng : R

/-- Why a tick is skipped or entered, with the numbers the text shows.
SOURCE: strategies/polymarket_btc5m/trend_confirm_t1_v1.py:84-423 -/
inductive TrendReason (K : Type) where
  | notAtHorizon (t : K) (target : ℤ)
  | alreadyEntered
  | indeciso (deltaBps deltaBpsMin : K)
  | clDivergence (clDeltaBps : K) (side : Side) (maxAdverse : K)
  | clConcordance (clDeltaBps required ratio : K)
  | favAskOutside (favAsk maxPrice : K) (side : Side)
  | favAskBelowMin (favAsk minFavPrice : K) (side : Side)
  | confirm (confirmations totalFilters : ℕ) (required : ℤ) (favAsk threshold : K)
      (failed : List String)
  | trendConfirm (deltaBps : K) (confirmations totalFilters : ℕ) (favAsk : K)
      (gtcPrice : Option K)

/-- The confirmation filters that do not draw random numbers. -/
structure TrendFilters where
  fracdiff : Bool
  autocorr : Bool
  cusum : Bool
  microprice : Bool
  candle : Bool
  priorTrend : Bool

/-- The filters by name, in the order of the source. -/
def TrendFilters.named (f : TrendFilters) : List (String × Bool) :=
  [("fracdiff", f.fracdiff), ("autocorr", f.autocorr), ("cusum", f.cusum),
    ("microprice", f.microprice), ("candle", f.candle), ("prior_trend", f.priorTrend)]

/-- How many filters confirm. -/
def TrendFilters.confirmations (f : TrendFilters) : ℕ := f.named.countP Prod.snd

/-- The signal features of a decision past the gates.
SOURCE: strategies/polymarket_btc5m/trend_confirm_t1_v1.py:300-357 -/
structure TrendFeatures (K : Type) where
  side : Side
  deltaBps : K
  favAsk : K
  horizonS : ℤ
  confirmations : ℕ
  minConfirmations : ℤ
  mcProbUp : K
  /-- The estimate in the breakdown, to three places. -/
  mcProbUpShown : K
  mcConfirms : Bool
  mcShadow : Bool
  filters : TrendFilters
  tauSeconds : ℤ

/-- The fields of a decision besides its action and its side. -/
structure TrendPayload (K : Type) where
  reason : TrendReason K
  orderType : Model.OrderType := .market
  limitPrice : Option K := none
  ttlSeconds : Option ℤ := none
  horizonS : Option ℤ := none
  features : Option (TrendFeatures K) := none

/-- The decision not to enter. -/
def trendSkip {K : Type} (reason : TrendReason K) : Decision (TrendPayload K) :=
  ⟨.skip, .none, { reason := reason }⟩

/-- A decision with its signal features. -/
def withFeatures {K : Type} (features : TrendFeatures K) (d : Decision (TrendPayload K)) :
    Decision (TrendPayload K) :=
  { d with payload := { d.payload with features := some features } }

section Gate

variable {K : Type} [Field K] [LinearOrder K]

/-- The defaults of the parameters.
SOURCE: strategies/polymarket_btc5m/trend_confirm_t1_v1.py:39-79 -/
def TrendConfirmConfig.default : TrendConfirmConfig K where
  entryHorizonS := 240
  horizonToleranceS := 2
  deltaBpsMin := 3
  maxPrice := 8 / 10
  minFavPrice := 0
  minConfirmations := 3
  highPriceThreshold := 1
  minConfirmationsHighPrice := 3
  cusumMinRate := 5 / 1000
  recentWindowS := 60
  dojiBodyRatioMin := 3 / 10
  priorTrendWindowS := 0
  priorTrendMinSlopeBps := 1 / 2
  clAdverseMaxBps := 15
  clConcordanceMinRatio := 0
  afml := AfmlParams.default
  autocorrLag := 1
  mcEnabled := true
  mcShadow := true
  mcNSims := 1000
  mcThreshold := 55 / 100
  orderType := .gtc
  limitOffsetBps := 50
  gtcTtlSeconds := 30

/-- SOURCE: strategies/polymarket_btc5m/trend_confirm_t1_v1.py:81-82 -/
def TrendConfirmConfig.IsHorizon (cfg : TrendConfirmConfig K) (t : K) : Prop :=
  |t - cfg.entryHorizonS| ≤ cfg.horizonToleranceS

instance (cfg : TrendConfirmConfig K) (t : K) : Decidable (cfg.IsHorizon t) :=
  inferInstanceAs (Decidable (_ ≤ _))

/-- Gate 1: the side of the move since the open, if it is large enough.
SOURCE: strategies/polymarket_btc5m/trend_confirm_t1_v1.py:95-110 -/
def TrendConfirmConfig.direction (cfg : TrendConfirmConfig K) (deltaBps : K) : Option Side :=
  if cfg.deltaBpsMin < deltaBps then some .yesUp
  else if deltaBps < -cfg.deltaBpsMin then some .yesDown
  else none

/-- `want_positive`: the side bets on a rise. -/
def wantPositive (side : Side) : Bool := side = .yesUp

/-- Gates 1.5 and 1.6: Chainlink must not be far on the other side and, if a ratio is set,
must have moved along.
SOURCE: strategies/polymarket_btc5m/trend_confirm_t1_v1.py:112-167 -/
def chainlinkGate (cfg : TrendConfirmConfig K) (ctx : TickContext K) (side : Side) :
    Option (TrendReason K) :=
  let want := wantPositive side
  let chainlink := ctx.chainlinkPrice.getD 0
  if 0 < chainlink ∧ 0 < ctx.openPrice then
    let clDeltaBps := (chainlink - ctx.openPrice) / ctx.openPrice * 10000
    if want ∧ clDeltaBps < -cfg.clAdverseMaxBps then
      some (.clDivergence clDeltaBps side cfg.clAdverseMaxBps)
    else if ¬want ∧ cfg.clAdverseMaxBps < clDeltaBps then
      some (.clDivergence clDeltaBps side cfg.clAdverseMaxBps)
    else if 0 < cfg.clConcordanceMinRatio then
      let required := cfg.clConcordanceMinRatio * |ctx.deltaBps|
      if decide (0 < clDeltaBps) ≠ want ∨ |clDeltaBps| < required then
        some (.clConcordance clDeltaBps required cfg.clConcordanceMinRatio)
      else none
    else none
  else none

/-- The ask of the favoured side. -/
def favAskOf (ctx : TickContext K) (side : Side) : K := askOf side ctx.pmYesAsk ctx.pmNoAsk

/-- Gate 2: the price band of the favoured side.
SOURCE: strategies/polymarket_btc5m/trend_confirm_t1_v1.py:169-192 -/
def priceGate (cfg : TrendConfirmConfig K) (ctx : TickContext K) (side : Side) :
    Option (TrendReason K) :=
  let favAsk := favAskOf ctx side
  if ¬(0 < favAsk ∧ favAsk < cfg.maxPrice) then some (.favAskOutside favAsk cfg.maxPrice side)
  else if favAsk < cfg.minFavPrice then some (.favAskBelowMin favAsk cfg.minFavPrice side)
  else none

/-- The gates on the tick alone: the side that goes on to the filters, or why none does.
SOURCE: strategies/polymarket_btc5m/trend_confirm_t1_v1.py:84-192 -/
def trendGate (cfg : TrendConfirmConfig K) (entered : Finset String) (ctx : TickContext K) :
    Except (TrendReason K) Side :=
  if ¬cfg.IsHorizon ctx.tInWindow then .error (.notAtHorizon ctx.tInWindow cfg.entryHorizonS)
  else if ctx.marketSlug ∈ entered then .error .alreadyEntered
  else
    match cfg.direction ctx.deltaBps with
    | none => .error (.indeciso ctx.deltaBps cfg.deltaBpsMin)
    | some side =>
      match chainlinkGate cfg ctx side with
      | some reason => .error reason
      | none =>
        match priceGate cfg ctx side with
        | some reason => .error reason
        | none => .ok side

/-- A tick goes on to the filters exactly when it is at the horizon of a market not entered,
has moved far enough, and neither Chainlink nor the price band objects. -/
theorem trendGate_eq_ok_iff (cfg : TrendConfirmConfig K) (entered : Finset String)
    (ctx : TickContext K) (side : Side) :
    trendGate cfg entered ctx = .ok side ↔
      cfg.IsHorizon ctx.tInWindow ∧ ctx.marketSlug ∉ entered ∧
        cfg.direction ctx.deltaBps = some side ∧ chainlinkGate cfg ctx side = none ∧
        priceGate cfg ctx side = none := by
  constructor
  · intro h
    unfold trendGate at h
    split at h
    · cases h
    rename_i hhorizon
    split at h
    · cases h
    rename_i hentered
    split at h
    · cases h
    rename_i hdirection
    split at h
    · cases h
    rename_i hchainlink
    split at h
    · cases h
    rename_i hprice
    cases h
    exact ⟨not_not.mp hhorizon, hentered, hdirection, hchainlink, hprice⟩
  · rintro ⟨hhorizon, hentered, hdirection, hchainlink, hprice⟩
    unfold trendGate
    simp [hhorizon, hentered, hdirection, hchainlink, hprice]

end Gate

section Filters

variable {K : Type} [Field K] [LinearOrder K]

/-- The spot prices of the ticks before this one, and its own.
SOURCE: strategies/polymarket_btc5m/trend_confirm_t1_v1.py:195-196 -/
def spotSeries (ctx : TickContext K) (recentTicks : List (TickContext K)) : List K :=
  (recentTicks.map (·.spotPrice)).filter (0 < ·) ++ [ctx.spotPrice]

/-- The spot prices of the recent candle.
SOURCE: strategies/polymarket_btc5m/trend_confirm_t1_v1.py:217-222 -/
def recentSpots (cfg : TrendConfirmConfig K) (ctx : TickContext K)
    (recentTicks : List (TickContext K)) : List K :=
  (recentTicks.filter fun t => 0 < t.spotPrice ∧ ctx.ts - t.ts ≤ cfg.recentWindowS).map
    (·.spotPrice) ++ [ctx.spotPrice]

/-- Filter 6: the candle of the recent prices points the right way and has a body.
SOURCE: strategies/polymarket_btc5m/trend_confirm_t1_v1.py:223-239 -/
def candleConfirms (cfg : TrendConfirmConfig K) (want : Bool) : List K → Bool
  | openP :: second :: rest =>
    let closeP := (second :: rest).getLast (List.cons_ne_nil second rest)
    let highP := (second :: rest).foldl max openP
    let lowP := (second :: rest).foldl min openP
    let rangeP := highP - lowP
    let bodyP := |closeP - openP|
    let bodyRatio := if 0 < rangeP then bodyP / rangeP else 0
    decide (0 < closeP - openP) = want ∧ cfg.dojiBodyRatioMin ≤ bodyRatio
  | _ => false

/-- The slope of the least squares line.
SOURCE: strategies/polymarket_btc5m/trend_confirm_t1_v1.py:263-269 -/
def linearSlope (xs ys : List K) : K :=
  let mx := mean xs
  let my := mean ys
  let num := (List.zipWith (fun x y => (x - mx) * (y - my)) xs ys).sum
  let den := (xs.map fun x => (x - mx) ^ 2).sum
  if 0 < den then num / den else 0

/-- Filter 7: the line through the earlier prices rises or falls the right way.
SOURCE: strategies/polymarket_btc5m/trend_confirm_t1_v1.py:241-276 -/
def priorTrendConfirms (cfg : TrendConfirmConfig K) (want : Bool) (ts : K)
    (recentTicks : List (TickContext K)) : Bool :=
  if 0 < cfg.priorTrendWindowS then
    let cutoffTs := ts - cfg.priorTrendWindowS
    let pts := recentTicks.filter fun t => cutoffTs ≤ t.ts ∧ 0 < t.spotPrice
    if 30 ≤ pts.length then
      let ts0 := (pts.map (·.ts)).headD 0
      let ys := pts.map (·.spotPrice)
      let slope := linearSlope (pts.map fun t => t.ts - ts0) ys
      let last := ys.getLastD 0
      let refPrice := if 0 < last then last else 1
      let slopeBps := slope / refPrice * 10000 * cfg.priorTrendWindowS
      if cfg.priorTrendMinSlopeBps ≤ |slopeBps| then decide (0 < slopeBps) = want else false
    else false
  else false

/-- The six filters of a tick and the ticks before it.
SOURCE: strategies/polymarket_btc5m/trend_confirm_t1_v1.py:194-276 -/
def trendFilters (lib : MathLib K) (cfg : TrendConfirmConfig K) (side : Side)
    (ctx : TickContext K) (recentTicks : List (TickContext K)) : TrendFilters :=
  let want := wantPositive side
  let feats := computeAfmlFeatures lib cfg.afml (spotSeries ctx recentTicks) ctx.pmYesBid
    ctx.pmYesAsk ctx.pmDepthYes ctx.pmDepthNo
  { fracdiff := decide (0 < feats.fracdiff) = want
    autocorr := 0 < (feats.ar.lookup cfg.autocorrLag).getD 0
    cusum := cfg.cusumMinRate < feats.cusumEventRate
    microprice := decide (1 / 2 < feats.microprice) = want
    candle := candleConfirms cfg want (recentSpots cfg ctx recentTicks)
    priorTrend := priorTrendConfirms cfg want ctx.ts recentTicks }

/-- How many confirmations an entry needs: high prices have their own number.
SOURCE: strategies/polymarket_btc5m/trend_confirm_t1_v1.py:359-363 -/
def requiredConfirmations (cfg : TrendConfirmConfig K) (favAsk : K) : ℤ :=
  if cfg.highPriceThreshold ≤ favAsk then cfg.minConfirmationsHighPrice
  else cfg.minConfirmations

end Filters

section Decide

variable {K R : Type} [Field K] [LinearOrder K] [FloorRing K]

/-- The random part of the strategy: a table of returns drawn with replacement, one row for
each simulation. -/
abbrev ReturnSampler (K R : Type) : Type := R → List K → ℕ → ℕ → List (List K) × R

/-- The share of the simulated paths that end above the strike.
SOURCE: engine/monte_carlo.py:15-37 -/
def mcBootstrapProbUp (lib : MathLib K) (choice : ReturnSampler K R) (rng : R)
    (spots : List K) (currentPrice strike : K) (horizonS nSims : ℕ) : K × R :=
  if spots.length < 31 ∨ currentPrice ≤ 0 ∨ strike ≤ 0 then (1 / 2, rng)
  else
    let arr := spots.filter (0 < ·)
    if arr.length < 31 then (1 / 2, rng)
    else
      let returns := logReturns lib arr
      if returns.length < 30 then (1 / 2, rng)
      else
        let (sampled, rng) := choice rng returns nSims horizonS
        let finals := sampled.map fun row => lib.exp (lib.log currentPrice + row.sum)
        ((finals.countP (strike < ·) : ℕ) / (finals.length : K), rng)

/-- Filter 5: the Monte Carlo vote, and the random numbers left.
SOURCE: strategies/polymarket_btc5m/trend_confirm_t1_v1.py:282-299 -/
def mcConfirms (lib : MathLib K) (choice : ReturnSampler K R) (cfg : TrendConfirmConfig K)
    (rng : R) (want : Bool) (ctx : TickContext K) (recentTicks : List (TickContext K)) :
    Bool × R :=
  if cfg.mcEnabled then
    let chainlink := ctx.chainlinkPrice.getD 0
    let (probUp, rng) := mcBootstrapProbUp lib choice rng (spotSeries ctx recentTicks)
      (if chainlink ≠ 0 then chainlink else ctx.spotPrice) ctx.openPrice
      (max 1 ⌊ctx.tToClose⌋).toNat cfg.mcNSims
    (if want then cfg.mcThreshold < probUp else probUp < 1 - cfg.mcThreshold, rng)
  else (false, rng)

/-- The estimate behind the vote, or -1 with the vote off.
SOURCE: strategies/polymarket_btc5m/trend_confirm_t1_v1.py:282-292 -/
def mcProbUp (lib : MathLib K) (choice : ReturnSampler K R) (cfg : TrendConfirmConfig K)
    (rng : R) (ctx : TickContext K) (recentTicks : List (TickContext K)) : K :=
  if cfg.mcEnabled then
    let chainlink := ctx.chainlinkPrice.getD 0
    (mcBootstrapProbUp lib choice rng (spotSeries ctx recentTicks)
      (if chainlink ≠ 0 then chainlink else ctx.spotPrice) ctx.openPrice
      (max 1 ⌊ctx.tToClose⌋).toNat cfg.mcNSims).1
  else -1

/-- Python's `round(x, 4)`: to the nearest ten-thousandth, ties to the even one. -/
def roundTenThousandths (x : K) : K :=
  let n := ⌊x * 10000⌋
  let rest := x * 10000 - n
  (if rest < 1 / 2 ∨ rest = 1 / 2 ∧ n % 2 = 0 then (n : K) else n + 1) / 10000

/-- Python's `round(x, 3)`: to the nearest thousandth, ties to the even one. -/
def roundThousandths (x : K) : K :=
  let n := ⌊x * 1000⌋
  let rest := x * 1000 - n
  (if rest < 1 / 2 ∨ rest = 1 / 2 ∧ n % 2 = 0 then (n : K) else n + 1) / 1000

/-- The limit price of a resting order.
SOURCE: strategies/polymarket_btc5m/trend_confirm_t1_v1.py:391-401 -/
def gtcLimitPrice (cfg : TrendConfirmConfig K) (ctx : TickContext K) (side : Side) : K :=
  let favAsk := favAskOf ctx side
  let favBid := askOf side ctx.pmYesBid ctx.pmNoBid
  let mid := (favBid + favAsk) / 2
  let offset := cfg.limitOffsetBps / 10000 * max mid (1 / 1000)
  let target := if 0 < favBid then min (favAsk - offset) favBid else favAsk - offset
  max (1 / 100) (roundThousandths target)

/-- The filters and the vote: how many confirm, of how many, and which fail. -/
structure TrendVote where
  confirmations : ℕ
  totalFilters : ℕ
  failed : List String

/-- The vote counts only outside shadow mode.
SOURCE: strategies/polymarket_btc5m/trend_confirm_t1_v1.py:278-299, 364-374 -/
def trendVote (cfg : TrendConfirmConfig K) (f : TrendFilters) (mc : Bool) : TrendVote :=
  { confirmations :=
      f.confirmations + if cfg.mcEnabled ∧ cfg.mcShadow = false ∧ mc then 1 else 0
    totalFilters := if cfg.mcShadow then 6 else 7
    failed := ((f.named ++ if cfg.mcShadow then [] else [("mc", mc)]).filter
      fun e => e.2 = false).map Prod.fst }

/-- SOURCE: strategies/polymarket_btc5m/trend_confirm_t1_v1.py:300-357 -/
def trendFeatures (cfg : TrendConfirmConfig K) (ctx : TickContext K) (side : Side)
    (f : TrendFilters) (vote : TrendVote) (probUp : K) (mc : Bool) : TrendFeatures K where
  side := side
  deltaBps := ctx.deltaBps
  favAsk := roundTenThousandths (favAskOf ctx side)
  horizonS := cfg.entryHorizonS
  confirmations := vote.confirmations
  minConfirmations := cfg.minConfirmations
  mcProbUp := roundTenThousandths probUp
  mcProbUpShown := roundThousandths probUp
  mcConfirms := mc
  mcShadow := cfg.mcShadow
  filters := f
  tauSeconds := if 0 ≤ ctx.tToClose then ⌊ctx.tToClose⌋ else ⌈ctx.tToClose⌉

/-- The decision to enter, with the order to place.
SOURCE: strategies/polymarket_btc5m/trend_confirm_t1_v1.py:386-423 -/
def trendEntry (cfg : TrendConfirmConfig K) (ctx : TickContext K) (side : Side)
    (vote : TrendVote) : Decision (TrendPayload K) :=
  let favAsk := favAskOf ctx side
  match cfg.orderType with
  | .gtc =>
    let limitPrice := gtcLimitPrice cfg ctx side
    { action := .enter
      side := side
      payload := {
        reason := .trendConfirm ctx.deltaBps vote.confirmations vote.totalFilters favAsk
          (some limitPrice)
        orderType := .gtc
        limitPrice := some limitPrice
        ttlSeconds := some cfg.gtcTtlSeconds
        horizonS := some cfg.entryHorizonS } }
  | .market =>
    { action := .enter
      side := side
      payload := {
        reason := .trendConfirm ctx.deltaBps vote.confirmations vote.totalFilters favAsk none
        limitPrice := some favAsk
        horizonS := some cfg.entryHorizonS } }

/-- SOURCE: strategies/polymarket_btc5m/trend_confirm_t1_v1.py:84-423 -/
def trendShouldEnter (lib : MathLib K) (choice : ReturnSampler K R)
    (cfg : TrendConfirmConfig K) (st : TrendState R) (ctx : TickContext K)
    (recentTicks : List (TickContext K)) : Decision (TrendPayload K) × TrendState R :=
  match trendGate cfg st.perWindowEntered ctx with
  | .error reason => (trendSkip reason, st)
  | .ok side =>
    let f := trendFilters lib cfg side ctx recentTicks
    let (mc, rng) := mcConfirms lib choice cfg st.rng (wantPositive side) ctx recentTicks
    let vote := trendVote cfg f mc
    let features := trendFeatures cfg ctx side f vote
      (mcProbUp lib choice cfg st.rng ctx recentTicks) mc
    let favAsk := favAskOf ctx side
    let required := requiredConfirmations cfg favAsk
    if (vote.confirmations : ℤ) < required then
      (withFeatures features (trendSkip (.confirm vote.confirmations vote.totalFilters required
        favAsk cfg.highPriceThreshold vote.failed)), { st with rng := rng })
    else
      (withFeatures features (trendEntry cfg ctx side vote),
        { perWindowEntered := insert ctx.marketSlug st.perWindowEntered, rng := rng })

/-- The strategy object.
SOURCE: strategies/polymarket_btc5m/trend_confirm_t1_v1.py:35-36 -/
def trendConfirm (lib : MathLib K) (choice : ReturnSampler K R)
    (cfg : TrendConfirmConfig K) : Strategy K (TrendState R) (TrendPayload K) where
  name := "trend_confirm_t1_v1"
  shouldEnter := trendShouldEnter lib choice cfg

/-- The confirmations of a tick are enough, with the Monte Carlo vote where it counts. -/
def TrendConfirmed (lib : MathLib K) (choice : ReturnSampler K R)
    (cfg : TrendConfirmConfig K) (rng : R) (side : Side) (ctx : TickContext K)
    (recentTicks : List (TickContext K)) : Prop :=
  requiredConfirmations cfg (favAskOf ctx side) ≤
    ((trendVote cfg (trendFilters lib cfg side ctx recentTicks)
      (mcConfirms lib choice cfg rng (wantPositive side) ctx recentTicks).1).confirmations : ℤ)

instance (lib : MathLib K) (choice : ReturnSampler K R) (cfg : TrendConfirmConfig K) (rng : R)
    (side : Side) (ctx : TickContext K) (recentTicks : List (TickContext K)) :
    Decidable (TrendConfirmed lib choice cfg rng side ctx recentTicks) :=
  inferInstanceAs (Decidable (_ ≤ _))

variable (lib : MathLib K) (choice : ReturnSampler K R) (cfg : TrendConfirmConfig K)
  (st : TrendState R) (ctx : TickContext K) (recentTicks : List (TickContext K))

/-- An entry enters. -/
@[simp] theorem trendEntry_action (side : Side) (vote : TrendVote) :
    (trendEntry cfg ctx side vote).action = .enter := by
  unfold trendEntry
  dsimp only
  split <;> rfl

/-- An entry is on its side. -/
@[simp] theorem trendEntry_side (side : Side) (vote : TrendVote) :
    (trendEntry cfg ctx side vote).side = side := by
  unfold trendEntry
  dsimp only
  split <;> rfl

/-- What the strategy does, by gate and confirmations: the action, the side, and the markets
it has entered afterwards. -/
theorem trendShouldEnter_cases :
    (∃ reason, trendGate cfg st.perWindowEntered ctx = .error reason ∧
        trendShouldEnter lib choice cfg st ctx recentTicks =
          (trendSkip reason, st)) ∨
      ∃ side, trendGate cfg st.perWindowEntered ctx = .ok side ∧
        ((¬TrendConfirmed lib choice cfg st.rng side ctx recentTicks ∧
            (trendShouldEnter lib choice cfg st ctx recentTicks).1.action = .skip ∧
            (trendShouldEnter lib choice cfg st ctx recentTicks).1.side = .none ∧
            (trendShouldEnter lib choice cfg st ctx recentTicks).2.perWindowEntered =
              st.perWindowEntered) ∨
          TrendConfirmed lib choice cfg st.rng side ctx recentTicks ∧
            (trendShouldEnter lib choice cfg st ctx recentTicks).1.action = .enter ∧
            (trendShouldEnter lib choice cfg st ctx recentTicks).1.side = side ∧
            (trendShouldEnter lib choice cfg st ctx recentTicks).2.perWindowEntered =
              insert ctx.marketSlug st.perWindowEntered) := by
  unfold trendShouldEnter
  cases hgate : trendGate cfg st.perWindowEntered ctx with
  | error reason => exact Or.inl ⟨reason, rfl, rfl⟩
  | ok side =>
    refine Or.inr ⟨side, rfl, ?_⟩
    unfold TrendConfirmed
    rw [not_le]
    dsimp only
    split
    · rename_i hlt
      exact Or.inl ⟨hlt, rfl, rfl, rfl⟩
    · rename_i hle
      exact Or.inr ⟨not_lt.mp hle, trendEntry_action .., trendEntry_side .., rfl⟩

/-- Entering a market is what the strategy remembers of it.
SOURCE: strategies/polymarket_btc5m/trend_confirm_t1_v1.py:377 -/
theorem trendShouldEnter_perWindowEntered :
    (trendShouldEnter lib choice cfg st ctx recentTicks).2.perWindowEntered =
      if (trendShouldEnter lib choice cfg st ctx recentTicks).1.action = .enter then
        insert ctx.marketSlug st.perWindowEntered
      else st.perWindowEntered := by
  rcases trendShouldEnter_cases lib choice cfg st ctx recentTicks with
    ⟨reason, -, h⟩ | ⟨side, -, ⟨-, hact, -, hentered⟩ | ⟨-, hact, -, hentered⟩⟩
  · rw [h]
    rfl
  · rw [hentered, hact, if_neg (by decide)]
  · rw [hentered, hact, if_pos rfl]

/-- The strategy enters exactly when the gates let the tick through and enough confirms.
SOURCE: strategies/polymarket_btc5m/trend_confirm_t1_v1.py:84-423 -/
theorem trendShouldEnter_enter_iff :
    (trendShouldEnter lib choice cfg st ctx recentTicks).1.action = .enter ↔
      ∃ side, trendGate cfg st.perWindowEntered ctx = .ok side ∧
        TrendConfirmed lib choice cfg st.rng side ctx recentTicks := by
  rcases trendShouldEnter_cases lib choice cfg st ctx recentTicks with
    ⟨reason, hgate, h⟩ | ⟨side, hgate, ⟨hnot, hact, -, -⟩ | ⟨hconf, hact, -, -⟩⟩
  · rw [h, hgate]
    simp [trendSkip]
  · rw [hact, hgate]
    simpa using hnot
  · rw [hact, hgate]
    simpa using hconf

end Decide

end TradingEdge.Program
