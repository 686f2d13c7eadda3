import TradingEdge.Library.Arithmetic
import TradingEdge.Program.FillModel
import TradingEdge.Program.Indicators

/-!
# The strategy `oracle_lag_v1`

`OracleLagV1.should_enter`: the probability of closing above the open under a driftless
Brownian motion, from a fair spot price over several exchanges and a volatility of the last
ticks, against the asks of the book.  The series of the exchanges are refreshed from the
database by another loop; the strategy gets them with each evaluation.
-/

set_option autoImplicit false

namespace TradingEdge.Program

open TradingEdge.Library TradingEdge.Model

variable {K : Type} [Field K] [LinearOrder K]

/-! ## The digital -/

/-- SOURCE: engine/features/black_scholes_digital.py:30-48 -/
def pUp (lib : MathLib K) (deltaPct tauS sigmaPerSqrtS : K) : K :=
  if tauS ≤ 0 ∨ sigmaPerSqrtS ≤ 0 then
    if 0 < deltaPct then 1 else if deltaPct < 0 then 0 else 1 / 2
  else normCdf lib (deltaPct / (sigmaPerSqrtS * lib.sqrt tauS))

/-- One price of the EWMA: the variance so far and the last positive price.
SOURCE: engine/features/black_scholes_digital.py:67-76 -/
def sigmaStep (lib : MathLib K) (lam : K) (s : K × Option K) (x : K) : K × Option K :=
  if x ≤ 0 then s
  else
    match s.2 with
    | none => (s.1, some x)
    | some last =>
      let r := lib.log (x / last)
      (lam * s.1 + (1 - lam) * r * r, some x)

/-- SOURCE: engine/features/black_scholes_digital.py:51-77 -/
def sigmaEwma (lib : MathLib K) (spots : List K) (lam : K) : K :=
  if spots.length < 2 then 0
  else lib.sqrt (max (spots.foldl (sigmaStep lib lam) (0, none)).1 0)

/-- The up moves less the down moves, over the moves.
SOURCE: engine/features/black_scholes_digital.py:80-108 -/
def tickRuleCvd (spots : List K) : K :=
  let diffs := List.zipWith (fun a b => b - a) spots spots.tail
  let ups := diffs.countP (0 < ·)
  let downs := diffs.countP (· < 0)
  if ups + downs = 0 then 0 else ((ups : K) - downs) / (ups + downs : ℕ)

/-! ## The cesta -/

section Cesta

variable {K : Type} [Zero K] [One K] [Add K] [Sub K] [Mul K] [Div K] [NatCast K]
  [LE K] [LT K] [DecidableLE K] [DecidableLT K] [BEq K]

/-- SOURCE: strategies/polymarket_btc5m/_oracle_lag_cesta.py:34-40 -/
structure CestaWeights (K : Type) where
  binance : K
  bybit : K
  coinbase : K
  okx : K
  kraken : K

/-- The default weights. -/
def CestaWeights.default : CestaWeights K where
  binance := 40 / 100
  bybit := 10 / 100
  coinbase := 25 / 100
  okx := 15 / 100
  kraken := 10 / 100

/-- SOURCE: strategies/polymarket_btc5m/_oracle_lag_cesta.py:40-50 -/
def CestaWeights.normalised (w : CestaWeights K) : CestaWeights K :=
  let total := w.binance + w.bybit + w.coinbase + w.okx + w.kraken
  if total ≤ 0 then CestaWeights.default
  else {
    binance := w.binance / total
    bybit := w.bybit / total
    coinbase := w.coinbase / total
    okx := w.okx / total
    kraken := w.kraken / total }

/-- The series of the exchanges, ascending in time, and the weights it was built with.
SOURCE: strategies/polymarket_btc5m/_oracle_lag_cesta.py:72-93 -/
structure CestaProvider (K : Type) where
  coinbase : List (K × K)
  basis : List (K × K)
  bybit : List (K × K)
  okx : List (K × K)
  kraken : List (K × K)
  weights : CestaWeights K

/-- The last observation at or before a time, unless it is more than 300 s old.
SOURCE: strategies/polymarket_btc5m/_oracle_lag_cesta.py:91-106 -/
def cestaLookup (series : List (K × K)) (ts : K) : Option K :=
  match (series.takeWhile fun e => e.1 ≤ ts).getLast? with
  | none => none
  | some (lastTs, lastPx) => if 300 < ts - lastTs then none else some lastPx

/-- The USDT basis at a time; without a fresh observation, one.
SOURCE: engine/features/usdt_basis.py:73-99 -/
def basisAt (ts : K) (series : List (K × K)) : K := (cestaLookup series ts).getD 1

/-- A price in USDT as one in USD; a missing or zero price stays missing.
SOURCE: strategies/polymarket_btc5m/_oracle_lag_cesta.py:142-145 -/
def usdtToUsd (basis : K) (price : Option K) : Option K :=
  match price with
  | none => none
  | some px => if px != 0 ∧ 0 < basis then some (px / basis) else none

/-- The weighted spot price over the exchanges that have one.
SOURCE: strategies/polymarket_btc5m/_oracle_lag_cesta.py:130-174 -/
def CestaProvider.pSpot (c : CestaProvider K) (ts binanceSpot : K) : K :=
  let basis := basisAt ts c.basis
  let w := c.weights.normalised
  let binanceUsd := if 0 < basis then binanceSpot / basis else binanceSpot
  let venues : List (K × Option K) :=
    [(w.binance, some binanceUsd), (w.bybit, usdtToUsd basis (cestaLookup c.bybit ts)),
      (w.coinbase, cestaLookup c.coinbase ts),
      (w.okx, usdtToUsd basis (cestaLookup c.okx ts)), (w.kraken, cestaLookup c.kraken ts)]
  let quoted := venues.filterMap fun v => (v.2.filter (0 < ·)).map fun px => (v.1, px)
  let totalW := leftSum (quoted.map Prod.fst)
  if totalW ≤ 0 ∨ quoted.isEmpty then binanceSpot
  else leftSum (quoted.map fun v => v.1 * v.2) / totalW

end Cesta

/-! ## The strategy -/

/-- The parameters, with `shadow` of the section `paper`.  A basis of zero is left out: the
source would divide by it.
SOURCE: strategies/polymarket_btc5m/oracle_lag_v1.py:71-97, 205 -/
structure OracleLagConfig (K : Type) [Field K] where
  entryStartS : K
  entryEndS : K
  sigmaLookbackS : K
  sigmaMinTicks : ℤ
  ewmaLambda : K
  feeA : K
  feeB : K
  evThreshold : K
  maxEntryPrice : K
  ofiEnabled : Bool
  ofiWindowS : K
  ofiMinStrength : K
  usdtBasisPhase0 : K
  shadow : Bool
  usdtBasisPhase0_ne_zero : usdtBasisPhase0 ≠ 0

/-- The defaults of the parameters.
SOURCE: strategies/polymarket_btc5m/oracle_lag_v1.py:71-97, 205 -/
def OracleLagConfig.default : OracleLagConfig K where
  entryStartS := 285
  entryEndS := 297
  sigmaLookbackS := 90
  sigmaMinTicks := 60
  ewmaLambda := 94 / 100
  feeA := 5 / 1000
  feeB := 25 / 1000
  evThreshold := 5 / 1000
  maxEntryPrice := 1
  ofiEnabled := false
  ofiWindowS := 30
  ofiMinStrength := 1 / 10
  usdtBasisPhase0 := 1
  shadow := true
  usdtBasisPhase0_ne_zero := one_ne_zero

/-- The markets entered so far, and the source of the exchange series. -/
structure OracleState (R : Type) where
  perWindowEntered : Finset String
  feed : R

/-- Why a tick is skipped or entered, with the numbers the text shows.
SOURCE: strategies/polymarket_btc5m/oracle_lag_v1.py:102-216 -/
inductive OracleReason (K : Type) where
  | outsideEntryWindow
  | alreadyEntered
  | badPriceData
  | insufficientSigmaTicks
  | sigmaCollapsed
  | ofiDisagreesWithDelta
  | badAsk
  | askAboveMaxEntryPrice
  | evBelowThreshold
  | shadowMode
  | entered (evNet probUp : K)

/-- SOURCE: strategies/polymarket_btc5m/oracle_lag_v1.py:56-64 -/
def dynamicFee (p feeA feeB : K) : K := feeA + feeB * 4 * p * (1 - p)

/-- The gates before any price is computed.
SOURCE: strategies/polymarket_btc5m/oracle_lag_v1.py:102-113 -/
def oracleGate (cfg : OracleLagConfig K) (entered : Finset String) (ctx : TickContext K) :
    Option (OracleReason K) :=
  if ¬(cfg.entryStartS ≤ ctx.tInWindow ∧ ctx.tInWindow ≤ cfg.entryEndS) then
    some .outsideEntryWindow
  else if ctx.marketSlug ∈ entered then some .alreadyEntered
  else if ctx.openPrice ≤ 0 ∨ ctx.spotPrice ≤ 0 then some .badPriceData
  else none

/-- The positive spot prices of the last `windowS` seconds, and the current one. -/
def spotsWithin (windowS : K) (ctx : TickContext K) (recentTicks : List (TickContext K)) :
    List K :=
  (recentTicks.filter fun t => ctx.ts - windowS ≤ t.ts ∧ 0 < t.spotPrice).map (·.spotPrice) ++
    [ctx.spotPrice]

/-- The prices the volatility is estimated on.
SOURCE: strategies/polymarket_btc5m/oracle_lag_v1.py:123-125 -/
def sigmaSpots (cfg : OracleLagConfig K) (ctx : TickContext K)
    (recentTicks : List (TickContext K)) : List K :=
  spotsWithin cfg.sigmaLookbackS ctx recentTicks

/-- The prices the order flow proxy is read off.
SOURCE: strategies/polymarket_btc5m/oracle_lag_v1.py:143-149 -/
def ofiSpots (cfg : OracleLagConfig K) (ctx : TickContext K)
    (recentTicks : List (TickContext K)) : List K :=
  spotsWithin cfg.ofiWindowS ctx recentTicks

/-- The quantities of an evaluation. -/
structure OracleQuote (K : Type) where
  nSigmaTicks : ℕ
  deltaPct : K
  sigma : K
  tau : K
  probUp : K
  cvdProxy : K
  side : Side
  ask : K
  evNet : K

/-- SOURCE: strategies/polymarket_btc5m/oracle_lag_v1.py:115-180 -/
def oracleQuote (lib : MathLib K) (cfg : OracleLagConfig K) (ctx : TickContext K)
    (recentTicks : List (TickContext K)) (pSpotUsd : K) : OracleQuote K :=
  let deltaPct := (pSpotUsd - ctx.openPrice) / ctx.openPrice
  let spots := sigmaSpots cfg ctx recentTicks
  let sigma := sigmaEwma lib spots cfg.ewmaLambda
  let tau := max 0 (ctx.windowCloseTs - ctx.ts)
  let probUp := pUp lib deltaPct tau sigma
  let side : Side := if 1 / 2 ≤ probUp then .yesUp else .yesDown
  let pSide := if 1 / 2 ≤ probUp then probUp else 1 - probUp
  let ask := askOf side ctx.pmYesAsk ctx.pmNoAsk
  let evGross := pSide * (1 - ask) - (1 - pSide) * ask
  { nSigmaTicks := spots.length
    deltaPct := deltaPct
    sigma := sigma
    tau := tau
    probUp := probUp
    cvdProxy := if cfg.ofiEnabled ∧ tau < 60 then tickRuleCvd (ofiSpots cfg ctx recentTicks)
      else 0
    side := side
    ask := ask
    evNet := evGross - dynamicFee ask cfg.feeA cfg.feeB }

/-- The order flow is strong enough and points the other way.
SOURCE: strategies/polymarket_btc5m/oracle_lag_v1.py:142-159 -/
def OfiDisagrees (cfg : OracleLagConfig K) (q : OracleQuote K) : Prop :=
  (cfg.ofiEnabled = true ∧ q.tau < 60) ∧ cfg.ofiMinStrength ≤ |q.cvdProxy| ∧
    decide (0 < q.deltaPct) ≠ decide (0 < q.cvdProxy)

instance (cfg : OracleLagConfig K) (q : OracleQuote K) : Decidable (OfiDisagrees cfg q) :=
  inferInstanceAs (Decidable (_ ∧ _))

/-- The gates on the quantities, in the order of the source.
SOURCE: strategies/polymarket_btc5m/oracle_lag_v1.py:126-207 -/
def quoteGate (cfg : OracleLagConfig K) (q : OracleQuote K) : Option (OracleReason K) :=
  if (q.nSigmaTicks : ℤ) < cfg.sigmaMinTicks then some .insufficientSigmaTicks
  else if q.sigma ≤ 0 then some .sigmaCollapsed
  else if OfiDisagrees cfg q then some .ofiDisagreesWithDelta
  else if q.ask ≤ 0 ∨ 1 ≤ q.ask then some .badAsk
  else if cfg.maxEntryPrice < q.ask then some .askAboveMaxEntryPrice
  else if q.evNet < cfg.evThreshold then some .evBelowThreshold
  else if cfg.shadow then some .shadowMode
  else none

section Decide

variable {R : Type}

/-- Where the spot price in USD comes from: the cesta, or the Binance price over the fixed
basis.
SOURCE: strategies/polymarket_btc5m/oracle_lag_v1.py:114-119 -/
def oracleSpot (cesta : Option (R → CestaProvider K × R)) (cfg : OracleLagConfig K) (feed : R)
    (ctx : TickContext K) : K × R :=
  match cesta with
  | some provider =>
    let (c, feed) := provider feed
    (c.pSpot ctx.ts ctx.spotPrice, feed)
  | none => (ctx.spotPrice / cfg.usdtBasisPhase0, feed)

/-- SOURCE: strategies/polymarket_btc5m/oracle_lag_v1.py:102-216 -/
def oracleShouldEnter (lib : MathLib K) (cesta : Option (R → CestaProvider K × R))
    (cfg : OracleLagConfig K) (st : OracleState R) (ctx : TickContext K)
    (recentTicks : List (TickContext K)) : Decision (OracleReason K) × OracleState R :=
  match oracleGate cfg st.perWindowEntered ctx with
  | some reason => (⟨.skip, .none, reason⟩, st)
  | none =>
    let (pSpotUsd, feed) := oracleSpot cesta cfg st.feed ctx
    let q := oracleQuote lib cfg ctx recentTicks pSpotUsd
    match quoteGate cfg q with
    | some reason => (⟨.skip, .none, reason⟩, { st with feed := feed })
    | none =>
      (⟨.enter, q.side, .entered q.evNet q.probUp⟩,
        { perWindowEntered := insert ctx.marketSlug st.perWindowEntered, feed := feed })

/-- The strategy object.
SOURCE: strategies/polymarket_btc5m/oracle_lag_v1.py:67-68 -/
def oracleLag (lib : MathLib K) (cesta : Option (R → CestaProvider K × R))
    (cfg : OracleLagConfig K) : Strategy K (OracleState R) (OracleReason K) where
  name := "oracle_lag_v1"
  shouldEnter := oracleShouldEnter lib cesta cfg

end Decide

/-- A tick passes the first gates exactly when it is in the entry window of a market not
entered and its prices are positive. -/
theorem oracleGate_eq_none_iff (cfg : OracleLagConfig K) (entered : Finset String)
    (ctx : TickContext K) :
    oracleGate cfg entered ctx = none ↔
      (cfg.entryStartS ≤ ctx.tInWindow ∧ ctx.tInWindow ≤ cfg.entryEndS) ∧
        ctx.marketSlug ∉ entered ∧ 0 < ctx.openPrice ∧ 0 < ctx.spotPrice := by
  unfold oracleGate
  split
  · rename_i h
    simp [h]
  rename_i hwindow
  split
  · rename_i h
    simp [h]
  rename_i hentered
  split
  · rename_i h
    simp only [reduceCtorEq, false_iff, not_and, not_lt]
    intro _ _ hopen
    exact h.resolve_left hopen.not_ge
  rename_i hprices
  rw [not_or, not_le, not_le] at hprices
  simp [not_not.mp hwindow, hentered, hprices]

/-- The quantities pass exactly when the volatility is known and positive, the order flow does
not object, the ask is inside (0, 1) and below its ceiling, the expected value is there, and
the strategy is out of shadow mode. -/
theorem quoteGate_eq_none_iff (cfg : OracleLagConfig K) (q : OracleQuote K) :
    quoteGate cfg q = none ↔
      cfg.sigmaMinTicks ≤ q.nSigmaTicks ∧ 0 < q.sigma ∧ ¬OfiDisagrees cfg q ∧
        (0 < q.ask ∧ q.ask < 1) ∧ q.ask ≤ cfg.maxEntryPrice ∧ cfg.evThreshold ≤ q.evNet ∧
        cfg.shadow = false := by
  unfold quoteGate
  constructor
  · intro h
    split at h
    · cases h
    rename_i hticks
    split at h
    · cases h
    rename_i hsigma
    split at h
    · cases h
    rename_i hofi
    split at h
    · cases h
    rename_i hask
    split at h
    · cases h
    rename_i hmax
    split at h
    · cases h
    rename_i hev
    split at h
    · cases h
    rename_i hshadow
    rw [not_or, not_le, not_le] at hask
    exact ⟨not_lt.mp hticks, not_le.mp hsigma, hofi, hask, not_lt.mp hmax, not_lt.mp hev,
      by simpa using hshadow⟩
  · rintro ⟨hticks, hsigma, hofi, ⟨hask0, hask1⟩, hmax, hev, hshadow⟩
    simp [hticks.not_gt, hsigma.not_ge, hofi, hask0.not_ge, hask1.not_ge, hmax.not_gt,
      hev.not_gt, hshadow]

/-- The strategy enters exactly when both groups of gates let the tick through.
SOURCE: strategies/polymarket_btc5m/oracle_lag_v1.py:102-216 -/
theorem oracleShouldEnter_enter_iff {R : Type} (lib : MathLib K)
    (cesta : Option (R → CestaProvider K × R)) (cfg : OracleLagConfig K) (st : OracleState R)
    (ctx : TickContext K) (recentTicks : List (TickContext K)) :
    (oracleShouldEnter lib cesta cfg st ctx recentTicks).1.action = .enter ↔
      oracleGate cfg st.perWindowEntered ctx = none ∧
        quoteGate cfg (oracleQuote lib cfg ctx recentTicks
          (oracleSpot cesta cfg st.feed ctx).1) = none := by
  unfold oracleShouldEnter
  cases hgate : oracleGate cfg st.perWindowEntered ctx with
  | some reason => simp
  | none =>
    dsimp only
    cases hquote : quoteGate cfg (oracleQuote lib cfg ctx recentTicks
      (oracleSpot cesta cfg st.feed ctx).1) with
    | some reason => simp
    | none => simp

end TradingEdge.Program
