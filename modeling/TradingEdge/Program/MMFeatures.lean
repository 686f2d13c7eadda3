import TradingEdge.Library.Dict
import TradingEdge.Library.Rounding
import TradingEdge.Model.Types

/-!
# Quotes of the market maker

The Avellaneda–Stoikov primitives of `strategies/polymarket_btc15m/_mm_features.py`: the
volatility of the bridge, the reservation price, the spread, and the two prices that come out
of them; and the estimator of the fill intensity the spread is computed with
(`_k_estimator.py`), without the methods that load and store it.  Of its two recorders the engine
calls `recordFill` only.  Prices are in YES units, times in seconds, inventories in signed shares.
-/

set_option autoImplicit false

namespace TradingEdge.Program

open TradingEdge.Model TradingEdge.Library

/-- SOURCE: strategies/polymarket_btc15m/_mm_features.py:41-53 -/
structure ASParams (K : Type) where
  gammaInventoryRisk : K
  windowSeconds : ℤ
  spreadFloorBps : K
  spreadCeilingBps : K
  tauTerminalS : K

variable {K : Type} [Field K] [LinearOrder K]

/-- SOURCE: strategies/polymarket_btc15m/_mm_features.py:56-71 -/
def sigmaBm (lib : MathLib K) (pFair tInWindowS : K) (windowSeconds : ℤ) : K :=
  if ¬(0 < pFair ∧ pFair < 1) then 0
  else if (windowSeconds : K) ≤ tInWindowS then 0
  else
    let t := max 0 tInWindowS
    lib.sqrt (pFair * (1 - pFair) * (windowSeconds - t) / windowSeconds)

/-- What inventory costs per share: γ · σ² · (T − t), as `reservation_price` and
`optimal_total_spread` compute it. -/
def inventoryRisk (lib : MathLib K) (pFair : K) (params : ASParams K) (tInWindowS : K) : K :=
  let sigma := sigmaBm lib pFair tInWindowS params.windowSeconds
  let tRemaining := max 0 ((params.windowSeconds : K) - tInWindowS)
  params.gammaInventoryRisk * sigma ^ 2 * tRemaining

/-- SOURCE: strategies/polymarket_btc15m/_mm_features.py:74-93 -/
def reservationPrice (lib : MathLib K) (pFair qShares : K) (params : ASParams K)
    (tInWindowS : K) : K :=
  let sigma := sigmaBm lib pFair tInWindowS params.windowSeconds
  if sigma = 0 then pFair
  else
    let tRemaining := max 0 ((params.windowSeconds : K) - tInWindowS)
    let skew := qShares * params.gammaInventoryRisk * sigma ^ 2 * tRemaining
    min (999 / 1000) (max (1 / 1000) (pFair - skew))

/-- SOURCE: strategies/polymarket_btc15m/_mm_features.py:96-122 -/
def optimalTotalSpread (lib : MathLib K) (pFair k : K) (params : ASParams K)
    (tInWindowS : K) : K :=
  let invRiskTerm := inventoryRisk lib pFair params tInWindowS
  let intensityTerm :=
    if 0 < k ∧ 0 < params.gammaInventoryRisk then
      2 / params.gammaInventoryRisk * lib.log (1 + params.gammaInventoryRisk / k)
    else 0
  let delta := invRiskTerm + intensityTerm
  min (params.spreadCeilingBps / 10000) (max (params.spreadFloorBps / 10000) delta)

/-- The bid and the ask.
SOURCE: strategies/polymarket_btc15m/_mm_features.py:126-154 -/
def optimalBidAsk (lib : MathLib K) (pFair qShares k : K) (params : ASParams K)
    (tInWindowS : K) : K × K :=
  let r := reservationPrice lib pFair qShares params tInWindowS
  let half := optimalTotalSpread lib pFair k params tInWindowS / 2
  let bid := max (1 / 1000) (min (999 / 1000) (r - half))
  let ask := max (1 / 1000) (min (999 / 1000) (r + half))
  if ask ≤ bid then (max (1 / 1000) (r - 5 / 1000), min (999 / 1000) (r + 5 / 1000))
  else (bid, ask)

/-- SOURCE: strategies/polymarket_btc15m/_mm_features.py:192-207 -/
def InQuotingWindow (tInWindowS : K) (params : ASParams K) (entryWindowStartS : K) : Prop :=
  entryWindowStartS ≤ tInWindowS ∧
    tInWindowS ≤ (params.windowSeconds : K) - params.tauTerminalS

instance (tInWindowS : K) (params : ASParams K) (entryWindowStartS : K) :
    Decidable (InQuotingWindow tInWindowS params entryWindowStartS) :=
  inferInstanceAs (Decidable (_ ∧ _))

/-- SOURCE: strategies/polymarket_btc15m/_mm_features.py:210-229 -/
def InActiveZone (pFair zoneLo zoneHi deadZoneLo deadZoneHi : K) : Prop :=
  (zoneLo ≤ pFair ∧ pFair ≤ zoneHi) ∧ ¬(deadZoneLo ≤ pFair ∧ pFair ≤ deadZoneHi)

instance (pFair zoneLo zoneHi deadZoneLo deadZoneHi : K) :
    Decidable (InActiveZone pFair zoneLo zoneHi deadZoneLo deadZoneHi) :=
  inferInstanceAs (Decidable (_ ∧ _))

/-- SOURCE: strategies/polymarket_btc15m/_k_estimator.py:41-52 -/
structure KCounter (K : Type) where
  fillsCount : ℤ
  minutesQuoted : K
  windowStart : K

/-- SOURCE: strategies/polymarket_btc15m/_k_estimator.py:54-57 -/
def KCounter.k (c : KCounter K) : K :=
  if c.minutesQuoted ≤ 0 then 0 else c.fillsCount / c.minutesQuoted

/-- The counters of a strategy, one for each bucket and each distance in cents.
SOURCE: strategies/polymarket_btc15m/_k_estimator.py:70-79 -/
structure KEstimator (K : Type) where
  counters : Dict (String × ℤ) (KCounter K)

/-- The distances the estimator counts at, in cents. -/
def KEstimator.deltasCents : List ℤ := [1, 2, 3, 5]

/-- `window_days` of the estimator, in seconds.
SOURCE: strategies/polymarket_btc15m/_k_estimator.py:70-79 -/
def KEstimator.window : K := 604800

/-- A cell starts afresh after seven days.
SOURCE: strategies/polymarket_btc15m/_k_estimator.py:81-87 -/
def KEstimator.maybeRoll (e : KEstimator K) (key : String × ℤ) (now : K) : KEstimator K :=
  match e.counters.get? key with
  | none => ⟨e.counters.set key ⟨0, 0, now⟩⟩
  | some c =>
    if 604800 ≤ now - c.windowStart then ⟨e.counters.set key ⟨0, 0, now⟩⟩ else e

/-- `int(round(x))`: a tie goes to the even integer. -/
def roundInt [FloorRing K] (x : K) : ℤ :=
  if x - (⌊x⌋ : K) < 1 / 2 ∨ x - (⌊x⌋ : K) = 1 / 2 ∧ ⌊x⌋ % 2 = 0 then ⌊x⌋ else ⌊x⌋ + 1

/-- An integer rounds to itself. -/
theorem roundInt_intCast [IsStrictOrderedRing K] [FloorRing K] (n : ℤ) :
    roundInt (n : K) = n :=
  (nearestEven_floor (n : K)).unique (by simp [NearestEven])

/-- SOURCE: strategies/polymarket_btc15m/_k_estimator.py:89-99 -/
def KEstimator.warmStart [FloorRing K] (e : KEstimator K) (bucket : String) (deltaCents : ℤ)
    (k0 minutes now : K) : KEstimator K :=
  ⟨e.counters.set (bucket, deltaCents) ⟨roundInt (k0 * minutes), minutes, now⟩⟩

/-- SOURCE: strategies/polymarket_btc15m/_k_estimator.py:101-111 -/
def KEstimator.recordFill (e : KEstimator K) (bucket : String) (deltaCents : ℤ) (now : K) :
    KEstimator K :=
  if deltaCents ∉ KEstimator.deltasCents then e
  else
    let key := (bucket, deltaCents)
    let e := e.maybeRoll key now
    match e.counters.get? key with
    | none => e
    | some c => ⟨e.counters.set key { c with fillsCount := c.fillsCount + 1 }⟩

/-- SOURCE: strategies/polymarket_btc15m/_k_estimator.py:113-125 -/
def KEstimator.recordQuotingMinute (e : KEstimator K) (bucket : String) (deltaCents : ℤ)
    (periodMinutes now : K) : KEstimator K :=
  if deltaCents ∉ KEstimator.deltasCents then e
  else
    let key := (bucket, deltaCents)
    let e := e.maybeRoll key now
    match e.counters.get? key with
    | none => e
    | some c => ⟨e.counters.set key { c with minutesQuoted := c.minutesQuoted + periodMinutes }⟩

/-- SOURCE: strategies/polymarket_btc15m/_k_estimator.py:127-132 -/
def KEstimator.k (e : KEstimator K) (bucket : String) (deltaCents : ℤ) : K :=
  match e.counters.get? (bucket, deltaCents) with
  | none => 0
  | some c => c.k

end TradingEdge.Program
