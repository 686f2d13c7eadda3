import TradingEdge.Program.Last90sFeatures

/-!
# `last_90s_forecaster_v3`

`strategies/polymarket_btc5m/last_90s_forecaster_v3.py`: inside its entry window the strategy
collects the spot prices of the last 90 seconds, builds the feature vector and asks the model.
The providers and the model are parameters of the strategy, each of which may be missing.
-/

set_option autoImplicit false

namespace TradingEdge.Program

open TradingEdge.Model

/-- The parameters of the strategy.
SOURCE: strategies/polymarket_btc5m/last_90s_forecaster_v3.py:85-95 -/
structure ForecasterConfig (K : Type) where
  entryStart : K
  entryEnd : K
  edgeThreshold : K
  spreadMax : K
  adxThreshold : K
  consecutiveMin : ℤ
  msWindowS : ℤ
  largeThresholdUsd : K
  shadow : Bool

/-- SOURCE: strategies/polymarket_btc5m/last_90s_forecaster_v3.py:66-82 -/
structure Last90sForecasterV3 (K : Type) where
  cfg : ForecasterConfig K
  macroProvider : Option (K → Option (MacroSnapshot K))
  model : Option (List K → K)
  msProvider : Option (K → Microstructure K)

/-- The reasons of the strategy, with the numbers that stand in the last of them. -/
inductive ForecasterReason (K : Type) where
  | outsideEntryWindow
  | insufficientMicroData
  | noMacroSnapshot
  | shadowModeNoModel
  | spreadTooWide
  | macroContradictsMicro
  | edgeBelowThreshold
  | shadowMode
  | edge (edge microProb : K) (regime : Regime)

/-- What the model said, as the signal features record it behind the vector.
SOURCE: strategies/polymarket_btc5m/last_90s_forecaster_v3.py:169-176 -/
structure ModelSignal (K : Type) where
  microProb : K
  edge : K
  regime : Regime
  shadow : Bool

/-- The rest of a decision: the reason, the features by name, and the answer of the model. -/
structure ForecasterPayload (K : Type) where
  reason : ForecasterReason K
  features : List (String × K) := []
  signal : Option (ModelSignal K) := none

/-- The decision not to enter. -/
def forecasterSkip {K : Type} (reason : ForecasterReason K) : Decision (ForecasterPayload K) :=
  ⟨.skip, .none, { reason := reason }⟩

section Forecaster

variable {K : Type} [Field K] [LinearOrder K]

/-- SOURCE: strategies/polymarket_btc5m/last_90s_forecaster_v3.py:85-95 -/
def ForecasterConfig.default : ForecasterConfig K where
  entryStart := 205
  entryEnd := 215
  edgeThreshold := 4 / 100
  spreadMax := 150
  adxThreshold := 20
  consecutiveMin := 2
  msWindowS := 90
  largeThresholdUsd := 100000
  shadow := true

/-- The positive spot prices of the last 90 seconds, and the current one.
SOURCE: strategies/polymarket_btc5m/last_90s_forecaster_v3.py:100-105 -/
def spotsLast90s (ctx : TickContext K) (recentTicks : List (TickContext K)) : List K :=
  (recentTicks.filter fun t => ctx.ts - t.ts ≤ 90 ∧ 0 < t.spotPrice).map (·.spotPrice) ++
    [ctx.spotPrice]

/-- The tick lies in the entry window. -/
def ForecasterConfig.InEntryWindow (cfg : ForecasterConfig K) (ctx : TickContext K) : Prop :=
  cfg.entryStart ≤ ctx.tInWindow ∧ ctx.tInWindow ≤ cfg.entryEnd

instance ForecasterConfig.decidableInEntryWindow (cfg : ForecasterConfig K) (ctx : TickContext K) :
    Decidable (cfg.InEntryWindow ctx) := inferInstanceAs (Decidable (_ ∧ _))

/-- The macro snapshot of a time, if there is a provider and it has one.
SOURCE: strategies/polymarket_btc5m/last_90s_forecaster_v3.py:109-111 -/
def Last90sForecasterV3.macroSnap (s : Last90sForecasterV3 K) (ts : K) :
    Option (MacroSnapshot K) :=
  match s.macroProvider with
  | none => none
  | some snapshotAt => snapshotAt ts

/-- The features of the tape, or those of an empty tape where there is no provider.
SOURCE: strategies/polymarket_btc5m/last_90s_forecaster_v3.py:140-153 -/
def Last90sForecasterV3.msFeatures (s : Last90sForecasterV3 K) (ts : K) : Microstructure K :=
  match s.msProvider with
  | some fetch => fetch ts
  | none => binanceMicrostructureFromTrades [] 0 s.cfg.msWindowS s.cfg.largeThresholdUsd

/-- The regime of a snapshot under the thresholds of the strategy.
SOURCE: strategies/polymarket_btc5m/last_90s_forecaster_v3.py:115-122 -/
def ForecasterConfig.regimeOf (cfg : ForecasterConfig K) (snap : MacroSnapshot K) : Regime :=
  classifyRegime snap.ema8 snap.ema34 snap.adx14 snap.consecutiveSameDir cfg.adxThreshold
    cfg.consecutiveMin

variable [FloorRing K]

/-- The vector the model is given.
SOURCE: strategies/polymarket_btc5m/last_90s_forecaster_v3.py:115-155 -/
def Last90sForecasterV3.vector (lib : MathLib K) (trig : Trig K) (s : Last90sForecasterV3 K)
    (ctx : TickContext K) (spots : List K) (snap : MacroSnapshot K) : List K :=
  buildVector lib trig {
    asOfTs := ctx.ts
    spotsLast90s := spots
    macroSnap := { snap with regime := s.cfg.regimeOf snap }
    impliedProbYes := ctx.impliedProbYes
    yesAsk := ctx.pmYesAsk
    noAsk := ctx.pmNoAsk
    depthYes := ctx.pmDepthYes
    depthNo := ctx.pmDepthNo
    pmImbalance := ctx.pmImbalance
    pmSpreadBps := ctx.pmSpreadBps } ++ (s.msFeatures ctx.ts).tail

/-- What the strategy decides on the answer of the model.
SOURCE: strategies/polymarket_btc5m/last_90s_forecaster_v3.py:166-199 -/
def ForecasterConfig.decide (cfg : ForecasterConfig K) (ctx : TickContext K) (regime : Regime)
    (features : List (String × K)) (microProb : K) : Decision (ForecasterPayload K) :=
  let edge := microProb - ctx.impliedProbYes
  let answer (action : Action) (side : Side) (reason : ForecasterReason K) :
      Decision (ForecasterPayload K) :=
    ⟨action, side, ⟨reason, features, some ⟨microProb, edge, regime, cfg.shadow⟩⟩⟩
  if cfg.spreadMax < ctx.pmSpreadBps then answer .skip .none .spreadTooWide
  else if regime = .uptrend ∧ microProb ≤ 1 / 2 then answer .skip .none .macroContradictsMicro
  else if regime = .downtrend ∧ 1 / 2 ≤ microProb then answer .skip .none .macroContradictsMicro
  else if |edge| < cfg.edgeThreshold then answer .skip .none .edgeBelowThreshold
  else if cfg.shadow then answer .skip .none .shadowMode
  else answer .enter (if 0 < edge then .yesUp else .yesDown) (.edge edge microProb regime)

/-- SOURCE: strategies/polymarket_btc5m/last_90s_forecaster_v3.py:84-199 -/
def Last90sForecasterV3.shouldEnter (lib : MathLib K) (trig : Trig K)
    (s : Last90sForecasterV3 K) (ctx : TickContext K) (recentTicks : List (TickContext K)) :
    Decision (ForecasterPayload K) :=
  if ¬s.cfg.InEntryWindow ctx then forecasterSkip .outsideEntryWindow
  else
    let spots := spotsLast90s ctx recentTicks
    if spots.length < 60 then forecasterSkip .insufficientMicroData
    else
      match s.macroSnap ctx.ts with
      | none => forecasterSkip .noMacroSnapshot
      | some snap =>
        let vec := s.vector lib trig ctx spots snap
        let features := featureNamesV3.zip vec
        match s.model with
        | none => ⟨.skip, .none, ⟨.shadowModeNoModel, features, none⟩⟩
        | some predictProba =>
          s.cfg.decide ctx (s.cfg.regimeOf snap) features (predictProba vec)

/-- The strategy as the drivers call it: it keeps no state of its own.
SOURCE: strategies/polymarket_btc5m/last_90s_forecaster_v3.py:69-70 -/
def last90sForecasterV3 (lib : MathLib K) (trig : Trig K) (s : Last90sForecasterV3 K) :
    Strategy K Unit (ForecasterPayload K) where
  name := "last_90s_forecaster_v3"
  shouldEnter st ctx recentTicks := (s.shouldEnter lib trig ctx recentTicks, st)

omit [FloorRing K] in
/-- A decision on the answer of the model records the features it was given. -/
theorem ForecasterConfig.decide_features (cfg : ForecasterConfig K) (ctx : TickContext K)
    (regime : Regime) (features : List (String × K)) (microProb : K) :
    (cfg.decide ctx regime features microProb).payload.features = features := by
  unfold ForecasterConfig.decide
  dsimp only
  split_ifs <;> rfl

/-- **Features are recorded** for a tick in the entry window with 60 samples and a snapshot, and
they are then the vector by name.
SOURCE: strategies/polymarket_btc5m/last_90s_forecaster_v3.py:97-163 -/
theorem Last90sForecasterV3.shouldEnter_features (lib : MathLib K) (trig : Trig K)
    (s : Last90sForecasterV3 K) (ctx : TickContext K) (recentTicks : List (TickContext K)) :
    (s.shouldEnter lib trig ctx recentTicks).payload.features =
      if s.cfg.InEntryWindow ctx ∧ 60 ≤ (spotsLast90s ctx recentTicks).length then
        match s.macroSnap ctx.ts with
        | none => []
        | some snap =>
          featureNamesV3.zip (s.vector lib trig ctx (spotsLast90s ctx recentTicks) snap)
      else [] := by
  unfold Last90sForecasterV3.shouldEnter
  by_cases hwindow : s.cfg.InEntryWindow ctx
  · rw [if_neg (not_not.mpr hwindow)]
    dsimp only
    by_cases hfew : (spotsLast90s ctx recentTicks).length < 60
    · rw [if_pos hfew, if_neg (fun h => absurd h.2 (not_le.mpr hfew))]
      rfl
    · rw [if_neg hfew, if_pos ⟨hwindow, not_lt.mp hfew⟩]
      cases s.macroSnap ctx.ts with
      | none => rfl
      | some snap =>
        dsimp only
        cases s.model with
        | none => rfl
        | some predictProba => exact s.cfg.decide_features ctx _ _ _
  · rw [if_pos hwindow, if_neg (fun h => hwindow h.1)]
    rfl

end Forecaster

end TradingEdge.Program
