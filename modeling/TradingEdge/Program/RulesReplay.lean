import TradingEdge.Program.FoldLoops
import TradingEdge.Program.FoldVerdicts
import TradingEdge.Program.MacroProvider
import TradingEdge.Program.TradeKpis

/-!
# The replay of a fold by the rules

`_replay_rules_fold` of `cli/walk_forward.py` runs the walk forward of the engine on the range of
one fold and reports what it finds in its first split.  It asks the split for its attributes by
name, each with a default.
-/

set_option autoImplicit false

namespace TradingEdge.Program

open TradingEdge.Library TradingEdge.Model

variable {K R G : Type} [Field K] [LinearOrder K] [FloorRing K]

/-! ## The configuration -/

/-- The entries of the parameter file that the replay reads.
SOURCE: cli/walk_forward.py:317-338, 361-366 -/
structure RulesConfig (K : Type) where
  params : TrendConfirmConfig K
  stakeUsd : Option K
  maxPositionSizeUsd : Option K
  slippageBps : K
  fillProbability : K
  earliestEntryTS : ℤ
  latestEntryTS : ℤ
  risk : RiskConfig K
  bypassInBacktest : Bool

/-- The loader of a database: its settle prices and its markets in a range of timestamps, or `none`
if an exception is raised.
SOURCE: engine/data_loader.py:171-182, 252-263 -/
structure MarketLoader (K : Type) where
  marketOutcomes : K → K → Option (String → Option K)
  iterMarkets : K → K → Option (List (String × List (TickContext K)))

/-- What is random in a replay: the generator that the seed makes, and the entropy that the
strategy of each split draws. -/
structure ReplayRandomness (K R G : Type) where
  random : G → K × G
  seeded : G
  choice : ReturnSampler K R
  entropy : ℕ → R

/-- SOURCE: cli/walk_forward.py:316-338, 361-366, engine/walk_forward.py:81-95 -/
def rulesBacktest (lib : MathLib K) (rnd : ReplayRandomness K R G) (cfg : RulesConfig K) :
    BacktestConfig K (TrendState R) (TrendPayload K) G where
  lib := lib
  strategy := trendConfirm lib rnd.choice cfg.params
  stakeUsd := min (cfg.stakeUsd.getD 3) (cfg.maxPositionSizeUsd.getD 5)
  fillCfg := ⟨cfg.slippageBps, cfg.fillProbability, false, 1 / 20⟩
  entryWindow := ⟨cfg.earliestEntryTS, cfg.latestEntryTS⟩
  riskCfg := cfg.risk
  indicatorCfg := IndicatorConfig.default
  bypassRisk := cfg.bypassInBacktest
  random := rnd.random

/-! ## The test of a split -/

/-- `t.timestamp()`. -/
def timestamp (t : Datetime) : K := (t.val : K) / 1000000

/-- The risk manager of a configuration, or `none` if an entry is missing; those it has no use for
are asked for as well.
SOURCE: engine/risk.py:28-41 -/
def riskManager (cfg : RulesConfig K) : Option (RiskState K) :=
  cfg.maxPositionSizeUsd.map fun _ => RiskState.init

/-- The backtest of a split, or `none` if it raises.
SOURCE: engine/walk_forward.py:81-95 -/
def splitRun (lib : MathLib K) (rnd : ReplayRandomness K R G) (cfg : RulesConfig K)
    (loader : MarketLoader K) (fold : ℕ) (testFrom testTo : Datetime) :
    Option (RunState K (TrendState R) (TrendPayload K) G) := do
  let risk ← riskManager cfg
  let settlePrices ← loader.marketOutcomes (timestamp testFrom) (timestamp testTo)
  let markets ← loader.iterMarkets (timestamp testFrom) (timestamp testTo)
  return runBacktest (rulesBacktest lib rnd cfg) (some settlePrices) ⟨∅, rnd.entropy fold⟩
    risk rnd.seeded markets

/-- What a split keeps of its test.
SOURCE: engine/walk_forward.py:37-38 -/
structure SplitReport (K : Type) where
  nTrades : ℕ
  kpis : Kpis K

/-- SOURCE: engine/walk_forward.py:81-106 -/
def splitTest (lib : MathLib K) (rnd : ReplayRandomness K R G) (cfg : RulesConfig K)
    (loader : MarketLoader K) (fold : ℕ) (testFrom testTo : Datetime) : Option (SplitReport K) :=
  (splitRun lib rnd cfg loader fold testFrom testTo).map fun run =>
    ⟨run.trades.length, computeKpis lib run.trades (timestamp testTo - timestamp testFrom)⟩

/-! ## The fold -/

/-- `(b - a).days`, of two instants. -/
def daysBetween (a b : ℤ) : ℤ := (b - a) / 86400000000

/-- The walk forward over the range of a fold is left in this state.
SOURCE: cli/walk_forward.py:316-342 -/
def FoldWalk (lib : MathLib K) (rnd : ReplayRandomness K R G) (cfg : RulesConfig K)
    (loader : MarketLoader K) (fold : FoldWindow) (t : SplitLoop (SplitReport K)) : Prop :=
  ∃ fromDt toDt : Datetime, fromDt.val = fold.isFrom ∧ toDt.val = fold.oosTo ∧
    Ends (splitBody (splitTest lib rnd cfg loader) toDt (daysBetween fold.isFrom fold.isTo)
      (daysBetween fold.oosFrom fold.oosTo) (max 1 (daysBetween fold.oosFrom fold.oosTo)))
      (SplitLoop.start fromDt) t

/-- The attributes of a split that are numbers, by their names.
SOURCE: engine/walk_forward.py:30-38 -/
def numericAttrs (split : WalkForwardSplit (SplitReport K)) : List (String × K) :=
  [("fold", split.fold), ("train_from", timestamp split.trainFrom),
    ("train_to", timestamp split.trainTo), ("test_from", timestamp split.testFrom),
    ("test_to", timestamp split.testTo), ("n_trades", split.report.nTrades)]

/-- `getattr(split, name, 0) or 0`, of no split 0. -/
def splitAttr (splits : List (WalkForwardSplit (SplitReport K))) (name : String) : K :=
  match splits with
  | [] => 0
  | split :: _ => ((numericAttrs split).lookup name).getD 0

/-- What is reported of a fold.
SOURCE: cli/walk_forward.py:343-358 -/
def rulesFoldResult (fold : FoldWindow) (splits : List (WalkForwardSplit (SplitReport K))) :
    FoldResult K :=
  let nTradesOos := truncated (splitAttr splits "n_trades_oos")
  let pnlOos := splitAttr splits "pnl_oos"
  { window := fold
    aucIs := none
    aucOos := none
    nTradesOos := nTradesOos
    pnlOos := some pnlOos
    verdict := some (classifyFold (none : Option K) none nTradesOos) }

/-- The arguments of the replay: the parameter file, and the database with its path, or `none` where
there is none.
SOURCE: cli/walk_forward.py:303-314 -/
structure RulesArgs (K : Type) where
  params : Option (RulesConfig K)
  polybotDb : String
  loader : Option (MarketLoader K)

/-- The replay returns this result; where the walk forward raises there is none.
SOURCE: cli/walk_forward.py:277-358 -/
def ReplaysRulesFold (lib : MathLib K) (rnd : ReplayRandomness K R G) (args : RulesArgs K)
    (fold : FoldWindow) (result : FoldResult K) : Prop :=
  match args.params with
  | none => result = unvalidatedFold fold 0 "--params required for rule-based WF"
  | some cfg =>
    match args.loader with
    | none => result = unvalidatedFold fold 0 ("polybot-db missing: " ++ args.polybotDb)
    | some loader =>
      ∃ t, FoldWalk lib rnd cfg loader fold t ∧ t.raised = false ∧
        result = rulesFoldResult fold t.splits

end TradingEdge.Program
