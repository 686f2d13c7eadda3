import Mathlib.Logic.Function.Basic
import TradingEdge.Library.Grouping
import TradingEdge.Library.Machine
import TradingEdge.Program.MMFeatures

/-!
# The counters of the estimators in the database

Several instances of the strategy keep their counters of fills and minutes in one table, each under
its own id.  An instance that boots starts its estimator warm and then loads what the table has for
it, unless the table cannot be read.
-/

set_option autoImplicit false

namespace TradingEdge.Program

open TradingEdge.Model TradingEdge.Library

variable {K : Type} [Field K] [LinearOrder K] {ι : Type}

/-- The columns of a row outside its key.
SOURCE: infra/postgres/init/15_k_estimator_state.sql:12-22 -/
structure KStateRow (K : Type) where
  counter : KCounter K
  kValue : K
  lastUpdate : K

/-- The table, by strategy, bucket and distance in cents.
SOURCE: infra/postgres/init/15_k_estimator_state.sql:12-22 -/
abbrev KStateTable (K : Type) := Dict (String × String × ℤ) (KStateRow K)

/-- SOURCE: strategies/polymarket_btc15m/_k_estimator.py:146-185 -/
def KEstimator.flushToDb (e : KEstimator K) (strategyId : String) (now : K) (t : KStateTable K) :
    KStateTable K :=
  t.setAll (e.counters.entries.map fun cell =>
    ((strategyId, cell.1.1, cell.1.2), ⟨cell.2, cell.2.k, now⟩))

/-- SOURCE: strategies/polymarket_btc15m/_k_estimator.py:187-208 -/
def KEstimator.loadFromDb (e : KEstimator K) (strategyId : String) (t : KStateTable K) :
    KEstimator K :=
  ⟨e.counters.setAll ((t.entries.filter fun row => row.1.1 = strategyId).map fun row =>
    ((row.1.2.1, row.1.2.2), row.2.counter))⟩

/-- An estimator as an instance boots with it; the load may raise.
SOURCE: cli/paper_engine.py:121-130 -/
def bootEstimator [FloorRing K] (strategyId : String) (t : KStateTable K) (now : K)
    (readable : Bool) : KEstimator K :=
  let kEst : KEstimator K := ⟨Dict.empty⟩
  let kEst := kEst.warmStart "0.30-0.40" 2 28 60 now
  if readable then kEst.loadFromDb strategyId t else kEst

/-- The estimators of the instances, and their table. -/
structure EstimatorFleet (ι K : Type) where
  estimators : ι → KEstimator K
  table : KStateTable K

/-- What an instance does with its estimator: a fill, a quoted period, a flush, or a boot. -/
inductive EstimatorLabel (K : Type) where
  | fill (bucket : String) (deltaCents : ℤ) (now : K)
  | quoted (bucket : String) (deltaCents : ℤ) (periodMinutes now : K)
  | flush (now : K)
  | boot (now : K) (readable : Bool)

variable [FloorRing K] [DecidableEq ι]

/-- A step of one instance. -/
def EstimatorFleet.step (strategyId : ι → String) (s : EstimatorFleet ι K) (i : ι) :
    EstimatorLabel K → EstimatorFleet ι K
  | .fill bucket deltaCents now =>
    { s with
      estimators := Function.update s.estimators i
        ((s.estimators i).recordFill bucket deltaCents now) }
  | .quoted bucket deltaCents periodMinutes now =>
    { s with
      estimators := Function.update s.estimators i
        ((s.estimators i).recordQuotingMinute bucket deltaCents periodMinutes now) }
  | .flush now => { s with table := (s.estimators i).flushToDb (strategyId i) now s.table }
  | .boot now readable =>
    { s with
      estimators := Function.update s.estimators i
        (bootEstimator (strategyId i) s.table now readable) }

/-- The instances side by side. -/
def estimatorFleet (strategyId : ι → String) :
    Machine (EstimatorFleet ι K) (ι × EstimatorLabel K) Unit :=
  ⟨fun s l => (s.step strategyId l.1 l.2, [])⟩

end TradingEdge.Program
