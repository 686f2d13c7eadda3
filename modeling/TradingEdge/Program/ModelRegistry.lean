import Mathlib.Algebra.Order.Ring.Rat
import Mathlib.Logic.Function.Basic
import TradingEdge.Library.Dict
import TradingEdge.Library.Machine

/-!
# The registry of trained models

A training run saves its artefacts file by file under `models/<name>/<version>` and then goes to
`research.models`: a run that promotes its model first takes the flag `is_active` from the rows of
its name, and each run inserts its row.  These are two statements of their own, so that other runs
may come between them, and a run may die between any two of its steps.  Two indexes are unique:
the name with the version, and the name among the active rows.
-/

set_option autoImplicit false

namespace TradingEdge.Program

open TradingEdge.Library

/-- The metrics that the gate reads; the two counts may be missing.
SOURCE: cli/train_last90s.py:636-643 -/
structure TrainedMetrics where
  nVal : Option ℤ
  nTest : Option ℤ
  testAuc : ℚ
  testBrier : ℚ
  eceVal : ℚ

/-- SOURCE: cli/train_last90s.py:627-644 -/
def passesPromotion (metrics : TrainedMetrics) : Bool :=
  let nVal := metrics.nVal.getD 0
  let nTest := metrics.nTest.getD 0
  let eceCap : ℚ := if 200 ≤ nVal then 5 / 100 else 20 / 100
  let brierCap : ℚ := if 200 ≤ nTest then 245 / 1000 else 260 / 1000
  55 / 100 ≤ metrics.testAuc ∧ metrics.testBrier ≤ brierCap ∧ metrics.eceVal ≤ eceCap

/-- SOURCE: cli/train_last90s.py:667, cli/train_hmm_regime.py:118-119 -/
structure OutDir where
  name : String
  version : String
deriving DecidableEq

variable {A ι : Type}

/-- What a training run has to write once its model is fitted: a forecaster, or the regimes. -/
inductive TrainRun (A : Type) where
  | forecaster (name version : String) (metrics : TrainedMetrics) (promote : Bool)
      (model : A) (calibrator : Option A) (metaJson : A)
  | hmmRegime (version : String) (promote : Bool) (model metaJson : A)

/-- SOURCE: cli/train_last90s.py:884, cli/train_hmm_regime.py:146 -/
def TrainRun.name : TrainRun A → String
  | .forecaster name .. => name
  | .hmmRegime .. => "hmm_regime_btc5m"

def TrainRun.version : TrainRun A → String
  | .forecaster _ version .. => version
  | .hmmRegime version .. => version

/-- SOURCE: cli/train_last90s.py:667, cli/train_hmm_regime.py:118-119 -/
def TrainRun.outDir (run : TrainRun A) : OutDir := ⟨run.name, run.version⟩

/-- A forecaster is promoted if it also passes the gate.
SOURCE: cli/train_last90s.py:695-696, cli/train_hmm_regime.py:143, 165 -/
def TrainRun.isActive : TrainRun A → Bool
  | .forecaster _ _ metrics promote .. => promote && passesPromotion metrics
  | .hmmRegime _ promote .. => promote

/-- The files in the order they are written in.
SOURCE: cli/train_last90s.py:668-693, cli/train_hmm_regime.py:121-134 -/
def TrainRun.files : TrainRun A → List (String × A)
  | .forecaster _ _ _ _ model calibrator metaJson =>
    ("model.lgb", model) :: (calibrator.map fun c => ("calibrator.pkl", c)).toList ++
      [("meta.json", metaJson)]
  | .hmmRegime _ _ model metaJson => [("model.pkl", model), ("meta.json", metaJson)]

/-- SOURCE: infra/postgres/init/08_models_and_health.sql:3-15 -/
structure ModelRow where
  name : String
  version : String
  path : OutDir
  isActive : Bool
deriving DecidableEq

/-- SOURCE: cli/train_last90s.py:707-730, cli/train_hmm_regime.py:149-166 -/
def TrainRun.row (run : TrainRun A) : ModelRow :=
  ⟨run.name, run.version, run.outDir, run.isActive⟩

/-- SOURCE: cli/train_last90s.py:703-706, cli/train_hmm_regime.py:143-147 -/
def deactivate (name : String) (rows : List ModelRow) : List ModelRow :=
  rows.map fun row => if row.name = name then { row with isActive := false } else row

/-- A row that violates one of the two unique indexes is not inserted.
SOURCE: infra/postgres/init/08_models_and_health.sql:16-22 -/
def insertModel (row : ModelRow) (rows : List ModelRow) : Option (List ModelRow) :=
  if ∃ old ∈ rows, old.name = row.name ∧
      (old.version = row.version ∨ old.isActive = true ∧ row.isActive = true) then none
  else some (rows ++ [row])

/-- Where a run is: with files left to write, after its UPDATE, after its INSERT, which was
accepted or raised, or dead. -/
inductive TrainPhase (A : Type) where
  | saving (left : List (String × A))
  | demoted
  | registered
  | refused
  | died

structure Registry (ι A : Type) where
  disk : Dict (OutDir × String) A
  rows : List ModelRow
  phase : ι → TrainPhase A

/-- A run goes on, or it dies; of a file that it was writing something may be left. -/
inductive RegistryLabel (ι A : Type) where
  | go (i : ι)
  | die (i : ι) (torn : Option A)

inductive RegistryEvent (ι : Type) where
  | demoted (i : ι)
  | registered (i : ι)
deriving DecidableEq

variable [DecidableEq ι]

def Registry.toPhase (s : Registry ι A) (i : ι) (phase : TrainPhase A) : Registry ι A :=
  { s with phase := Function.update s.phase i phase }

def Registry.insert (s : Registry ι A) (i : ι) (row : ModelRow) :
    Registry ι A × List (RegistryEvent ι) :=
  match insertModel row s.rows with
  | none => (s.toPhase i .refused, [])
  | some rows => ({ s.toPhase i .registered with rows := rows }, [.registered i])

/-- SOURCE: cli/train_last90s.py:667-733, cli/train_hmm_regime.py:118-169 -/
def Registry.go (run : ι → TrainRun A) (s : Registry ι A) (i : ι) :
    Registry ι A × List (RegistryEvent ι) :=
  match s.phase i with
  | .saving (file :: left) =>
    ({ s.toPhase i (.saving left) with
      disk := s.disk.set ((run i).outDir, file.1) file.2 }, [])
  | .saving [] =>
    if (run i).isActive then
      ({ s.toPhase i .demoted with rows := deactivate (run i).name s.rows }, [.demoted i])
    else s.insert i (run i).row
  | .demoted => s.insert i (run i).row
  | .registered | .refused | .died => (s, [])

/-- A run that has come to its end does not die any more. -/
def Registry.die (run : ι → TrainRun A) (s : Registry ι A) (i : ι) (torn : Option A) :
    Registry ι A :=
  match s.phase i with
  | .saving (file :: _) =>
    match torn with
    | none => s.toPhase i .died
    | some content =>
      { s.toPhase i .died with disk := s.disk.set ((run i).outDir, file.1) content }
  | .saving [] | .demoted => s.toPhase i .died
  | .registered | .refused | .died => s

def registryMachine (run : ι → TrainRun A) :
    Machine (Registry ι A) (RegistryLabel ι A) (RegistryEvent ι) where
  step s
    | .go i => s.go run i
    | .die i torn => (s.die run i torn, [])

/-- The registry is empty and every run has all its files to write. -/
def Registry.start (run : ι → TrainRun A) : Registry ι A :=
  ⟨Dict.empty, [], fun i => .saving (run i).files⟩

/-! ## The loader -/

/-- SOURCE: strategies/polymarket_btc5m/last_90s_forecaster_v3.py:215-221 -/
def activeRow (rows : List ModelRow) (name : String) : Option ModelRow :=
  rows.find? fun row => row.name = name ∧ row.isActive = true

/-- The active model with its calibrator, if both can be opened; without it the strategy starts in
shadow.
SOURCE: strategies/polymarket_btc5m/last_90s_forecaster_v3.py:206-237,
strategies/polymarket_btc5m/_lgb_runner.py:22-33 -/
def loadRunner {R : Type} (lgbRunner : A → Option A → Option R) (s : Registry ι A)
    (name : String) : Option R := do
  let row ← activeRow s.rows name
  let model ← s.disk.get? (row.path, "model.lgb")
  lgbRunner model (s.disk.get? (row.path, "calibrator.pkl"))

end TradingEdge.Program
