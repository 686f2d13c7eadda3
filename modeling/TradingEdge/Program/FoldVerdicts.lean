import TradingEdge.Library.Arithmetic
import TradingEdge.Library.Median
import TradingEdge.Library.Plurality
import TradingEdge.Program.TrendConfirm
import TradingEdge.Program.WalkForward

/-!
# The verdicts of the folds

`classify_fold` and `aggregate_verdicts` of `research/walk_forward.py`: the verdict of a fold, and
the summary of a run over its folds with a recommendation.  `cli/walk_forward.py` makes the results
of the folds, also of those that could not be evaluated.
-/

set_option autoImplicit false

namespace TradingEdge.Program

open TradingEdge.Library

variable {K : Type} [Field K] [LinearOrder K]

/-- The verdict of a fold.
SOURCE: research/walk_forward.py:90-114 -/
def classifyFold (aucIs aucOos : Option K) (nTradesOos : ℤ) : String :=
  if nTradesOos < 20 then "unvalidated_small_sample"
  else
    match aucIs, aucOos with
    | some aucIs, some aucOos =>
      let delta := |aucIs - aucOos|
      if 5 / 100 < delta then "drift"
      else if 3 / 100 < delta then "unstable_aucs"
      else "stable"
    | _, _ => "no_model_auc"

/-! ## The results of the folds -/

/-- The result of a fold, a dict; what it lacks, or has as `None`, is `none` here.
SOURCE: cli/walk_forward.py:258-270, 347-358, 372-385, 472-484 -/
structure FoldResult (K : Type) where
  window : FoldWindow
  aucIs : Option K
  aucOos : Option K
  nTradesOos : ℤ
  pnlOos : Option K
  verdict : Option String
  note : Option String := none
  error : Option String := none

/-- The result of a fold that is not validated.
SOURCE: cli/walk_forward.py:372-385 -/
def unvalidatedFold (fold : FoldWindow) (nTradesOos : ℤ) (note : String) : FoldResult K where
  window := fold
  aucIs := none
  aucOos := none
  nTradesOos := nTradesOos
  pnlOos := some 0
  verdict := some "unvalidated_small_sample"
  note := some note

/-- The result of a fold whose evaluation raises.
SOURCE: cli/walk_forward.py:470-484 -/
def errorFold (fold : FoldWindow) (message : String) : FoldResult K where
  window := fold
  aucIs := none
  aucOos := none
  nTradesOos := 0
  pnlOos := some 0
  verdict := some "error"
  error := some message

/-! ## The summary of a run -/

/-- SOURCE: research/walk_forward.py:132 -/
def FoldResult.verdictText (r : FoldResult K) : String := r.verdict.getD "unknown"

/-- SOURCE: research/walk_forward.py:132 -/
def verdictsOf (folds : List (FoldResult K)) : List String := folds.map FoldResult.verdictText

/-- SOURCE: research/walk_forward.py:133 -/
def aucsOf (folds : List (FoldResult K)) : List K := folds.filterMap FoldResult.aucOos

/-- SOURCE: research/walk_forward.py:134 -/
def pnlsOf (folds : List (FoldResult K)) : List K := folds.filterMap FoldResult.pnlOos

/-- SOURCE: research/walk_forward.py:137 -/
def nStable (folds : List (FoldResult K)) : ℕ := (verdictsOf folds).count "stable"

/-- SOURCE: research/walk_forward.py:146-153 -/
def verdictPriorities : List (String × ℕ) :=
  [("drift", 0), ("unstable_aucs", 1), ("unvalidated_small_sample", 2), ("no_model_auc", 3),
    ("stable", 4), ("unknown", 5)]

/-- `priority.get(v, 9)`.
SOURCE: research/walk_forward.py:157 -/
def verdictPriority (v : String) : ℕ := (verdictPriorities.lookup v).getD 9

/-- The most frequent verdict, and of several the first with the least priority.
SOURCE: research/walk_forward.py:128, 143-157 -/
def dominantVerdict (verdicts : List String) : String :=
  (elected verdictPriority verdicts).getD "insufficient_folds"

/-- SOURCE: research/walk_forward.py:129, 159-166 -/
inductive Recommendation where
  | hold
  | insufficientFolds
  | soakLonger
  | promote
deriving DecidableEq, Repr

section Recommend

variable {K : Type} [Zero K] [One K] [Add K] [Div K] [NatCast K] [LE K] [LT K] [DecidableLE K]
  [DecidableLT K]

/-- SOURCE: research/walk_forward.py:138 -/
def stabilityIndex (folds : List (FoldResult K)) : K := nStable folds / folds.length

/-- SOURCE: research/walk_forward.py:141 -/
def totalPnlOos (folds : List (FoldResult K)) : K := leftSum (pnlsOf folds)

/-- The folds are promoted: three in four are stable, and the median of the figures that there are
is high enough.
SOURCE: research/walk_forward.py:161 -/
def Promotes (folds : List (FoldResult K)) : Prop :=
  3 / 4 ≤ stabilityIndex folds ∧ ∃ m ∈ median (aucsOf folds), 55 / 100 ≤ m

/-- SOURCE: research/walk_forward.py:163 -/
def Soaks (folds : List (FoldResult K)) : Prop :=
  1 / 2 ≤ stabilityIndex folds ∧ 0 < totalPnlOos folds

instance (folds : List (FoldResult K)) : Decidable (Promotes folds) :=
  inferInstanceAs (Decidable (_ ∧ _))

instance (folds : List (FoldResult K)) : Decidable (Soaks folds) :=
  inferInstanceAs (Decidable (_ ∧ _))

/-- SOURCE: research/walk_forward.py:159-166 -/
def recommendation (folds : List (FoldResult K)) : Recommendation :=
  if folds.length < 3 then .insufficientFolds
  else if Promotes folds then .promote
  else if Soaks folds then .soakLonger
  else .hold

end Recommend

/-- The summary of a run; what the one of no folds lacks is `none`.
SOURCE: research/walk_forward.py:123-130, 168-177 -/
structure FoldSummary (K : Type) where
  nFolds : ℕ
  nStable : Option ℕ
  stabilityIndex : K
  medianAucOos : Option K
  medianPnlOos : Option K
  totalPnlOos : Option K
  dominantVerdict : String
  promoteRecommendation : Recommendation

/-- SOURCE: research/walk_forward.py:117-177 -/
def aggregateVerdicts [FloorRing K] (folds : List (FoldResult K)) : FoldSummary K :=
  if folds = [] then
    { nFolds := 0
      nStable := none
      stabilityIndex := 0
      medianAucOos := none
      medianPnlOos := none
      totalPnlOos := none
      dominantVerdict := "insufficient_folds"
      promoteRecommendation := .hold }
  else
    { nFolds := folds.length
      nStable := some (nStable folds)
      stabilityIndex := roundTenThousandths (stabilityIndex folds)
      medianAucOos := median (aucsOf folds)
      medianPnlOos := median (pnlsOf folds)
      totalPnlOos := some (totalPnlOos folds)
      dominantVerdict := dominantVerdict (verdictsOf folds)
      promoteRecommendation := recommendation folds }

end TradingEdge.Program
