import TradingEdge.Program.TrainLast90s

/-!
# The walk-forward folds

`research/walk_forward.py` lays the folds over a range of dates, and `cli/walk_forward.py`
picks the markets of a fold, trains on those of its first part and tests on those of its
second.  Instants are counted in microseconds, the resolution of a `datetime`.
-/

set_option autoImplicit false

namespace TradingEdge.Program

open TradingEdge.Model

/-- A `timedelta` of whole days. -/
def timedeltaDays (days : ℤ) : ℤ := days * 86400000000

/-- SOURCE: research/walk_forward.py:31-37 -/
structure FoldWindow where
  idx : ℕ
  isFrom : ℤ
  isTo : ℤ
  oosFrom : ℤ
  oosTo : ℤ
deriving DecidableEq

/-- The fold that starts at an anchor.
SOURCE: research/walk_forward.py:70-83 -/
def foldAt (isDays oosDays : ℤ) (anchor : ℤ) (idx : ℕ) : FoldWindow where
  idx := idx
  isFrom := anchor
  isTo := anchor + timedeltaDays isDays
  oosFrom := anchor + timedeltaDays isDays
  oosTo := anchor + timedeltaDays isDays + timedeltaDays oosDays

/-- The loop over the anchors: it ends with the first fold that overruns `tTo`.
SOURCE: research/walk_forward.py:66-87 -/
def foldsFrom (tTo isDays oosDays stepDays : ℤ)
    (hpos : 0 < isDays ∧ 0 < oosDays ∧ 0 < stepDays) (anchor : ℤ) (idx : ℕ) : List FoldWindow :=
  if tTo < (foldAt isDays oosDays anchor idx).oosTo then []
  else
    foldAt isDays oosDays anchor idx ::
      foldsFrom tTo isDays oosDays stepDays hpos (anchor + timedeltaDays stepDays) (idx + 1)
termination_by (tTo - anchor).toNat
decreasing_by
  rename_i h
  obtain ⟨his, hoos, hstep⟩ := hpos
  simp only [foldAt, timedeltaDays, not_lt] at h ⊢
  omega

/-- SOURCE: research/walk_forward.py:48-87 -/
def buildFolds (tFrom tTo isDays oosDays stepDays : ℤ) : Except String (List FoldWindow) :=
  if hpos : 0 < isDays ∧ 0 < oosDays ∧ 0 < stepDays then
    if tTo ≤ tFrom then .error "t_to must be after t_from"
    else .ok (foldsFrom tTo isDays oosDays stepDays hpos tFrom 0)
  else .error "is_days, oos_days, step_days must all be > 0"

/-- The in-sample markets of a fold.
SOURCE: cli/walk_forward.py:205 -/
def isMarkets {K : Type} (fold : FoldWindow) (markets : List (ResolvedMarket K)) :
    List (ResolvedMarket K) :=
  markets.filter fun m => ClosesIn m fold.isFrom fold.isTo

/-- The out-of-sample markets of a fold.
SOURCE: cli/walk_forward.py:206 -/
def oosMarkets {K : Type} (fold : FoldWindow) (markets : List (ResolvedMarket K)) :
    List (ResolvedMarket K) :=
  markets.filter fun m => ClosesIn m fold.oosFrom fold.oosTo

/-- What an evaluation of a fold comes to before any model is trained: the note of a fold it
does not validate, with the number of trades it reports, or the samples of both parts. -/
inductive FoldData (V : Type) where
  | unvalidated (nTradesOos : ℕ) (note : String)
  | samples (isSamples oosSamples : List (Sample V))

/-- The evaluation of a fold up to the training.
SOURCE: cli/walk_forward.py:171-240 -/
def evalLast90sV3Fold {K V : Type} [Field K] [LinearOrder K] (src : TrainSources K V)
    (fold : FoldWindow) : FoldData V :=
  match src.polybotAgent with
  | none => .unvalidated 0 "polybot-agent sqlite missing"
  | some db =>
    let markets := loadResolvedMarkets src.minuteCloses true (some db)
    let isMs := isMarkets fold markets
    let oosMs := oosMarkets fold markets
    if isMs.length < 50 ∨ oosMs.length < 10 then
      .unvalidated oosMs.length
        ("is=" ++ toString isMs.length ++ " oos=" ++ toString oosMs.length)
    else
      let candles := loadOhlcv5m src.candles5m fold.isFrom fold.oosTo
      let build := fun ms : List (ResolvedMarket K) =>
        buildSamples src ⟨true, 90⟩ candles (ms.map fun m => (some db, m))
      if (build isMs).length < 40 ∨ (build oosMs).length < 10 then
        .unvalidated (build oosMs).length "post-feature-build insufficient"
      else .samples (build isMs) (build oosMs)

/-! ## What the folds are -/

/-- The parts of every fold are in order and meet in one instant.
SOURCE: research/walk_forward.py:66-87 -/
theorem mem_foldsFrom (tTo isDays oosDays stepDays : ℤ)
    (hpos : 0 < isDays ∧ 0 < oosDays ∧ 0 < stepDays) (anchor : ℤ) (idx : ℕ) (fold : FoldWindow)
    (h : fold ∈ foldsFrom tTo isDays oosDays stepDays hpos anchor idx) :
    fold.isFrom < fold.isTo ∧ fold.oosFrom = fold.isTo ∧ fold.oosFrom < fold.oosTo := by
  induction anchor, idx using foldsFrom.induct tTo isDays oosDays stepDays hpos with
  | case1 anchor idx hover =>
    rw [foldsFrom, if_pos hover] at h
    cases h
  | case2 anchor idx hfits ih =>
    rw [foldsFrom, if_neg hfits] at h
    rcases List.mem_cons.mp h with rfl | hrest
    · refine ⟨?_, rfl, ?_⟩
      · simp only [foldAt, timedeltaDays]
        omega
      · simp only [foldAt, timedeltaDays]
        omega
    · exact ih hrest

/-- A fold has two parts, one right behind the other. -/
theorem mem_buildFolds {tFrom tTo isDays oosDays stepDays : ℤ} {folds : List FoldWindow}
    (h : buildFolds tFrom tTo isDays oosDays stepDays = .ok folds) {fold : FoldWindow}
    (hfold : fold ∈ folds) :
    fold.isFrom < fold.isTo ∧ fold.oosFrom = fold.isTo ∧ fold.oosFrom < fold.oosTo := by
  unfold buildFolds at h
  split at h
  · rename_i hpos
    split at h
    · cases h
    · obtain rfl := Except.ok.inj h
      exact mem_foldsFrom tTo isDays oosDays stepDays hpos tFrom 0 fold hfold
  · cases h

end TradingEdge.Program
