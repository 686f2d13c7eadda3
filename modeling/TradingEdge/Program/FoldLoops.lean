import TradingEdge.Library.WhileLoop
import TradingEdge.Program.WalkForward

/-!
# The fold loops on the calendar

A `datetime` lies in the years 1 to 9999 and a `timedelta` has at most 999999999 days; arithmetic
that leaves them raises `OverflowError`.  `build_folds` of `research/walk_forward.py` and the loop
of `run_walk_forward` (`engine/walk_forward.py`) with these bounds.  The first checks that its
lengths are positive, the second takes any.
-/

set_option autoImplicit false

namespace TradingEdge.Program

open TradingEdge.Library

/-! ## Dates -/

/-- `datetime.min`, in UTC. -/
def datetimeMin : ℤ := -62135596800000000

/-- `datetime.max`, in UTC. -/
def datetimeMax : ℤ := 253402300799999999

/-- A `datetime` in microseconds. -/
abbrev Datetime : Type := { t : ℤ // datetimeMin ≤ t ∧ t ≤ datetimeMax }

/-- `t + timedelta(days=days)`, or `none` if it raises `OverflowError`.
SOURCE: engine/walk_forward.py:49-50, research/walk_forward.py:72-74, 86 -/
def addDays (t : Datetime) (days : ℤ) : Option Datetime :=
  if |days| ≤ 999999999 then
    if h : datetimeMin ≤ t.val + timedeltaDays days ∧ t.val + timedeltaDays days ≤ datetimeMax then
      some ⟨t.val + timedeltaDays days, h⟩
    else none
  else none

/-- A date that is days later. -/
theorem addDays_eq_some {t u : Datetime} {days : ℤ} (h : addDays t days = some u) :
    u.val = t.val + timedeltaDays days := by
  unfold addDays at h
  split at h
  · split at h
    · rw [← Option.some.inj h]
    · cases h
  · cases h

/-- No time passes in no days. -/
theorem addDays_zero (t : Datetime) : addDays t 0 = some t := by
  obtain ⟨t, ht⟩ := t
  simp [addDays, timedeltaDays, ht]

/-- A step forward comes nearer to the end of the calendar. -/
theorem toMax_lt {t u : Datetime} {days : ℤ} (hdays : 0 < days) (h : addDays t days = some u) :
    (datetimeMax - u.val).toNat < (datetimeMax - t.val).toNat := by
  have hval := addDays_eq_some h
  have hmax := u.property.2
  simp only [timedeltaDays] at hval
  omega

/-- A step back comes nearer to its beginning. -/
theorem toMin_lt {t u : Datetime} {days : ℤ} (hdays : days < 0) (h : addDays t days = some u) :
    (u.val - datetimeMin).toNat < (t.val - datetimeMin).toNat := by
  have hval := addDays_eq_some h
  have hmin := u.property.1
  simp only [timedeltaDays] at hval
  omega

/-! ## The folds of the research -/

/-- What `build_folds` can raise. -/
inductive FoldsError where
  | value (message : String)
  | overflow
deriving DecidableEq, Repr

/-- The loop over the anchors.
SOURCE: research/walk_forward.py:66-87 -/
def Raising.foldsFrom (tTo : Datetime) (isDays oosDays stepDays : ℤ) (hstep : 0 < stepDays)
    (anchor : Datetime) (idx : ℕ) : Except FoldsError (List FoldWindow) :=
  match addDays anchor isDays with
  | none => .error .overflow
  | some isTo =>
    match addDays isTo oosDays with
    | none => .error .overflow
    | some oosTo =>
      if tTo.val < oosTo.val then .ok []
      else
        match _hnext : addDays anchor stepDays with
        | none => .error .overflow
        | some next =>
          match Raising.foldsFrom tTo isDays oosDays stepDays hstep next (idx + 1) with
          | .error e => .error e
          | .ok folds => .ok (⟨idx, anchor.val, isTo.val, isTo.val, oosTo.val⟩ :: folds)
termination_by (datetimeMax - anchor.val).toNat
decreasing_by exact toMax_lt hstep _hnext

/-- SOURCE: research/walk_forward.py:48-87 -/
def Raising.buildFolds (tFrom tTo : Datetime) (isDays oosDays stepDays : ℤ) :
    Except FoldsError (List FoldWindow) :=
  if hpos : 0 < isDays ∧ 0 < oosDays ∧ 0 < stepDays then
    if tTo.val ≤ tFrom.val then .error (.value "t_to must be after t_from")
    else Raising.foldsFrom tTo isDays oosDays stepDays hpos.2.2 tFrom 0
  else .error (.value "is_days, oos_days, step_days must all be > 0")

/-! ## The splits of the engine -/

/-- A split, with what is reported of its test: the number of trades and the figures.
SOURCE: engine/walk_forward.py:30-38 -/
structure WalkForwardSplit (R : Type) where
  fold : ℕ
  trainFrom : Datetime
  trainTo : Datetime
  testFrom : Datetime
  testTo : Datetime
  report : R

/-- The variables of the loop; `raised` says that an exception has left it.
SOURCE: engine/walk_forward.py:71-73 -/
structure SplitLoop (R : Type) where
  cursor : Datetime
  fold : ℕ
  splits : List (WalkForwardSplit R)
  raised : Bool

/-- SOURCE: engine/walk_forward.py:71-73 -/
def SplitLoop.start {R : Type} (fromDt : Datetime) : SplitLoop R := ⟨fromDt, 0, [], false⟩

/-- The end of the training and the end of the test of a split.
SOURCE: engine/walk_forward.py:75-78 -/
def splitWindow (trainDays testDays : ℤ) (cursor : Datetime) : Option (Datetime × Datetime) := do
  let trainTo ← addDays cursor trainDays
  let testTo ← addDays trainTo testDays
  return (trainTo, testTo)

/-- One turn of the loop.  `runTest` is the backtest of a fold from one date to another with its
figures, or `none` if it raises.
SOURCE: engine/walk_forward.py:74-109 -/
def splitBody {R : Type} (runTest : ℕ → Datetime → Datetime → Option R) (toDt : Datetime)
    (trainDays testDays stepDays : ℤ) (s : SplitLoop R) : Option (SplitLoop R) :=
  if s.raised then none
  else
    match splitWindow trainDays testDays s.cursor with
    | none => some { s with raised := true }
    | some (trainTo, testTo) =>
      if toDt.val < testTo.val then none
      else
        match runTest s.fold trainTo testTo with
        | none => some { s with raised := true }
        | some report =>
          let splits := s.splits ++ [⟨s.fold, s.cursor, trainTo, trainTo, testTo, report⟩]
          match addDays s.cursor stepDays with
          | none => some { s with splits := splits, raised := true }
          | some next => some ⟨next, s.fold + 1, splits, false⟩

/-- The loop of `run_walk_forward` is left, by its condition or by an exception.
SOURCE: engine/walk_forward.py:53-109 -/
def RunWalkForwardEnds {R : Type} (runTest : ℕ → Datetime → Datetime → Option R)
    (fromDt toDt : Datetime) (trainDays testDays stepDays : ℤ) : Prop :=
  ∃ t, Ends (splitBody runTest toDt trainDays testDays stepDays) (SplitLoop.start fromDt) t

end TradingEdge.Program
