import Mathlib.Algebra.Order.Ring.Int
import TradingEdge.Library.Machine

/-!
# The crons of the watcher

The watcher checks the clock every minute, and it fires the daily report in the first hour of a
day and the walk-forward runs in the third hour of a Sunday.  Each loop remembers the day or the
ISO week it fired for.  A loop does not check while it waits for what it has fired.  Times are in
seconds since the epoch, which was the start of a Thursday.
-/

set_option autoImplicit false

namespace TradingEdge.Program

open TradingEdge.Library

/-- The UTC day of a time, counted from the epoch; it stands for `strftime("%Y-%m-%d")`. -/
def dayOf (now : ℤ) : ℤ := now / 86400

def clockHour (now : ℤ) : ℤ := now % 86400 / 3600

def clockMinute (now : ℤ) : ℤ := now % 3600 / 60

/-- Monday is 0. -/
def clockWeekday (now : ℤ) : ℤ := (dayOf now + 3) % 7

/-- The week from Monday to Sunday, counted from that of the epoch; it stands for
`strftime("%G-W%V")`. -/
def isoWeek (now : ℤ) : ℤ := (dayOf now + 3) / 7

/-- One check of the daily loop: the day that a report is fired for.
SOURCE: bots/telegram/watcher.py:65-83 -/
def dailyReportCheck (firedForDay : Option ℤ) (now : ℤ) : Option ℤ × List ℤ :=
  let today := dayOf now
  if clockHour now = 0 ∧ 5 ≤ clockMinute now ∧ firedForDay ≠ some today then (some today, [today])
  else (firedForDay, [])

/-- SOURCE: bots/telegram/watcher.py:65-83 -/
def dailyReports : Machine (Option ℤ) ℤ ℤ := ⟨dailyReportCheck⟩

/-- SOURCE: bots/telegram/watcher.py:95-99 -/
def walkForwardStrategies : List String :=
  ["hmm_regime_btc5m", "last_90s_forecaster_v3", "trend_confirm_t1_v1"]

/-- The arguments of a run; its days are dates.
SOURCE: bots/telegram/watcher.py:114-124 -/
structure WalkForwardLaunch where
  strategy : String
  fromDay : ℤ
  toDay : ℤ
deriving DecidableEq

/-- One check of the Sunday loop: the runs that it launches, one after the other, whether or not
those before could be started.
SOURCE: bots/telegram/watcher.py:100-135 -/
def walkForwardCheck (firedForWeek : Option ℤ) (now : ℤ) :
    Option ℤ × List WalkForwardLaunch :=
  let week := isoWeek now
  if clockWeekday now = 6 ∧ clockHour now = 2 ∧ firedForWeek ≠ some week then
    let tTo := dayOf now
    let tFrom := tTo - 30
    (some week, walkForwardStrategies.map fun strategy => ⟨strategy, tFrom, tTo⟩)
  else (firedForWeek, [])

/-- SOURCE: bots/telegram/watcher.py:85-135 -/
def walkForwardSundays : Machine (Option ℤ) ℤ WalkForwardLaunch := ⟨walkForwardCheck⟩

end TradingEdge.Program
