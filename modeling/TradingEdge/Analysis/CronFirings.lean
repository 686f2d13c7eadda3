import TradingEdge.Library.Latch
import TradingEdge.Program.WatcherCrons

/-!
# When the crons fire

Both loops of the watcher are latches, on the day and on the week.  As long as the clock does not go
back, each day with a check from five past midnight until one has one report, and each week with a
check on Sunday from two until three has its walk-forward runs once, over the thirty days before
that Sunday.
-/

set_option autoImplicit false

namespace TradingEdge.Analysis

open TradingEdge.Library TradingEdge.Program

/-- From five past midnight until one. -/
def reportDue (now : ℤ) : Bool := clockHour now = 0 ∧ 5 ≤ clockMinute now

/-- On Sunday from two until three. -/
def walkForwardDue (now : ℤ) : Bool := clockWeekday now = 6 ∧ clockHour now = 2

/-- The Sunday of a week. -/
def sundayOf (week : ℤ) : ℤ := week * 7 + 3

/-- The daily reports are a latch by the day. -/
theorem dailyReports_eq : dailyReports = latch reportDue dayOf := by
  unfold dailyReports latch
  congr 1
  funext last now
  simp [dailyReportCheck, reportDue, and_assoc]

/-- The runs of a week. -/
def launchesOf (week : ℤ) : List WalkForwardLaunch :=
  walkForwardStrategies.map fun strategy => ⟨strategy, sundayOf week - 30, sundayOf week⟩

/-- On a Sunday the Sunday of the week is the day itself. -/
theorem sundayOf_isoWeek {now : ℤ} (h : clockWeekday now = 6) : sundayOf (isoWeek now) = dayOf now := by
  unfold clockWeekday at h
  unfold sundayOf isoWeek
  omega

/-- The Sunday loop is a latch on the week, which launches the runs of the weeks it fires for. -/
theorem walkForward_run (checks : List ℤ) :
    walkForwardSundays.final none checks = (latch walkForwardDue isoWeek).final none checks ∧
      walkForwardSundays.trace none checks =
        ((latch walkForwardDue isoWeek).trace none checks).flatMap launchesOf := by
  induction checks using List.reverseRecOn with
  | nil => exact ⟨rfl, rfl⟩
  | append_singleton checks now ih =>
    obtain ⟨hfinal, htrace⟩ := ih
    rw [Machine.final_concat, Machine.final_concat, Machine.trace_concat, Machine.trace_concat,
      List.flatMap_append, hfinal, htrace]
    generalize (latch walkForwardDue isoWeek).final none checks = last
    have hstep : walkForwardCheck last now =
        (((latch walkForwardDue isoWeek).step last now).1,
          ((latch walkForwardDue isoWeek).step last now).2.flatMap launchesOf) := by
      by_cases hfires : clockWeekday now = 6 ∧ clockHour now = 2 ∧ last ≠ some (isoWeek now)
      · have hdue : walkForwardDue now = true ∧ last ≠ some (isoWeek now) :=
          ⟨decide_eq_true ⟨hfires.1, hfires.2.1⟩, hfires.2.2⟩
        simp only [walkForwardCheck, latch, if_pos hfires, if_pos hdue, List.flatMap_cons,
          List.flatMap_nil, List.append_nil, launchesOf, sundayOf_isoWeek hfires.1]
      · have hnot : ¬(walkForwardDue now = true ∧ last ≠ some (isoWeek now)) := by
          rintro ⟨hdue, hlast⟩
          obtain ⟨hday, hhour⟩ := of_decide_eq_true hdue
          exact hfires ⟨hday, hhour, hlast⟩
        simp only [walkForwardCheck, latch, if_neg hfires, if_neg hnot, List.flatMap_nil]
    exact ⟨congrArg Prod.fst hstep, congrArg _ (congrArg Prod.snd hstep)⟩

/-- **One report a day, and one walk-forward a week.** From one start of the watcher on, while the
clock does not go back, the days with a report go forward, and a day has one exactly if the loop
checks from five past midnight until one; the weeks with walk-forward runs go forward, a week has
them exactly if the loop checks on its Sunday from two until three, and each strategy then has one
run over the thirty days before. -/
theorem crons_fire_once (checks : List ℤ) (horder : checks.Pairwise (· ≤ ·)) :
    (dailyReports.trace none checks).Pairwise (· < ·) ∧
      (∀ day, day ∈ dailyReports.trace none checks ↔
        ∃ now ∈ checks, reportDue now = true ∧ dayOf now = day) ∧
      ∃ weeks : List ℤ, walkForwardSundays.trace none checks = weeks.flatMap launchesOf ∧
        weeks.Pairwise (· < ·) ∧
        ∀ week, week ∈ weeks ↔ ∃ now ∈ checks, walkForwardDue now = true ∧ isoWeek now = week := by
  have hdays : checks.Pairwise fun a b => dayOf a ≤ dayOf b :=
    horder.imp fun {a b} hab => Int.ediv_le_ediv (by omega) hab
  have hweeks : checks.Pairwise fun a b => isoWeek a ≤ isoWeek b := by
    refine hdays.imp fun {a b} hab => ?_
    unfold isoWeek
    omega
  rw [dailyReports_eq]
  obtain ⟨hreports, hday⟩ := latch_fires_once hdays
  obtain ⟨hruns, hweek⟩ := latch_fires_once hweeks
  exact ⟨hreports, hday, _, (walkForward_run checks).2, hruns, hweek⟩

/-- Two checks in the first hour of a Sunday and two in its third. -/
def sundayChecks : List ℤ := [259500, 259560, 266400, 266460]

/-- On a Sunday the report and the walk forward fire. -/
theorem crons_fire_once_sunday :
    3 ∈ dailyReports.trace none sundayChecks ∧
      ∃ weeks : List ℤ, walkForwardSundays.trace none sundayChecks = weeks.flatMap launchesOf ∧
        0 ∈ weeks := by
  obtain ⟨-, hday, weeks, hruns, -, hweek⟩ := crons_fire_once sundayChecks (by decide)
  exact ⟨(hday 3).mpr ⟨259500, by decide, by decide, by decide⟩, weeks, hruns,
    (hweek 0).mpr ⟨266400, by decide, by decide, by decide⟩⟩

end TradingEdge.Analysis
