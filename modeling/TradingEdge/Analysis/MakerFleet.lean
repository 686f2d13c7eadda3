import TradingEdge.Analysis.MakerSteps
import TradingEdge.Program.MMFleet

/-!
# A driver of the fleet, alone

The fleet takes a tick of one driver piece by piece.  Where nothing comes between the pieces,
they are the tick of the driver's own model: the dispatch of the actions one by one is
`dispatchAll`, the credit of the fills one by one is `creditFills`, and together they are
`handleTick` (`tick_alone`).
-/

set_option autoImplicit false

namespace TradingEdge.Analysis

open TradingEdge.Library TradingEdge.Model TradingEdge.Program

variable {K : Type} [Field K] [LinearOrder K]

section Alone

variable (env : MMDriverEnv K) (g : GlobalMMState K) (clock : K) (ctx : TickContext K)
  (mids : Dict String K) (log : List (LimitFill K))

/-- The pieces of one action. -/
theorem resume_action (a : MMAction K) (actions : List (MMAction K)) (driver : MMPaperDriver K) :
    ∃ n, (instanceMachine env g).final ⟨driver, mids, log, some (.dispatching ctx (a :: actions))⟩
        (List.replicate n (.resume clock)) =
      ((⟨driver, mids, log, none⟩ : MMInstance K).sent ctx
        (dispatchAction env.toMMEnv g ctx driver.limitBook a) actions).1 ∧
      (instanceMachine env g).trace ⟨driver, mids, log, some (.dispatching ctx (a :: actions))⟩
        (List.replicate n (.resume clock)) =
      ((⟨driver, mids, log, none⟩ : MMInstance K).sent ctx
        (dispatchAction env.toMMEnv g ctx driver.limitBook a) actions).2 := by
  cases a with
  | post new => exact ⟨1, rfl, List.append_nil _⟩
  | cancel coid slug reason => exact ⟨1, rfl, List.append_nil _⟩
  | replace old new =>
    cases hgone : driver.limitBook.get? old with
    | none =>
      refine ⟨1, ?_, ?_⟩
      · simp [instanceMachine, Machine.final, Machine.next, instanceStep, MMInstance.resume,
          MMInstance.sent, dispatchAction, LimitBook.cancel, hgone]
      · simp [instanceMachine, Machine.trace, Machine.emissions, Machine.emits, instanceStep,
          MMInstance.resume, MMInstance.sent, dispatchAction, LimitBook.cancel, hgone]
    | some o =>
      -- the cancellation, and the placement
      refine ⟨2, ?_, ?_⟩
      · simp [instanceMachine, Machine.final, Machine.next, instanceStep, MMInstance.resume,
          MMInstance.sent, dispatchAction, LimitBook.cancel, hgone, List.replicate]
      · simp [instanceMachine, Machine.trace, Machine.emissions, Machine.emits, Machine.next,
          instanceStep, MMInstance.resume, MMInstance.sent, dispatchAction, LimitBook.cancel,
          hgone, List.replicate]

/-- The actions of a tick, piece by piece, dispatch as they do in one go. -/
theorem resume_dispatching (actions : List (MMAction K)) (driver : MMPaperDriver K) :
    ∃ n, (instanceMachine env g).final ⟨driver, mids, log, some (.dispatching ctx actions)⟩
        (List.replicate n (.resume clock)) =
      ((⟨driver, mids, log, none⟩ : MMInstance K).sent ctx
        (dispatchAll env.toMMEnv g ctx driver.limitBook actions) []).1 ∧
      (instanceMachine env g).trace ⟨driver, mids, log, some (.dispatching ctx actions)⟩
        (List.replicate n (.resume clock)) =
      ((⟨driver, mids, log, none⟩ : MMInstance K).sent ctx
        (dispatchAll env.toMMEnv g ctx driver.limitBook actions) []).2 := by
  induction actions generalizing driver with
  | nil => exact ⟨0, rfl, rfl⟩
  | cons a actions ih =>
    obtain ⟨n, hfinal, htrace⟩ := resume_action env g clock ctx mids log a actions driver
    set sent := dispatchAction env.toMMEnv g ctx driver.limitBook a with hsent
    cases hraised : sent.raised with
    | some e =>
      refine ⟨n, ?_, ?_⟩
      · rw [hfinal]
        simp [MMInstance.sent, dispatchAll, ← hsent, hraised]
      · rw [htrace]
        simp [MMInstance.sent, dispatchAll, ← hsent, hraised]
    | none =>
      obtain ⟨n', hfinal', htrace'⟩ := ih { driver with limitBook := sent.book }
      have hmid : ((⟨driver, mids, log, none⟩ : MMInstance K).sent ctx sent actions).1 =
          ⟨{ driver with limitBook := sent.book }, mids, log,
            some (.dispatching ctx actions)⟩ := by
        simp [MMInstance.sent, hraised]
      refine ⟨n + n', ?_, ?_⟩
      · rw [List.replicate_add, Machine.final_append, hfinal, hmid, hfinal']
        simp [MMInstance.sent, dispatchAll, ← hsent, hraised]
      · rw [List.replicate_add, Machine.trace_append, hfinal, hmid, htrace, htrace']
        simp [MMInstance.sent, dispatchAll, ← hsent, hraised]

/-- The fills of a tick are credited one by one as they are in one go. -/
theorem resume_crediting (fills : List (LimitFill K)) (driver : MMPaperDriver K) :
    ∃ n, (instanceMachine env g).final ⟨driver, mids, log, some (.crediting ctx fills)⟩
        (List.replicate n (.resume clock)) =
      ⟨{ driver with
          strategy := (creditFills env.cfg ctx.marketSlug clock driver.strategy fills).1 }, mids,
        log, none⟩ ∧
      (instanceMachine env g).trace ⟨driver, mids, log, some (.crediting ctx fills)⟩
        (List.replicate n (.resume clock)) =
      (creditFills env.cfg ctx.marketSlug clock driver.strategy fills).2 ++ [.handled ctx] := by
  induction fills generalizing driver with
  | nil => exact ⟨1, rfl, rfl⟩
  | cons f fills ih =>
    obtain ⟨n, hfinal, htrace⟩ := ih { driver with
      strategy := creditFill env.cfg driver.strategy ctx.marketSlug f clock }
    refine ⟨n + 1, hfinal, ?_⟩
    rw [List.replicate_succ, Machine.trace_cons]
    exact congrArg _ htrace

/-- Crediting fills emits those fills. -/
theorem fillsOf_creditFills (cfg : MMRebateConfig K) (slug : String) (m : MMRebate K)
    (fills : List (LimitFill K)) : fillsOf (creditFills cfg slug clock m fills).2 = fills := by
  induction fills generalizing m with
  | nil => rfl
  | cons f fills ih => exact congrArg (f :: ·) (ih _)

omit [Field K] [LinearOrder K] in
/-- The fills of a run continued. -/
theorem fillsOf_append (events events' : List (MMEvent K)) :
    fillsOf (events ++ events') = fillsOf events ++ fillsOf events' :=
  List.filterMap_append

omit [Field K] [LinearOrder K] in
/-- An eviction fills nothing. -/
theorem fillsOf_expired (orders : List (LimitOrder K)) :
    fillsOf (orders.map MMEvent.expired) = [] := by
  rw [fillsOf, List.filterMap_map, List.filterMap_eq_nil_iff]
  exact fun o _ => rfl

/-- A dispatch fills nothing. -/
theorem fillsOf_dispatchAll (b : LimitBook K) (actions : List (MMAction K)) :
    fillsOf (dispatchAll env.toMMEnv g ctx b actions).events = [] := by
  rw [List.eq_nil_iff_forall_not_mem]
  intro f hf
  obtain ⟨inventory, hmem⟩ := (mem_fillsOf_iff _ f).mp hf
  obtain ⟨a, -, hevent⟩ := mem_dispatchAll hmem
  cases hevent

/-- The match of a tick and its fills, piece by piece, are the second half of the tick. -/
theorem resume_match (driver : MMPaperDriver K) :
    ∃ n, (instanceMachine env g).final ⟨driver, mids, log, some (.dispatching ctx [])⟩
        (List.replicate n (.resume clock)) =
      ⟨(driver.matchTick env ctx clock).1, mids,
        log ++ fillsOf (driver.matchTick env ctx clock).2, none⟩ ∧
      (instanceMachine env g).trace ⟨driver, mids, log, some (.dispatching ctx [])⟩
        (List.replicate n (.resume clock)) =
      (driver.matchTick env ctx clock).2 ++ [.handled ctx] := by
  by_cases hmatched : TickContext.Matched ctx
  · rw [driver.matchTick_of_matched env ctx clock hmatched]
    dsimp only
    generalize hbook : driver.limitBook.onTick env.makerFeeBps (instrumentIdYes ctx.marketSlug)
      ctx.impliedProbYes ctx.ts = matched
    have hstep : (instanceMachine env g).step ⟨driver, mids, log, some (.dispatching ctx [])⟩
        (.resume clock) =
        (⟨{ driver with limitBook := matched.1 }, mids, log ++ matched.2,
          some (.crediting ctx matched.2)⟩,
          (driver.limitBook.expired (instrumentIdYes ctx.marketSlug) ctx.ts).map .expired) := by
      simp [instanceMachine, instanceStep, MMInstance.resume, hmatched, hbook]
    obtain ⟨n, hfinal, htrace⟩ := resume_crediting env g clock ctx mids (log ++ matched.2)
      matched.2 { driver with limitBook := matched.1 }
    refine ⟨n + 1, ?_, ?_⟩
    · rw [List.replicate_succ, Machine.final_cons, Machine.next, hstep, hfinal, fillsOf_append,
        fillsOf_expired, fillsOf_creditFills, List.nil_append]
    · rw [List.replicate_succ, Machine.trace_cons, Machine.next, Machine.emits, hstep, htrace,
        List.append_assoc]
  · rw [MMPaperDriver.matchTick, if_neg hmatched]
    refine ⟨1, ?_, ?_⟩
    · simp [instanceMachine, Machine.final, Machine.next, instanceStep, MMInstance.resume,
        hmatched, fillsOf]
    · simp [instanceMachine, Machine.trace, Machine.emissions, Machine.emits, instanceStep,
        MMInstance.resume, hmatched]

/-- **One driver alone.** A tick that no other driver comes between is handled as
`handleTick` says: the same driver is left, the same events happen, and the instance has the
fills of the events in its log.
SOURCE: paper/mm_driver.py:67-135 -/
theorem tick_alone (driver : MMPaperDriver K) (d : TickDict K) (fillClock : K) :
    ∃ n, (instanceMachine env g).final ⟨driver, mids, log, none⟩
        (.tick d clock :: List.replicate n (.resume fillClock)) =
        ⟨(driver.handleTick env g d clock fillClock).1,
          mids.set d.marketSlug (tickFromDict d).impliedProbYes,
          log ++ fillsOf (driver.handleTick env g d clock fillClock).2, none⟩ ∧
      (instanceMachine env g).trace ⟨driver, mids, log, none⟩
        (.tick d clock :: List.replicate n (.resume fillClock)) =
        (driver.handleTick env g d clock fillClock).2 := by
  rcases handleTick_cases env g driver d clock fillClock with
    ⟨hpaused, htick⟩ | ⟨hpaused, hrest⟩
  · refine ⟨0, ?_, ?_⟩
    · rw [htick]
      simp [instanceMachine, Machine.final, Machine.next, instanceStep, MMInstance.takeTick,
        hpaused, fillsOf]
    · rw [htick]
      simp [instanceMachine, Machine.trace, Machine.emissions, Machine.emits, instanceStep,
        MMInstance.takeTick, hpaused]
  · -- the strategy answers, and its actions are dispatched
    have hstep : (instanceMachine env g).step ⟨driver, mids, log, none⟩ (.tick d clock) =
        (⟨{ driver with
            strategy := (driver.strategy.onTick env.toMMEnv (tickFromDict d) clock).2 },
          mids.set d.marketSlug (tickFromDict d).impliedProbYes, log,
          some (.dispatching (tickFromDict d)
            (driver.strategy.onTick env.toMMEnv (tickFromDict d) clock).1)⟩, []) := by
      simp [instanceMachine, instanceStep, MMInstance.takeTick, hpaused]
    obtain ⟨n, hfinal, htrace⟩ := resume_dispatching env g fillClock (tickFromDict d)
      (mids.set d.marketSlug (tickFromDict d).impliedProbYes) log
      (driver.strategy.onTick env.toMMEnv (tickFromDict d) clock).1
      { driver with strategy := (driver.strategy.onTick env.toMMEnv (tickFromDict d) clock).2 }
    have hsent : dispatchAll env.toMMEnv g (tickFromDict d) driver.limitBook
        (driver.strategy.onTick env.toMMEnv (tickFromDict d) clock).1 =
        MMPaperDriver.sent env g driver (tickFromDict d) clock := rfl
    have hnone : fillsOf (MMPaperDriver.sent env g driver (tickFromDict d) clock).events = [] :=
      fillsOf_dispatchAll env g _ _ _
    rw [hsent] at hfinal htrace
    rcases hrest with ⟨e, hraised, htick⟩ | ⟨hraised, htick⟩
    · refine ⟨n, ?_, ?_⟩
      · rw [Machine.final_cons, Machine.next, hstep, hfinal, htick, fillsOf_append, hnone]
        simp [MMInstance.sent, hraised, MMPaperDriver.quoted, fillsOf]
      · rw [Machine.trace_cons, Machine.next, Machine.emits, hstep, htrace, htick]
        simp [MMInstance.sent, hraised]
    · obtain ⟨n', hfinal', htrace'⟩ := resume_match env g fillClock (tickFromDict d)
        (mids.set d.marketSlug (tickFromDict d).impliedProbYes) log
        (MMPaperDriver.quoted env g driver (tickFromDict d) clock)
      simp only [MMInstance.sent, hraised] at hfinal htrace
      refine ⟨n + n', ?_, ?_⟩
      · rw [List.replicate_add, Machine.final_cons, Machine.final_append, Machine.next, hstep,
          hfinal]
        refine hfinal'.trans ?_
        rw [htick, fillsOf_append, fillsOf_append, hnone]
        simp [fillsOf]
      · rw [List.replicate_add, Machine.trace_cons, Machine.trace_append, Machine.next,
          Machine.emits, hstep, htrace, hfinal]
        refine (congrArg _ (congrArg _ htrace')).trans ?_
        rw [htick]
        simp

end Alone

end TradingEdge.Analysis
