import TradingEdge.Analysis.Reconciliation

/-!
# The settle fill that is refused

`_settle_from_values` takes the position out, waits for `exec.settle` to write the exit fill,
and books the pnl.  `settle` returns the pnl whatever becomes of the write, so the books go on
without the row, and the watchdog, which reads the open positions, has nothing left to retry.
`settle_ledgers_agree_iff` says for which runs the books and `trading.fills` hold the same
settlements.
-/

set_option autoImplicit false

namespace TradingEdge.Analysis

open TradingEdge.Model TradingEdge.Program TradingEdge.Library

variable {K S P : Type} [Field K] [LinearOrder K]

/-! ## The three stores -/

/-- The `await` of a settlement that the step answers, and what becomes of its write. -/
def answeredWrite (w : World K S) (l : DriverLabel K) : Option (SettlePoint K × WriteOutcome) :=
  match l.action with
  | .consumerResumes reply => (consumerPoint w.consumer).map fun point => (point, reply.write)
  | .watchdogResumes reply => (watchdogPoint w.watchdog).map fun point => (point, reply.write)
  | _ => none

section Step

variable [FloorRing K] (env : DriverEnv K S P) (w : World K S) (l : DriverLabel K)

/-- The step books the settlement: its pnl is added to the daily pnl, the risk manager is told,
and the position is not put back.
SOURCE: paper/driver.py:453-462 -/
def Recorded (settleTs pnl : K) : Prop :=
  ((driverMachine env).next w l).driver.dailyPnl = w.driver.dailyPnl + pnl ∧
    ((driverMachine env).next w l).driver.risk =
      onTradeClosed env.riskCfg w.driver.risk pnl settleTs ∧
    ((driverMachine env).next w l).driver.openPositions = w.driver.openPositions

/-- A settlement whose write the step answers is booked exactly when its row is there, or else
it is not booked and its position is open for the watchdog to retry. -/
def SettlementAgrees : Prop :=
  ∀ pos settleTs pnl fill outcome,
    answeredWrite w l = some (.settleFill pos settleTs pnl fill, outcome) →
      (Recorded env w l settleTs pnl ↔ fill ∈ ((driverMachine env).next w l).fills.rows) ∨
        ¬Recorded env w l settleTs pnl ∧
          ((driverMachine env).next w l).driver.openPositions.get? pos.marketSlug = some pos

omit [FloorRing K] in
/-- A settle fill that the step writes is there already, or is not refused and new by its key.
SOURCE: paper/exec_client.py:245-277, common/db.py:51-71 -/
def SettlePersists : Prop :=
  ∀ pos settleTs pnl fill outcome,
    answeredWrite w l = some (.settleFill pos settleTs pnl fill, outcome) →
      fill ∈ w.fills.rows ∨ outcome ≠ .failed ∧ fill.key ∉ w.fills.rows.map FillRow.key

/-- **What the answer to a settle fill does**, whatever it says. -/
theorem answered_step (pos : Position K) (settleTs pnl : K) (fill : FillRow K)
    (outcome : WriteOutcome)
    (h : answeredWrite w l = some (.settleFill pos settleTs pnl fill, outcome)) :
    Recorded env w l settleTs pnl ∧
      ((driverMachine env).next w l).fills = writeRow outcome fill w.fills ∧
      (driverMachine env).emits w l = [.booked pos settleTs pnl fill] := by
  unfold Recorded
  change ((driverStep env w l).1.driver.dailyPnl = _ ∧ (driverStep env w l).1.driver.risk = _ ∧
    (driverStep env w l).1.driver.openPositions = _) ∧ (driverStep env w l).1.fills = _ ∧
      (driverStep env w l).2 = _
  unfold answeredWrite at h
  unfold driverStep
  cases action : l.action with
  | consumerResumes reply =>
    rw [action] at h
    dsimp only at h ⊢
    cases hc : w.consumer with
    | settling job point =>
      rw [hc] at h
      cases h
      rw [consumerStep_settling env w l.clock reply hc]
      exact ⟨⟨rfl, rfl, rfl⟩, rfl, rfl⟩
    | _ =>
      rw [hc] at h
      cases h
  | watchdogResumes reply =>
    rw [action] at h
    dsimp only at h ⊢
    cases hw : w.watchdog with
    | settling job point rest =>
      rw [hw] at h
      cases h
      rw [watchdogStep_settling env w l.clock reply hw]
      exact ⟨⟨rfl, rfl, rfl⟩, rfl, rfl⟩
    | sleeping =>
      rw [hw] at h
      cases h
  | _ =>
    rw [action] at h
    cases h

omit [FloorRing K] [Field K] [LinearOrder K] in
/-- The settlement that is answered was waiting. -/
theorem waits_of_answered {w : World K S} {l : DriverLabel K} {point : SettlePoint K}
    {outcome : WriteOutcome} (h : answeredWrite w l = some (point, outcome)) :
    consumerPoint w.consumer = some point ∨ watchdogPoint w.watchdog = some point := by
  unfold answeredWrite at h
  split at h
  · obtain ⟨point', hpoint, heq⟩ := Option.map_eq_some_iff.mp h
    cases heq
    exact Or.inl hpoint
  · obtain ⟨point', hpoint, heq⟩ := Option.map_eq_some_iff.mp h
    cases heq
    exact Or.inr hpoint
  · cases h

/-- **One step.** The three stores agree on it exactly when what it writes persists. -/
theorem settlementAgrees_iff : SettlementAgrees env w l ↔ SettlePersists w l := by
  constructor
  · intro h pos settleTs pnl fill outcome hanswered
    obtain ⟨hrecorded, hfills, -⟩ := answered_step env w l pos settleTs pnl fill outcome hanswered
    rcases h pos settleTs pnl fill outcome hanswered with hiff | ⟨hno, -⟩
    · rw [← mem_writeRow_self_iff, ← hfills]
      exact hiff.mp hrecorded
    · exact absurd hrecorded hno
  · intro h pos settleTs pnl fill outcome hanswered
    obtain ⟨hrecorded, hfills, -⟩ := answered_step env w l pos settleTs pnl fill outcome hanswered
    refine Or.inl (iff_of_true hrecorded ?_)
    rw [hfills, mem_writeRow_self_iff]
    exact h pos settleTs pnl fill outcome hanswered

/-- What is booked is booked with the answer to its write. -/
theorem answered_of_booked (pos : Position K) (settleTs pnl : K) (fill : FillRow K)
    (h : .booked pos settleTs pnl fill ∈ (driverMachine env).emits w l) :
    ∃ outcome, answeredWrite w l = some (.settleFill pos settleTs pnl fill, outcome) := by
  have heffect := driver_effect env w l
  generalize (driverMachine env).next w l = w' at heffect
  generalize (driverMachine env).emits w l = es at heffect h
  cases heffect with
  | tick d ks action idle =>
    rcases mem_handleTick_events env _ _ _ _ _ h with heq | ⟨-, heq⟩ | ⟨-, heq⟩ | ⟨_, heq⟩ |
      ⟨_, _, _, -, heq⟩ <;> cases heq
  | consumerSettles reply job point r action consumer effect =>
    obtain ⟨rfl, -⟩ := effect.of_booked h
    exact ⟨reply.write, by rw [answeredWrite, action, consumer]; rfl⟩
  | watchdogSettles reply job point rest r action watchdog effect =>
    obtain ⟨rfl, -⟩ := effect.of_booked h
    exact ⟨reply.write, by rw [answeredWrite, action, watchdog]; rfl⟩
  | enters reply attempt consumer => simp at h
  | _ => cases h

/-- A fill that a step adds is that of an entry under way, or is booked in the step. -/
theorem fill_step (f : FillRow K) (h : f ∈ ((driverMachine env).next w l).fills.rows) :
    f ∈ w.fills.rows ∨ (∃ a, attemptOf w.consumer = some a ∧ f = a.fill) ∨
      ∃ pos settleTs pnl, .booked pos settleTs pnl f ∈ (driverMachine env).emits w l := by
  have hbooks := fun pos settleTs pnl outcome hanswered =>
    (answered_step env w l pos settleTs pnl f outcome hanswered).2.2
  have heffect := driver_effect env w l
  generalize (driverMachine env).next w l = w' at heffect h
  generalize (driverMachine env).emits w l = es at heffect hbooks ⊢
  cases heffect with
  | consumerSettles reply job point r action consumer effect =>
    rcases mem_pointWrite point reply.write w.fills h with hold | ⟨pos, settleTs, pnl, rfl⟩
    · exact Or.inl hold
    · refine Or.inr (Or.inr ⟨pos, settleTs, pnl, ?_⟩)
      rw [hbooks pos settleTs pnl reply.write (by rw [answeredWrite, action, consumer]; rfl)]
      exact List.mem_singleton_self _
  | watchdogSettles reply job point rest r action watchdog effect =>
    rcases mem_pointWrite point reply.write w.fills h with hold | ⟨pos, settleTs, pnl, rfl⟩
    · exact Or.inl hold
    · refine Or.inr (Or.inr ⟨pos, settleTs, pnl, ?_⟩)
      rw [hbooks pos settleTs pnl reply.write (by rw [answeredWrite, action, watchdog]; rfl)]
      exact List.mem_singleton_self _
  | entryFails reply attempt consumer =>
    rcases mem_writeRow reply.write attempt.fill w.fills h with hold | rfl
    · exact Or.inl hold
    · exact Or.inr (Or.inl ⟨attempt, by rw [consumer]; rfl, rfl⟩)
  | enters reply attempt consumer =>
    rcases mem_writeRow reply.write attempt.fill w.fills h with hold | rfl
    · exact Or.inl hold
    · exact Or.inr (Or.inl ⟨attempt, by rw [consumer]; rfl, rfl⟩)
  | _ => exact Or.inl h

/-- Fills stay in the table. -/
theorem fill_stays (f : FillRow K) (h : f ∈ w.fills.rows) :
    f ∈ ((driverMachine env).next w l).fills.rows := by
  have heffect := driver_effect env w l
  generalize (driverMachine env).next w l = w' at heffect ⊢
  generalize (driverMachine env).emits w l = es at heffect
  have hpoint : ∀ (point : SettlePoint K) (outcome : WriteOutcome),
      f ∈ (point.write outcome w.fills).rows := by
    intro point outcome
    cases point with
    | settleFill pos settleTs pnl fill => exact mem_writeRow_of_mem _ _ _ h
    | _ => exact h
  cases heffect with
  | consumerSettles reply job point r action consumer effect => exact hpoint point reply.write
  | watchdogSettles reply job point rest r action watchdog effect =>
    exact hpoint point reply.write
  | entryFails reply attempt consumer => exact mem_writeRow_of_mem _ _ _ h
  | enters reply attempt consumer => exact mem_writeRow_of_mem _ _ _ h
  | _ => exact h

end Step

/-! ## Runs -/

section Run

variable [FloorRing K] (env : DriverEnv K S P)

/-- After a run the books and the tables hold the same settlements: every settlement that has
come to its write is booked exactly when its row is there or is open for a retry, a booked
settlement has its row with its pnl, a settle fill of the run is booked, and the daily pnl is
what has been booked since the last day roll. -/
structure SettlementsAgree (boot : World K S) (ls : List (DriverLabel K)) : Prop where
  agrees : (driverMachine env).Along (SettlementAgrees env) boot ls
  held : ∀ pos settleTs pnl fill, .booked pos settleTs pnl fill ∈ (driverMachine env).trace boot ls →
    fill ∈ ((driverMachine env).final boot ls).fills.rows ∧ fill.settlePnl = some pnl
  booked : ∀ f ∈ ((driverMachine env).final boot ls).fills.rows, f.isSettle = true →
    f ∈ boot.fills.rows ∨
      ∃ pos settleTs pnl, .booked pos settleTs pnl f ∈ (driverMachine env).trace boot ls
  dailyPnl : ((driverMachine env).final boot ls).driver.dailyPnl =
    (if ((driverMachine env).trace boot ls).any isDayRoll then 0 else boot.driver.dailyPnl) +
      ((sinceLast isDayRoll ((driverMachine env).trace boot ls)).map bookedOf).sum

/-- What is booked has its row, if what is written persists. -/
theorem booked_held_run (boot : World K S) (ls : List (DriverLabel K))
    (h : (driverMachine env).Along SettlePersists boot ls) (pos : Position K) (settleTs pnl : K)
    (fill : FillRow K) (hbooked : .booked pos settleTs pnl fill ∈ (driverMachine env).trace boot ls) :
    fill ∈ ((driverMachine env).final boot ls).fills.rows := by
  induction ls using List.reverseRecOn with
  | nil => cases hbooked
  | append_singleton ls l ih =>
    obtain ⟨hls, hl⟩ := (Obeys.concat_iff ls l).mp h
    rw [Machine.final_concat]
    rw [Machine.trace_concat] at hbooked
    rcases List.mem_append.mp hbooked with hbefore | hnow
    · exact fill_stays env _ l fill (ih hls hbefore)
    · obtain ⟨outcome, hanswered⟩ := answered_of_booked env _ l pos settleTs pnl fill hnow
      rw [(answered_step env _ l pos settleTs pnl fill outcome hanswered).2.1,
        mem_writeRow_self_iff]
      exact hl pos settleTs pnl fill outcome hanswered

/-- A booked fill carries the pnl that is booked. -/
theorem booked_settlePnl_run (strategy : S) (paused : Bool) (rows : Option (List String))
    (dailyPnl : K) (dailyTrades : ℤ) (orders : Table (OrderRow.key (K := K)))
    (fills : Table (FillRow.key (K := K))) (ls : List (DriverLabel K)) (pos : Position K)
    (settleTs pnl : K) (fill : FillRow K)
    (h : .booked pos settleTs pnl fill ∈ (driverMachine env).trace (World.boot
      (DriverState.boot strategy paused rows dailyPnl dailyTrades) orders fills) ls) :
    fill.settlePnl = some pnl := by
  obtain ⟨pre, l, post, -, hnow⟩ := ((driverMachine env).mem_trace_iff _ _ ls).mp h
  obtain ⟨outcome, hanswered⟩ := answered_of_booked env _ l pos settleTs pnl fill hnow
  have hstems := stems_run env strategy paused rows dailyPnl dailyTrades orders fills pre
  obtain ⟨-, -, -, hpnl⟩ := (hstems.settles (waits_of_answered hanswered)).ids
  exact hpnl

/-- A settle fill that the boot did not find is booked. -/
theorem settle_booked_run (strategy : S) (paused : Bool) (rows : Option (List String))
    (dailyPnl : K) (dailyTrades : ℤ) (orders : Table (OrderRow.key (K := K)))
    (fills : Table (FillRow.key (K := K))) (ls : List (DriverLabel K)) (f : FillRow K)
    (hf : f ∈ ((driverMachine env).final (World.boot (DriverState.boot strategy paused rows
      dailyPnl dailyTrades) orders fills) ls).fills.rows) (hsettle : f.isSettle = true) :
    f ∈ fills.rows ∨ ∃ pos settleTs pnl, .booked pos settleTs pnl f ∈
      (driverMachine env).trace (World.boot (DriverState.boot strategy paused rows dailyPnl
        dailyTrades) orders fills) ls := by
  induction ls using List.reverseRecOn with
  | nil => exact Or.inl hf
  | append_singleton ls l ih =>
    rw [Machine.final_concat] at hf
    rw [Machine.trace_concat]
    rcases fill_step env _ l f hf with hold | ⟨a, ha, rfl⟩ | ⟨pos, settleTs, pnl, hnow⟩
    · rcases ih hold with hboot | ⟨pos, settleTs, pnl, hbefore⟩
      · exact Or.inl hboot
      · exact Or.inr ⟨pos, settleTs, pnl, List.mem_append_left _ hbefore⟩
    · -- an entry fill is no settlement
      have hstems := stems_run env strategy paused rows dailyPnl dailyTrades orders fills ls
      rw [hstems.entersByEntry a ha] at hsettle
      cases hsettle
    · exact Or.inr ⟨pos, settleTs, pnl, List.mem_append_right _ hnow⟩

/-- **The settlements of a run.** In every run the books and the tables hold the same settlements
exactly when every settle fill that is written is there already, or is not refused and new by its
key.
SOURCE: paper/exec_client.py:232-285, paper/driver.py:442-532 -/
theorem settle_ledgers_agree_iff (strategy : S) (paused : Bool) (rows : Option (List String))
    (dailyPnl : K) (dailyTrades : ℤ) (orders : Table (OrderRow.key (K := K)))
    (fills : Table (FillRow.key (K := K))) (ls : List (DriverLabel K)) :
    SettlementsAgree env
        (World.boot (DriverState.boot strategy paused rows dailyPnl dailyTrades) orders fills) ls ↔
      (driverMachine env).Along SettlePersists
        (World.boot (DriverState.boot strategy paused rows dailyPnl dailyTrades) orders fills)
        ls := by
  constructor
  · intro h
    exact h.agrees.mono fun pre l => (settlementAgrees_iff env _ l).mp
  · intro h
    refine ⟨?_, ?_, ?_, ?_⟩
    · exact h.mono fun pre l => (settlementAgrees_iff env _ l).mpr
    · intro pos settleTs pnl fill hbooked
      exact ⟨booked_held_run env _ ls h pos settleTs pnl fill hbooked,
        booked_settlePnl_run env strategy paused rows dailyPnl dailyTrades orders fills ls pos
          settleTs pnl fill hbooked⟩
    · intro f hf hsettle
      exact settle_booked_run env strategy paused rows dailyPnl dailyTrades orders fills ls f hf
        hsettle
    · exact dailyPnl_run_from env _ ls

/-- The write of an exit fill is refused: the pnl is booked, the position is gone, and
`trading.fills` holds no settlement.
SOURCE: paper/exec_client.py:245-285, paper/driver.py:453-461 -/
theorem booked_without_row :
    ¬∀ (env : DriverEnv ℚ Unit Unit) (ls : List (DriverLabel ℚ)),
      SettlementsAgree env (eagerBoot []) ls := by
  intro h
  have hrun := h (eagerDriver 0) (settledRun ++ [⟨1520, .watchdogResumes ⟨none, .failed⟩⟩])
  have hrows : ∀ f ∈ ((driverMachine (eagerDriver 0)).final (eagerBoot [])
      (settledRun ++ [⟨1520, .watchdogResumes ⟨none, .failed⟩⟩])).fills.rows,
      f.settlePnl = none := by
    decide +kernel
  have hnone : ∀ e ∈ (driverMachine (eagerDriver 0)).trace (eagerBoot [])
      (settledRun ++ [⟨1520, .watchdogResumes ⟨none, .failed⟩⟩]), bookedOf e = 0 := by
    intro e he
    cases e with
    | booked pos settleTs pnl fill =>
      obtain ⟨hmem, hpnl⟩ := hrun.held pos settleTs pnl fill he
      rw [hrows fill hmem] at hpnl
      cases hpnl
    | _ => rfl
  exact absurd hnone (by decide +kernel)

end Run

end TradingEdge.Analysis
