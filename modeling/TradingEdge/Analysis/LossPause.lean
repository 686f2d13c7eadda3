import TradingEdge.Analysis.EntryUniqueness
import TradingEdge.Program.Reconciliation

/-!
# The daily loss pause after a restart

At boot the driver takes its daily pnl from the database, so that a day that reached its loss
limit stays paused.  But the day itself is empty then, and the first tick rolls it: from that tick
on the daily pnl is what was booked since the boot, without the loss of before (`RestartLedger`).
The loss gate opens as soon as that sum is above the limit, and only the other gates are left
(`loss_pause_kept_iff`).
-/

set_option autoImplicit false

namespace TradingEdge.Analysis

open TradingEdge.Model TradingEdge.Program TradingEdge.Library

variable {K S P : Type} [Field K] [LinearOrder K]

/-- What the events book. -/
def bookedPnl (es : List (DriverEvent K P)) : K := (es.map bookedOf).sum

omit [LinearOrder K] in
/-- The pnl booked in a run continued. -/
theorem bookedPnl_append (es es' : List (DriverEvent K P)) :
    bookedPnl (es ++ es') = bookedPnl es + bookedPnl es' := by
  unfold bookedPnl
  rw [List.map_append, List.sum_append]

omit [LinearOrder K] in
/-- Where no event books, nothing is booked. -/
theorem bookedPnl_eq_zero (es : List (DriverEvent K P)) (h : ∀ e ∈ es, bookedOf e = 0) :
    bookedPnl es = 0 := by
  apply List.sum_eq_zero
  intro x hx
  obtain ⟨e, he, rfl⟩ := List.mem_map.mp hx
  exact h e he

omit [LinearOrder K] in
/-- Without a day roll the daily pnl accrues what is booked. -/
theorem foldl_accrue_of_noRoll (es : List (DriverEvent K P)) (total : K)
    (h : ∀ e ∈ es, isDayRoll e = false) : es.foldl accrue total = total + bookedPnl es := by
  induction es generalizing total with
  | nil => exact (add_zero total).symm
  | cons e es ih =>
    rw [List.forall_mem_cons] at h
    obtain ⟨hroll, hes⟩ := h
    rw [List.foldl_cons, accrue, hroll, if_neg Bool.false_ne_true, ih _ hes, add_assoc]
    rfl

section Gates

variable [FloorRing K] (env : DriverEnv K S P)

/-- A gate other than the loss limit refuses the tick: the pause, an open position, the set of
traded markets, the entry window, the risk manager or the strategy.
SOURCE: paper/driver.py:332-400 -/
def OtherGate (st : DriverState K S) (d : TickDict K) : Prop :=
  d.marketSlug ∈ (gateState env st d).tradeTaken ∨ st.paused = true ∨
    st.openPositions.get? d.marketSlug ≠ none ∨
    ¬env.cfg.InEntryWindow (orZero d.tInWindow) ∨
    (canEnter env.riskCfg st.risk (observeTick env st d).ctx).1 ≠ none ∨
    (env.strategy.shouldEnter st.strategy (observeTick env st d).ctx
      (observeTick env st d).recentTicks).1.action = .skip

/-- The gates refuse for another reason or for the loss of the day. -/
theorem gatesRefuse_iff (st : DriverState K S) (d : TickDict K) :
    (d.marketSlug ∈ (gateState env st d).tradeTaken ∨ GatesRefuse env st d) ↔
      OtherGate env st d ∨
        (rolledState env st d).dailyPnl ≤ env.cfg.dailyPausePnlThreshold := by
  simp only [OtherGate, GatesRefuse, or_left_comm, or_comm]

/-- The step calls `try_enter`. -/
def Tries (w : World K S) (l : DriverLabel K) : Prop :=
  ∃ req, .tryEnter req ∈ (driverMachine env).emits w l

/-- A step tries to enter if no other gate refuses and the loss is above the threshold. -/
theorem tries_iff (w : World K S) (l : DriverLabel K) :
    Tries env w l ↔ ∃ d ks, l.action = .tick d ks ∧ w.consumer = .idle ∧
      ¬OtherGate env w.driver d ∧
        env.cfg.dailyPausePnlThreshold < (rolledState env w.driver d).dailyPnl := by
  have hgates : ∀ d : TickDict K, (∃ risk dec strategy, gateOf env w.driver d =
      .enter risk dec strategy) ↔ ¬OtherGate env w.driver d ∧
        env.cfg.dailyPausePnlThreshold < (rolledState env w.driver d).dailyPnl := by
    intro d
    rw [gateOf_enter_iff, ← not_or, gatesRefuse_iff, not_or, not_le]
  unfold Tries
  constructor
  · rintro ⟨req, hreq⟩
    obtain ⟨d, ks, action, idle, risk, dec, strategy, hgate, -⟩ :=
      (mem_emits_tryEnter_iff env w l req).mp hreq
    exact ⟨d, ks, action, idle, (hgates d).mp ⟨risk, dec, strategy, hgate⟩⟩
  · rintro ⟨d, ks, action, idle, hpass⟩
    obtain ⟨risk, dec, strategy, hgate⟩ := (hgates d).mpr hpass
    exact ⟨_, (mem_emits_tryEnter_iff env w l _).mpr
      ⟨d, ks, action, idle, risk, dec, strategy, hgate, rfl⟩⟩

end Gates

/-! ## The ledger of a day with a restart -/

section Ledger

variable [FloorRing K] (env : DriverEnv K S P) (day : ℤ)

/-- The ticks belong to one day. -/
def OnDay (l : DriverLabel K) : Prop := ∀ d ks, l.action = .tick d ks → utcDay d.ts = day

/-- Nothing has happened since the boot that the accounts show. -/
structure Untouched (w : World K S) : Prop where
  today : w.driver.today = none
  consumer : w.consumer = .idle
  watchdog : w.watchdog = .sleeping
  openPositions : w.driver.openPositions.entries = []

/-- Before the first tick nothing is booked; after it the daily pnl is what was booked since
the boot. -/
def RestartLedger (w : World K S) (booked : K) : Prop :=
  Untouched w ∧ booked = 0 ∨ w.driver.today = some day ∧ w.driver.dailyPnl = booked

/-- A tick of the day comes to the gates with what was booked since the boot. -/
theorem RestartLedger.atGates {w : World K S} {booked : K} (h : RestartLedger day w booked)
    (d : TickDict K) (hday : utcDay d.ts = day) :
    (rolledState env w.driver d).dailyPnl = booked := by
  rw [rolledState_dailyPnl]
  rcases h with ⟨huntouched, rfl⟩ | ⟨htoday, hpnl⟩
  · rw [if_pos]
    rw [Rolls, huntouched.today]
    exact Option.some_ne_none _
  · rw [if_neg, hpnl]
    rw [Rolls, hday, htoday]
    exact fun hne => hne rfl

/-- A step that hands the idle consumer no tick leaves an untouched system untouched. -/
theorem untouched_step (w : World K S) (l : DriverLabel K) (h : Untouched w)
    (hno : ∀ d ks, l.action ≠ .tick d ks) :
    Untouched ((driverMachine env).next w l) ∧ (driverMachine env).emits w l = [] := by
  obtain ⟨today, consumer, watchdog, openPositions⟩ := h
  change Untouched (driverStep env w l).1 ∧ (driverStep env w l).2 = []
  unfold driverStep
  cases action : l.action with
  | tick d ks => exact absurd action (hno d ks)
  | control msg =>
    dsimp only
    rw [consumer]
    cases msg <;> exact ⟨⟨today, rfl, watchdog, openPositions⟩, rfl⟩
  | consumerResumes reply =>
    dsimp only
    rw [consumerStep, consumer]
    exact ⟨⟨today, consumer, watchdog, openPositions⟩, rfl⟩
  | watchdogWakes =>
    dsimp only
    rw [watchdogWake, watchdog]
    dsimp only
    rw [openPositions]
    exact ⟨⟨today, consumer, rfl, openPositions⟩, rfl⟩
  | watchdogResumes reply =>
    dsimp only
    rw [watchdogStep, watchdog]
    exact ⟨⟨today, consumer, watchdog, openPositions⟩, rfl⟩
  | orphanSweep =>
    have hsame := sameAccounts_orphanCleanup w.driver l.clock
    refine ⟨⟨hsame.today.trans today, consumer, watchdog, ?_⟩, rfl⟩
    dsimp only
    rw [hsame.openPositions]
    exact openPositions

/-- The events of a tick book nothing. -/
theorem bookedPnl_handleTick (st : DriverState K S) (clock : K) (d : TickDict K) (ks : Bool) :
    bookedPnl (handleTick env st clock d ks).2.2 = 0 := by
  apply bookedPnl_eq_zero
  intro e he
  rcases mem_handleTick_events env st clock d ks e he with rfl | ⟨-, rfl⟩ | ⟨-, rfl⟩ |
    ⟨_, rfl⟩ | ⟨_, _, _, -, rfl⟩ <;> rfl

/-- **One step keeps the ledger of the day.** -/
theorem restartLedger_step (w : World K S) (l : DriverLabel K) (booked : K)
    (h : RestartLedger day w booked) (hday : OnDay day l) :
    RestartLedger day ((driverMachine env).next w l)
      (booked + bookedPnl ((driverMachine env).emits w l)) := by
  by_cases hhandled : ∃ d ks, l.action = .tick d ks ∧ w.consumer = .idle
  · obtain ⟨d, ks, action, idle⟩ := hhandled
    have hd := hday d ks action
    change RestartLedger day (driverStep env w l).1 (booked + bookedPnl (driverStep env w l).2)
    rw [driverStep_tick env w l d ks action idle]
    right
    refine ⟨?_, ?_⟩
    · dsimp only
      rw [handleTick_today, hd]
    · dsimp only
      rw [handleTick_dailyPnl, h.atGates env day d hd, bookedPnl_handleTick, add_zero]
  rcases h with ⟨huntouched, rfl⟩ | ⟨htoday, hpnl⟩
  · have hno : ∀ d ks, l.action ≠ .tick d ks :=
      fun d ks action => hhandled ⟨d, ks, action, huntouched.consumer⟩
    obtain ⟨hnext, hemits⟩ := untouched_step env w l huntouched hno
    left
    refine ⟨hnext, ?_⟩
    rw [hemits]
    exact add_zero 0
  · right
    have heffect := driver_tradeEffect env w l
    have hstep := dailyPnl_step env w l
    generalize (driverMachine env).next w l = w' at heffect hstep ⊢
    generalize (driverMachine env).emits w l = es at heffect hstep ⊢
    have hnoRoll : ∀ e ∈ es, isDayRoll e = false := by
      intro e he
      cases heffect with
      | tick d ks action idle driver consumer events => exact absurd ⟨d, ks, action, idle⟩ hhandled
      | enters attempt before after driver events =>
        rw [events] at he
        rw [List.mem_singleton.mp he]
        rfl
      | aside tradeTaken today consumer events noTick =>
        have hsettle := events e he
        cases e with
        | settled | booked | dropped => rfl
        | _ => cases hsettle
    refine ⟨?_, ?_⟩
    · cases heffect with
      | tick d ks action idle driver consumer events => exact absurd ⟨d, ks, action, idle⟩ hhandled
      | enters attempt before after driver events =>
        rw [driver]
        exact htoday
      | aside tradeTaken today consumer events noTick => exact today.trans htoday
    · rw [hstep, foldl_accrue_of_noRoll _ _ hnoRoll, hpnl]

/-- A run within a day keeps this. -/
theorem restartLedger_run (strategy : S) (paused : Bool) (rows : Option (List String))
    (dailyPnl : K) (dailyTrades : ℤ) (orders : Table (OrderRow.key (K := K)))
    (fills : Table (FillRow.key (K := K))) (ls : List (DriverLabel K))
    (hls : Obeys (fun _ l => OnDay day l) ls) :
    RestartLedger day
      ((driverMachine env).final (World.boot
        (DriverState.boot strategy paused rows dailyPnl dailyTrades) orders fills) ls)
      (bookedPnl ((driverMachine env).trace (World.boot
        (DriverState.boot strategy paused rows dailyPnl dailyTrades) orders fills) ls)) := by
  induction ls using List.reverseRecOn with
  | nil => exact Or.inl ⟨⟨rfl, rfl, rfl, rfl⟩, rfl⟩
  | append_singleton ls l ih =>
    obtain ⟨hbefore, hl⟩ := (Obeys.concat_iff ls l).mp hls
    rw [Machine.final_concat, Machine.trace_concat, bookedPnl_append]
    exact restartLedger_step env day _ l _ (ih hbefore) hl

/-- From a daily pnl at or below the limit, no step calls `try_enter` before the settlements
since the boot have brought it above. -/
def LossPauseKept (boot : World K S) (ls : List (DriverLabel K)) : Prop :=
  Obeys (fun pre l =>
    boot.driver.dailyPnl + bookedPnl ((driverMachine env).trace boot pre) ≤
      env.cfg.dailyPausePnlThreshold →
    ¬Tries env ((driverMachine env).final boot pre) l) ls

/-- While the settlements since the boot alone are above the limit, and not with the loss of
before, every handled tick meets another gate. -/
def OtherwiseHeld (boot : World K S) (ls : List (DriverLabel K)) : Prop :=
  Obeys (fun pre l =>
    boot.driver.dailyPnl + bookedPnl ((driverMachine env).trace boot pre) ≤
      env.cfg.dailyPausePnlThreshold →
    env.cfg.dailyPausePnlThreshold < bookedPnl ((driverMachine env).trace boot pre) →
    ∀ d ks, l.action = .tick d ks → ((driverMachine env).final boot pre).consumer = .idle →
      OtherGate env ((driverMachine env).final boot pre).driver d) ls

/-- **The loss pause after a restart.** Over every run of one day after a boot with any daily
pnl, the pause is kept until the settlements since the boot bring the daily pnl above the limit,
exactly when the other gates hold every tick that comes while those settlements alone are above
it.
SOURCE: paper/driver.py:91-137, 314-416, 708-714 -/
theorem loss_pause_kept_iff (strategy : S) (paused : Bool) (rows : Option (List String))
    (dailyPnl : K) (dailyTrades : ℤ) (orders : Table (OrderRow.key (K := K)))
    (fills : Table (FillRow.key (K := K))) (ls : List (DriverLabel K))
    (hls : Obeys (fun _ l => OnDay day l) ls) :
    LossPauseKept env (World.boot
        (DriverState.boot strategy paused rows dailyPnl dailyTrades) orders fills) ls ↔
      OtherwiseHeld env (World.boot
        (DriverState.boot strategy paused rows dailyPnl dailyTrades) orders fills) ls := by
  have hledger : ∀ pre l post, ls = pre ++ l :: post → ∀ d ks, l.action = .tick d ks →
      (rolledState env ((driverMachine env).final (World.boot
        (DriverState.boot strategy paused rows dailyPnl dailyTrades) orders fills) pre).driver
          d).dailyPnl = bookedPnl ((driverMachine env).trace (World.boot
            (DriverState.boot strategy paused rows dailyPnl dailyTrades) orders fills) pre) := by
    intro pre l post heq d ks action
    have hrun := restartLedger_run env day strategy paused rows dailyPnl dailyTrades orders fills
      pre (Obeys.of_append (heq ▸ hls))
    exact hrun.atGates env day d (hls pre l post heq d ks action)
  constructor
  · intro hkept pre l post heq hbelow habove d ks action idle
    by_contra hpass
    apply hkept pre l post heq hbelow
    rw [tries_iff]
    exact ⟨d, ks, action, idle, hpass, (hledger pre l post heq d ks action).symm ▸ habove⟩
  · intro hheld pre l post heq hbelow htries
    obtain ⟨d, ks, action, idle, hpass, habove⟩ := (tries_iff env _ l).mp htries
    rw [hledger pre l post heq d ks action] at habove
    exact hpass (hheld pre l post heq hbelow habove d ks action idle)

end Ledger

section Instance

/-- The system after a boot that found a day's loss of 1500 USD. -/
def lossBoot : World ℚ Unit :=
  World.boot (DriverState.boot () false none (-1500) 1) Table.empty Table.empty

/-- A boot on a loss, and a tick before the entry window. -/
theorem loss_pause_kept_before_window :
    LossPauseKept (eagerDriver 60) lossBoot
      [⟨1230, .tick (quotedDict "btc-updown-5m-1200" 1230 30 1500) false⟩] := by
  apply (loss_pause_kept_iff (eagerDriver 60) 0 () false none (-1500) 1 Table.empty Table.empty _
    ?_).mpr
  · refine (Obeys.cons_iff _ _).mpr ⟨?_, Obeys.nil⟩
    rintro - - d ks ⟨⟩ -
    exact Or.inr (Or.inr (Or.inr (Or.inl (by decide +kernel))))
  · refine (Obeys.cons_iff _ _).mpr ⟨?_, Obeys.nil⟩
    rintro d ks ⟨⟩
    decide +kernel

/-- An order of the eager driver that was settled at a loss. -/
def losingOrders : Table (OrderRow.key (K := ℚ)) :=
  Table.empty.insertNew ⟨"old", "eager", "btc-updown-5m-600-YES.POLYMARKET", 3000, 1 / 2, 700, 701⟩

def losingFills : Table (FillRow.key (K := ℚ)) :=
  Table.empty.insertNew ⟨"old-exit", "old", 900, 0, 3000, 0, .settle .loss (-1500)⟩

/-- A restart in the middle of a day that has lost 1500 USD, under a limit of 1000: the first
tick of the same day enters.
SOURCE: paper/driver.py:91-137, 329-365, 708-714 -/
theorem enters_after_loss :
    ¬∀ (env : DriverEnv ℚ Unit Unit) (day : ℤ) (bootTs : ℚ)
      (orders : Table (OrderRow.key (K := ℚ))) (fills : Table (FillRow.key (K := ℚ)))
      (ls : List (DriverLabel ℚ)), utcDay bootTs = day → (∀ f ∈ fills.rows, utcDay f.ts = day) →
      Obeys (fun _ l => OnDay day l) ls →
      (readLedger env.execCfg.strategyId bootTs orders.rows fills.rows).settledPnl ≤
        env.cfg.dailyPausePnlThreshold →
      LossPauseKept env (World.bootFromDb env () false none bootTs orders fills) ls := by
  intro h
  have hkept := h (eagerDriver 60) 0 1000 losingOrders losingFills
    [⟨1300, .tick (quotedDict "btc-updown-5m-1200" 1300 100 1500) false⟩] (by decide +kernel)
    (by decide +kernel)
  refine hkept ?_ (by decide +kernel) [] _ [] rfl (by decide +kernel) ?_
  · refine (Obeys.cons_iff _ _).mpr ⟨?_, Obeys.nil⟩
    rintro d ks ⟨⟩
    decide +kernel
  · apply (tries_iff (eagerDriver 60) _ _).mpr
    refine ⟨quotedDict "btc-updown-5m-1200" 1300 100 1500, false, rfl, rfl, ?_, ?_⟩
    · unfold OtherGate
      decide +kernel
    · decide +kernel

end Instance

end TradingEdge.Analysis
