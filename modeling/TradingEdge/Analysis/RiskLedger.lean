import TradingEdge.Analysis.DriverSteps
import TradingEdge.Analysis.RiskRuns

/-!
# The daily ledger of the risk manager

The driver calls its risk manager with the time of a tick (`can_enter`) and with the time of the
last paper tick of a settled market (`on_trade_closed`).  Around midnight a settlement can bring
a time of the day before, after ticks of the new day.  Every call of another day than the state's
starts a fresh state, so the ledger is that of the current day exactly while the calls come with
their days in order (`ledger_exact_iff`).
-/

set_option autoImplicit false

namespace TradingEdge.Analysis

open TradingEdge.Model TradingEdge.Program TradingEdge.Library

/-! ## The ledger of a sequence of calls -/

section Calls

variable {K : Type} [Field K] [LinearOrder K] [FloorRing K] (cfg : RiskConfig K)

/-- The calls come with their days in order. -/
def CallsByDay (calls : List (RiskCall K)) : Prop :=
  (calls.map fun c => utcDay c.time).Pairwise (· ≤ ·)

instance (calls : List (RiskCall K)) : Decidable (CallsByDay calls) :=
  inferInstanceAs (Decidable (List.Pairwise _ _))

/-- The latest day of the calls. -/
def IsLatestDay (day : ℤ) (calls : List (RiskCall K)) : Prop :=
  (∃ c ∈ calls, utcDay c.time = day) ∧ ∀ c ∈ calls, utcDay c.time ≤ day

/-- The time of a close of the day that starts the rolling-loss pause. -/
def pauseOf (day : ℤ) : RiskEvent K → Option K
  | .closed _ now pauses => if pauses = true ∧ utcDay now = day then some now else none
  | .answered _ => none

/-- The state is the ledger of a day: it has the sum and the count of the trades closed in the
day, and the breaker and the pause are as the calls of the day have left them. -/
structure LedgerOf (day : ℤ) (s : RiskState K) (calls : List (RiskCall K)) : Prop where
  dayKey : s.dayKey = day
  dailyPnl : s.dailyPnl = closedPnl (callsOn day calls)
  dailyTrades : s.dailyTrades = ((callsOn day calls).flatMap closeOf).length
  tripped : Obeys (fun pre c => utcDay c.time = day →
    TripsCall cfg ((riskMachine cfg).final RiskState.init pre) c →
      s.circuitBreakerTripped = true) calls
  pauses : ∀ now ∈ (((riskMachine cfg).trace RiskState.init calls).filterMap (pauseOf day)).getLast?,
    s.pauseUntil = now + cfg.lossPauseDurationS

/-- The state is the ledger of the current day. -/
def LedgerExact (s : RiskState K) (calls : List (RiskCall K)) : Prop :=
  ∀ day, IsLatestDay day calls → LedgerOf cfg day s calls

/-- Every event of a close carries the time of its call. -/
theorem pauseOf_emits (day : ℤ) (s : RiskState K) (c : RiskCall K) (hday : utcDay c.time ≠ day) :
    ((riskMachine cfg).emits s c).filterMap (pauseOf day) = [] := by
  cases c with
  | canEnter ctx => rfl
  | onTradeClosed pnl now =>
    have hne : ¬(decide (Pauses cfg s pnl now) = true ∧ utcDay now = day) := fun h => hday h.2
    rw [riskMachine_emits_closed, List.filterMap_cons, pauseOf, if_neg hne]
    rfl

/-- Before the first call of a day a fresh state is its ledger. -/
theorem ledgerOf_fresh (day : ℤ) (calls : List (RiskCall K))
    (hnone : ∀ c ∈ calls, utcDay c.time ≠ day) :
    LedgerOf cfg day (RiskState.fresh day) calls := by
  have hcalls : callsOn day calls = [] := by
    apply List.filter_eq_nil_iff.mpr
    intro c hc
    simpa using hnone c hc
  have hpauses : ((riskMachine cfg).trace RiskState.init calls).filterMap (pauseOf day) = [] := by
    induction calls using List.reverseRecOn with
    | nil => rfl
    | append_singleton calls c ih =>
      have hearlier : ∀ c' ∈ calls, utcDay c'.time ≠ day :=
        fun c' hc' => hnone c' (List.mem_append_left _ hc')
      rw [Machine.trace_concat, List.filterMap_append, ih hearlier
        (List.filter_eq_nil_iff.mpr fun c' hc' => by simpa using hearlier c' hc'),
        pauseOf_emits cfg day _ c (hnone c (by simp))]
      rfl
  refine ⟨rfl, ?_, ?_, ?_, ?_⟩
  · rw [hcalls]
    rfl
  · rw [hcalls]
    rfl
  · intro pre c post heq hday
    exact absurd hday (hnone c (by rw [heq]; simp))
  · intro now hnow
    rw [hpauses] at hnow
    cases hnow

/-- A call of the day moves the ledger of the day. -/
theorem ledgerOf_concat (day : ℤ) (calls : List (RiskCall K)) (c : RiskCall K)
    (hday : utcDay c.time = day)
    (h : LedgerOf cfg day (((riskMachine cfg).final RiskState.init calls).rollDay c.time) calls) :
    LedgerOf cfg day ((riskMachine cfg).final RiskState.init (calls ++ [c])) (calls ++ [c]) := by
  have hon : callsOn day (calls ++ [c]) = callsOn day calls ++ [c] := by
    unfold callsOn
    rw [List.filter_append, List.filter_cons_of_pos (by simpa using hday), List.filter_nil]
  have hstep := sameDay_step cfg _ c (hday.trans h.dayKey.symm)
  rw [← riskMachine_next_rollDay] at hstep
  obtain ⟨hpnl, htripped⟩ := hstep
  rw [Machine.final_concat]
  refine ⟨(riskMachine_next_dayKey cfg _ c).trans hday, ?_, ?_, ?_, ?_⟩
  · rw [hpnl, h.dailyPnl, hon]
    unfold closedPnl
    rw [List.flatMap_append, List.map_append, List.sum_append]
  · have hcount : ((riskMachine cfg).next ((riskMachine cfg).final RiskState.init calls)
        c).dailyTrades = (((riskMachine cfg).final RiskState.init calls).rollDay c.time).dailyTrades +
          (closeOf c).length := by
      cases c with
      | canEnter ctx =>
        rw [riskMachine_next_canEnter, canEnter_state]
        split <;> exact (add_zero _).symm
      | onTradeClosed pnl now =>
        rw [riskMachine_next_closed, onTradeClosed_eq]
        rfl
    rw [hcount, h.dailyTrades, hon, List.flatMap_append, List.length_append, Nat.cast_add,
      List.flatMap_singleton]
  · refine (Obeys.concat_iff calls c).mpr ⟨?_, ?_⟩
    · exact fun pre c' post heq hday' htrips =>
        htripped.mpr (Or.inl (h.tripped pre c' post heq hday' htrips))
    · rintro - ⟨ctx, rfl, htrips⟩
      refine htripped.mpr (Or.inr ⟨ctx, rfl, ?_⟩)
      unfold Trips at htrips ⊢
      unfold RiskCall.time
      dsimp only
      rw [rollDay_rollDay]
      exact htrips
  · rw [Machine.trace_concat, List.filterMap_append]
    cases c with
    | canEnter ctx =>
      rw [riskMachine_emits_canEnter, riskMachine_next_canEnter, canEnter_state]
      have hnone : List.filterMap (pauseOf day) [RiskEvent.answered
          (canEnter cfg ((riskMachine cfg).final RiskState.init calls) ctx).1] = [] := rfl
      rw [hnone, List.append_nil]
      split
      · exact h.pauses
      · exact h.pauses
    | onTradeClosed pnl now =>
      rw [riskMachine_emits_closed, riskMachine_next_closed, onTradeClosed_eq]
      dsimp only
      by_cases hpause : Pauses cfg ((riskMachine cfg).final RiskState.init calls) pnl now
      · have hlast : List.filterMap (pauseOf day) [RiskEvent.closed pnl now (decide (Pauses cfg
            ((riskMachine cfg).final RiskState.init calls) pnl now))] = [now] := by
          rw [List.filterMap_cons, pauseOf, if_pos ⟨decide_eq_true hpause, hday⟩]
          rfl
        rw [hlast, List.getLast?_concat, if_pos hpause]
        rintro now' ⟨⟩
        rfl
      · have hnone : List.filterMap (pauseOf day) [RiskEvent.closed pnl now (decide (Pauses cfg
            ((riskMachine cfg).final RiskState.init calls) pnl now))] = [] := by
          rw [List.filterMap_cons, pauseOf, if_neg fun h => hpause (of_decide_eq_true h.1)]
          rfl
        rw [hnone, List.append_nil, if_neg hpause]
        exact h.pauses

/-- The day of the state is the day of the last call. -/
theorem final_dayKey (calls : List (RiskCall K)) (c : RiskCall K) :
    ((riskMachine cfg).final RiskState.init (calls ++ [c])).dayKey = utcDay c.time := by
  rw [Machine.final_concat, riskMachine_next_dayKey]

/-- **Calls by day.** While the calls come with their days in order, the state is the ledger of the
current day. -/
theorem ledgerExact_of_byDay (calls : List (RiskCall K)) (h : CallsByDay calls) :
    LedgerExact cfg ((riskMachine cfg).final RiskState.init calls) calls := by
  induction calls using List.reverseRecOn with
  | nil =>
    rintro day ⟨⟨c, hc, -⟩, -⟩
    cases hc
  | append_singleton calls c ih =>
    intro day hlatest
    unfold CallsByDay at h ih
    rw [List.map_append, List.pairwise_append] at h
    obtain ⟨hcalls, -, hlast⟩ := h
    have hbefore : ∀ c' ∈ calls, utcDay c'.time ≤ utcDay c.time :=
      fun c' hc' => hlast _ (List.mem_map.mpr ⟨c', hc', rfl⟩) _ (by simp)
    have hday : utcDay c.time = day := by
      obtain ⟨⟨c', hc', hday'⟩, hall⟩ := hlatest
      apply le_antisymm (hall c (by simp))
      rw [← hday']
      rcases List.mem_append.mp hc' with hc' | hc'
      · exact hbefore c' hc'
      · rw [List.mem_singleton.mp hc']
    apply ledgerOf_concat cfg day calls c hday
    by_cases hany : ∃ c' ∈ calls, utcDay c'.time = day
    · have hledger := ih hcalls day ⟨hany, fun c' hc' => hday ▸ hbefore c' hc'⟩
      rw [rollDay_of_eq _ _ (hday.trans hledger.dayKey.symm)]
      exact hledger
    · -- the first call of the day
      have hnone : ∀ c' ∈ calls, utcDay c'.time ≠ day := fun c' hc' heq => hany ⟨c', hc', heq⟩
      have hfresh : ((riskMachine cfg).final RiskState.init calls).rollDay c.time =
          RiskState.fresh day := by
        cases calls using List.reverseRecOn with
        | nil =>
          rw [Machine.final_nil, ← hday]
          by_cases hinit : utcDay c.time = (RiskState.init : RiskState K).dayKey
          · rw [rollDay_of_eq _ _ hinit, hinit]
            rfl
          · rw [rollDay_of_ne _ _ hinit]
        | append_singleton calls' c' =>
          rw [rollDay_of_ne, hday]
          rw [final_dayKey, hday]
          exact (hnone c' (by simp)).symm
      rw [hfresh]
      exact ledgerOf_fresh cfg day calls hnone

/-- Calls have a latest day. -/
theorem exists_latestDay (calls : List (RiskCall K)) (c : RiskCall K) :
    ∃ day, IsLatestDay day (calls ++ [c]) := by
  induction calls with
  | nil =>
    refine ⟨utcDay c.time, ⟨c, by simp, rfl⟩, fun c' hc' => ?_⟩
    rw [List.mem_singleton.mp hc']
  | cons c' calls ih =>
    obtain ⟨day, ⟨c₀, hc₀, hday⟩, hall⟩ := ih
    rcases le_total (utcDay c'.time) day with hle | hle
    · refine ⟨day, ⟨c₀, List.mem_cons_of_mem _ hc₀, hday⟩, fun c'' hc'' => ?_⟩
      rcases List.mem_cons.mp hc'' with rfl | hc''
      · exact hle
      · exact hall c'' hc''
    · refine ⟨utcDay c'.time, ⟨c', List.mem_cons_self, rfl⟩, fun c'' hc'' => ?_⟩
      rcases List.mem_cons.mp hc'' with rfl | hc''
      · exact le_rfl
      · exact (hall c'' hc'').trans hle

/-- A call after which the state is the ledger of the current day is of the latest day. -/
theorem byDay_append (calls new : List (RiskCall K)) (hone : new.length ≤ 1)
    (hcalls : CallsByDay calls)
    (hledger : LedgerExact cfg ((riskMachine cfg).final RiskState.init (calls ++ new))
      (calls ++ new)) : CallsByDay (calls ++ new) := by
  rcases new with _ | ⟨c, _ | ⟨c', new⟩⟩
  · rw [List.append_nil]
    exact hcalls
  · obtain ⟨day, hlatest⟩ := exists_latestDay calls c
    have hday := (hledger day hlatest).dayKey
    rw [final_dayKey] at hday
    unfold CallsByDay at hcalls ⊢
    rw [List.map_append, List.pairwise_append]
    refine ⟨hcalls, List.pairwise_singleton _ _, ?_⟩
    intro d hd d' hd'
    obtain ⟨c₀, hc₀, rfl⟩ := List.mem_map.mp hd
    rw [List.map_singleton] at hd'
    rw [List.mem_singleton.mp hd', hday]
    exact hlatest.2 c₀ (List.mem_append_left _ hc₀)
  · rw [List.length_cons, List.length_cons] at hone
    omega

end Calls

/-! ## The calls of the driver -/

section Driver

variable {K S P : Type} [Field K] [LinearOrder K] [FloorRing K] (env : DriverEnv K S P)

/-- A tick at this gate has been shown to the risk manager.
SOURCE: paper/driver.py:369-400 -/
def asksRisk : TickGate K S P → Bool
  | .riskSkip _ _ | .strategySkip _ _ _ | .enter _ _ _ => true
  | _ => false

/-- The close that a booked settlement reports.
SOURCE: paper/driver.py:455-462 -/
def closeCall : DriverEvent K P → List (RiskCall K)
  | .booked _ settleTs pnl _ => [.onTradeClosed pnl settleTs]
  | _ => []

/-- The calls of the risk manager in one step of the driver. -/
def riskCalls (w : World K S) (l : DriverLabel K) : List (RiskCall K) :=
  match l.action, w.consumer with
  | .tick d _, .idle =>
    if asksRisk (gateOf env w.driver d) = true then [.canEnter (observeTick env w.driver d).ctx]
    else []
  | _, _ => ((driverMachine env).emits w l).flatMap closeCall

/-- The driver, reporting its calls of the risk manager. -/
def riskCallMachine : Machine (World K S) (DriverLabel K) (RiskCall K) :=
  ⟨fun w l => ((driverMachine env).next w l, riskCalls env w l)⟩

/-- The risk manager that a gate hands on. -/
def TickGate.riskOr (risk : RiskState K) : TickGate K S P → RiskState K
  | .riskSkip _ risk => risk
  | .strategySkip risk _ _ => risk
  | .enter risk _ _ => risk
  | _ => risk

omit [FloorRing K] in
/-- The manager after the gate is what the gate left of it. -/
theorem atGate_risk (st : DriverState K S) (clock : K) (cid : String) (ks : Bool)
    (ctx : TickContext K) (gate : TickGate K S P) :
    (atGate env st clock cid ks ctx gate).1.risk = TickGate.riskOr st.risk gate := by
  cases gate with
  | taken => unfold atGate; dsimp only; split <;> rfl
  | outOfWindow => unfold atGate; dsimp only; split <;> rfl
  | enter risk dec strategy => unfold atGate; dsimp only; split <;> rfl
  | _ => rfl

/-- The gates past the daily pause have asked the risk manager.
SOURCE: paper/driver.py:332-400 -/
theorem tickGate_risk (st : DriverState K S) (ctx : TickContext K)
    (recent : List (TickContext K)) :
    TickGate.riskOr st.risk (tickGate env st ctx recent) =
      if asksRisk (tickGate env st ctx recent) = true then (canEnter env.riskCfg st.risk ctx).2
      else st.risk := by
  unfold tickGate
  split
  · rfl
  · split
    · split <;> rfl
    · split
      · rfl
      · split
        · rfl
        · split
          · rfl
          · split
            · rename_i reason risk hcan
              rw [hcan]
              rfl
            · rename_i risk hcan
              rw [hcan]
              dsimp only
              by_cases hact : (env.strategy.shouldEnter st.strategy ctx recent).1.action = .skip
              · simp [hact, TickGate.riskOr, asksRisk]
              · have henter : (env.strategy.shouldEnter st.strategy ctx recent).1.action =
                    .enter := by
                  revert hact
                  cases (env.strategy.shouldEnter st.strategy ctx recent).1.action with
                  | skip => exact fun h => absurd rfl h
                  | enter => exact fun _ => rfl
                simp [henter, TickGate.riskOr, asksRisk]

/-- What a tick does to the risk manager. -/
theorem handleTick_risk (st : DriverState K S) (clock : K) (d : TickDict K) (ks : Bool) :
    (handleTick env st clock d ks).1.risk =
      if asksRisk (gateOf env st d) = true then
        (canEnter env.riskCfg st.risk (observeTick env st d).ctx).2
      else st.risk := by
  rw [handleTick_eq, gated]
  dsimp only
  rw [atGate_risk, gateOf, tickGate_risk, gateState_risk]

/-- A stretch of a settlement closes a trade where it books it.
SOURCE: paper/driver.py:455-462 -/
theorem settleEffect_risk (st : DriverState K S) (clock : K) (job : SettleJob K)
    (reply : DbReply K) (point : SettlePoint K)
    (r : DriverState K S × SettleStatus K × List (DriverEvent K P))
    (effect : SettleEffect env st clock job reply point r) :
    r.1.risk = (r.2.2.flatMap closeCall).foldl (riskMachine env.riskCfg).next st.risk ∧
      (r.2.2.flatMap closeCall).length ≤ 1 := by
  cases effect with
  | quiet _ st' status same plain => exact ⟨same.risk, Nat.zero_le 1⟩
  | dropped _ st' same =>
    have hnone : ((st.openPositions.get? job.slug).toList.map
        (DriverEvent.dropped (K := K) (P := P))).flatMap closeCall = [] := by
      apply List.flatMap_eq_nil_iff.mpr
      intro e he
      obtain ⟨pos, -, rfl⟩ := List.mem_map.mp he
      rfl
    dsimp only
    rw [hnone]
    exact ⟨same.risk, Nat.zero_le 1⟩
  | settled => exact ⟨rfl, Nat.zero_le 1⟩
  | booked => exact ⟨rfl, le_rfl⟩

/-- **One step of the driver** makes the calls it reports, one at most.
SOURCE: paper/driver.py:133-201 -/
theorem risk_step (w : World K S) (l : DriverLabel K) :
    ((driverMachine env).next w l).driver.risk =
        (riskCalls env w l).foldl (riskMachine env.riskCfg).next w.driver.risk ∧
      (riskCalls env w l).length ≤ 1 := by
  by_cases hhandled : ∃ d ks, l.action = .tick d ks ∧ w.consumer = .idle
  · obtain ⟨d, ks, action, idle⟩ := hhandled
    change (driverStep env w l).1.driver.risk = _ ∧ _
    rw [driverStep_tick env w l d ks action idle]
    unfold riskCalls
    rw [action, idle]
    dsimp only
    rw [handleTick_risk]
    split
    · exact ⟨rfl, le_rfl⟩
    · exact ⟨rfl, Nat.zero_le 1⟩
  · have hcalls : riskCalls env w l = ((driverMachine env).emits w l).flatMap closeCall := by
      unfold riskCalls
      split
      · rename_i d ks action idle
        exact absurd ⟨d, ks, action, idle⟩ hhandled
      · rfl
    rw [hcalls]
    have heffect := driver_effect env w l
    generalize (driverMachine env).next w l = w' at heffect ⊢
    generalize (driverMachine env).emits w l = es at heffect ⊢
    cases heffect with
    | tick d ks action idle => exact absurd ⟨d, ks, action, idle⟩ hhandled
    | control msg => cases msg <;> exact ⟨rfl, Nat.zero_le 1⟩
    | consumerSettles reply job point r action consumer effect =>
      exact settleEffect_risk env _ _ _ _ _ _ effect
    | watchdogSettles reply job point rest r action watchdog effect =>
      exact settleEffect_risk env _ _ _ _ _ _ effect
    | sweep => exact ⟨(sameAccounts_orphanCleanup _ _).risk, Nat.zero_le 1⟩
    | _ => exact ⟨rfl, Nat.zero_le 1⟩

/-- The risk manager after a run has made the calls of the run. -/
theorem risk_run (strategy : S) (paused : Bool) (rows : Option (List String)) (dailyPnl : K)
    (dailyTrades : ℤ) (orders : Table (OrderRow.key (K := K)))
    (fills : Table (FillRow.key (K := K))) (ls : List (DriverLabel K)) :
    ((driverMachine env).final (World.boot
        (DriverState.boot strategy paused rows dailyPnl dailyTrades) orders fills) ls).driver.risk =
      (riskMachine env.riskCfg).final RiskState.init ((riskCallMachine env).trace (World.boot
        (DriverState.boot strategy paused rows dailyPnl dailyTrades) orders fills) ls) :=
  (riskCallMachine env).foldl_trace (fun w => w.driver.risk) (riskMachine env.riskCfg).next
    (fun w l => (risk_step env w l).1) _ ls

/-- At every moment of the run the risk manager has the ledger of the current day. -/
def DailyLedgerKept (boot : World K S) (ls : List (DriverLabel K)) : Prop :=
  ∀ pre post, ls = pre ++ post →
    LedgerExact env.riskCfg ((driverMachine env).final boot pre).driver.risk
      ((riskCallMachine env).trace boot pre)

/-- **The daily ledger.** Over every run of the driver from a boot, the risk manager has the ledger
of the current day at every moment exactly when its calls come with their days in order: when no
tick comes to it, and no settlement is booked, with a time of an earlier day than a call before.
SOURCE: engine/risk.py:43-93; paper/driver.py:369-371, 455-462 -/
theorem ledger_exact_iff (strategy : S) (paused : Bool) (rows : Option (List String))
    (dailyPnl : K) (dailyTrades : ℤ) (orders : Table (OrderRow.key (K := K)))
    (fills : Table (FillRow.key (K := K))) (ls : List (DriverLabel K)) :
    DailyLedgerKept env (World.boot
        (DriverState.boot strategy paused rows dailyPnl dailyTrades) orders fills) ls ↔
      CallsByDay ((riskCallMachine env).trace (World.boot
        (DriverState.boot strategy paused rows dailyPnl dailyTrades) orders fills) ls) := by
  have hrisk := risk_run env strategy paused rows dailyPnl dailyTrades orders fills
  generalize World.boot (DriverState.boot strategy paused rows dailyPnl dailyTrades) orders
    fills = boot at hrisk ⊢
  constructor
  · intro hkept
    induction ls using List.reverseRecOn with
    | nil => exact List.Pairwise.nil
    | append_singleton ls l ih =>
      have hbefore := ih fun pre post heq => hkept pre (post ++ [l]) (by rw [heq, List.append_assoc])
      have hledger := hkept (ls ++ [l]) [] (List.append_nil _).symm
      have hone := (risk_step env ((riskCallMachine env).final boot ls) l).2
      rw [hrisk, Machine.trace_concat] at hledger
      rw [Machine.trace_concat]
      exact byDay_append env.riskCfg _ _ hone hbefore hledger
  · intro hcalls pre post heq
    rw [hrisk]
    apply ledgerExact_of_byDay
    rw [heq, Machine.trace_append] at hcalls
    unfold CallsByDay at hcalls ⊢
    rw [List.map_append, List.pairwise_append] at hcalls
    exact hcalls.1

end Driver

section Instance

/-- A position of the last window of a day is settled after a tick of the next day has come to the
risk manager; its last paper tick is of the day before. -/
def midnightRun : List (DriverLabel ℚ) :=
  entryLabels (quotedDict "btc-updown-5m-86100" 86200 100 86400) ++
    [⟨86401, .tick (quotedDict "btc-updown-5m-86400" 86401 1 86700) true⟩] ++
    watchdogLabels 86420 (twoTicks 86100 100 86399 101) ++
    [⟨86420, .watchdogResumes ⟨none, .committed⟩⟩]

/-- After that run the risk manager counts a trade on a day without one.
SOURCE: engine/risk.py:47-50; paper/driver.py:455-462, 564-611 -/
theorem ledger_of_day_before :
    ¬∀ (env : DriverEnv ℚ Unit Unit) (ls : List (DriverLabel ℚ)),
      DailyLedgerKept env (World.boot (DriverState.boot () false none 0 0) Table.empty Table.empty)
        ls := by
  intro h
  have hledger := h (eagerDriver 0) midnightRun midnightRun [] (List.append_nil _).symm 1
    (by unfold IsLatestDay; decide +kernel)
  exact absurd hledger.dailyTrades (by decide +kernel)

end Instance

end TradingEdge.Analysis
