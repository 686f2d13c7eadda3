import TradingEdge.Analysis.ReplaySteps
import TradingEdge.Analysis.RiskRuns

/-!
# The timers of the risk manager under resampling

A replicate of the block bootstrap replays the markets of its sample in the order of the draws,
and all of them ask one risk manager.  The clock the manager sees runs backwards whenever a market
is followed by an earlier one.

The log of a replay lists what reaches the manager, and the manager answers as its machine does on
the calls of the log (`replayEntries_answered`).  A timer is set to a close and a duration, and a
tick is tested against the sum alone: `timersInTime_iff` says when every refusal for a cooldown or
for a pause is one of a trade that had closed by the time of the tick.
-/

set_option autoImplicit false

namespace TradingEdge.Analysis

open TradingEdge.Model TradingEdge.Program TradingEdge.Library

/-! ## The log of a replay -/

/-- What reaches the risk manager: a tick that asks for entry, with the answer, or a trade that
closes. -/
inductive RiskEntry (K : Type) where
  | asked (ctx : TickContext K) (reason : Option (RiskReason K))
  | closed (pnl now : K)

/-- The call of an entry. -/
def RiskEntry.call {K : Type} : RiskEntry K → RiskCall K
  | .asked ctx _ => .canEnter ctx
  | .closed pnl now => .onTradeClosed pnl now

section Log

variable {K S P G : Type}

/-- The entry that a tick of the loop makes, read off what the loop does at it.
SOURCE: engine/backtest_driver.py:239-248 -/
def gateEntry : List (TickEvent K P) → List (RiskEntry K)
  | .indicatorUpdate ctx :: .riskDecision reason :: _ => [.asked ctx reason]
  | _ => []

/-- The entry that a booked trade makes.
SOURCE: engine/backtest_driver.py:325-326 -/
def closeEntry (trade : BacktestTrade K P) : RiskEntry K := .closed trade.pnlUsd trade.exitTs

variable [Field K] [LinearOrder K] [FloorRing K]
  (cfg : BacktestConfig K S P G) (settle : Option (String → Option K))

/-- The entries of one market: its ticks, then the trade it adds. -/
def marketEntries (run : RunState K S P G) (m : String × List (TickContext K)) :
    List (RiskEntry K) :=
  let (after, emissions) := replayMarket cfg settle run m.1 m.2
  emissions.flatMap gateEntry ++ (after.trades.drop run.trades.length).map closeEntry

/-- The entries of a run over markets. -/
def replayEntries (run : RunState K S P G) : List (String × List (TickContext K)) →
    List (RiskEntry K)
  | [] => []
  | m :: markets => marketEntries cfg settle run m ++
      replayEntries (replayMarket cfg settle run m.1 m.2).1 markets

/-- The manager answers a tick of the log. -/
def Answers (riskCfg : RiskConfig K) (s : RiskState K) : RiskEntry K → Prop
  | .asked ctx reason => (canEnter riskCfg s ctx).1 = reason
  | .closed _ _ => True

/-- Every answer of a log is the one the manager gives after the calls before. -/
def Answered (riskCfg : RiskConfig K) (s : RiskState K) (entries : List (RiskEntry K)) : Prop :=
  Obeys (fun pre e => Answers riskCfg ((riskMachine riskCfg).final s (pre.map RiskEntry.call)) e)
    entries

/-- Answers to two stretches of calls. -/
theorem answered_append (riskCfg : RiskConfig K) (s : RiskState K) (a b : List (RiskEntry K)) :
    Answered riskCfg s (a ++ b) ↔ Answered riskCfg s a ∧
      Answered riskCfg ((riskMachine riskCfg).final s (a.map RiskEntry.call)) b := by
  unfold Answered
  rw [Obeys.append_iff]
  simp only [List.map_append, Machine.final_append]

/-- A single tick is answered in the state it finds. -/
theorem answered_singleton (riskCfg : RiskConfig K) (s : RiskState K) (e : RiskEntry K) :
    Answered riskCfg s [e] ↔ Answers riskCfg s e := by
  unfold Answered
  rw [Obeys.cons_iff]
  simp [Obeys.nil]

/-- One tick: the manager goes from its state to the next by the entry of the tick. -/
theorem tickStep_entries (hbypass : cfg.bypassRisk = false) (st : MarketState K S P G)
    (tick : TickContext K) :
    Answered cfg.riskCfg st.risk (gateEntry (tickStep cfg st tick).2) ∧
      (tickStep cfg st tick).1.risk = (riskMachine cfg.riskCfg).final st.risk
        ((gateEntry (tickStep cfg st tick).2).map RiskEntry.call) := by
  unfold tickStep
  simp only [hbypass, MarketState.observe_position, Bool.false_eq_true, if_false]
  by_cases hposition : st.position.isSome = true
  · simp only [hposition, if_true]
    exact ⟨Obeys.nil, rfl⟩
  by_cases hwindow : cfg.entryWindow.Contains (st.indicators.update cfg.lib tick).1
  swap
  · simp only [hposition, hwindow, not_false_eq_true, if_true]
    exact ⟨Obeys.nil, rfl⟩
  simp only [hposition, hwindow, not_true_eq_false, if_false]
  have hrisk : (st.observe (st.indicators.update cfg.lib tick).1
    (st.indicators.update cfg.lib tick).2).risk = st.risk := rfl
  rw [hrisk]
  rcases hasked : canEnter cfg.riskCfg st.risk (st.indicators.update cfg.lib tick).1 with
    ⟨reason, risk⟩
  have hanswers : Answers cfg.riskCfg st.risk
      (.asked (st.indicators.update cfg.lib tick).1 reason) := congrArg Prod.fst hasked
  have hnext : (riskMachine cfg.riskCfg).final st.risk
      [.canEnter (st.indicators.update cfg.lib tick).1] = risk := by
    rw [Machine.final_cons, Machine.final_nil, riskMachine_next_canEnter, hasked]
  cases reason with
  | some reason => exact ⟨(answered_singleton _ _ _).mpr hanswers, hnext.symm⟩
  | none =>
    refine ⟨(answered_singleton _ _ _).mpr hanswers, ?_⟩
    simp only [Bool.false_eq_true, if_false]
    exact (evaluate_frame cfg _ _ _).1.trans hnext.symm

/-- All ticks of a market. -/
theorem marketLoop_entries (hbypass : cfg.bypassRisk = false) (st : MarketState K S P G)
    (ticks : List (TickContext K)) :
    Answered cfg.riskCfg st.risk (((marketLoop cfg).emissions st ticks).flatMap gateEntry) ∧
      ((marketLoop cfg).final st ticks).risk = (riskMachine cfg.riskCfg).final st.risk
        ((((marketLoop cfg).emissions st ticks).flatMap gateEntry).map RiskEntry.call) := by
  induction ticks generalizing st with
  | nil => exact ⟨Obeys.nil, rfl⟩
  | cons tick ticks ih =>
    obtain ⟨hanswered, hnext⟩ := tickStep_entries cfg hbypass st tick
    obtain ⟨hrest, hfinal⟩ := ih ((marketLoop cfg).next st tick)
    change ((marketLoop cfg).next st tick).risk = (riskMachine cfg.riskCfg).final st.risk
      ((gateEntry ((marketLoop cfg).emits st tick)).map RiskEntry.call) at hnext
    rw [Machine.emissions, List.flatMap_cons, Machine.final_cons, answered_append, List.map_append,
      Machine.final_append, ← hnext]
    exact ⟨⟨hanswered, hrest⟩, hfinal⟩

/-- One market: its entries are answered, and lead from the state before it to the one after. -/
theorem marketEntries_answered (hbypass : cfg.bypassRisk = false) (run : RunState K S P G)
    (m : String × List (TickContext K)) :
    Answered cfg.riskCfg run.risk (marketEntries cfg settle run m) ∧
      (replayMarket cfg settle run m.1 m.2).1.risk = (riskMachine cfg.riskCfg).final run.risk
        ((marketEntries cfg settle run m).map RiskEntry.call) := by
  unfold marketEntries
  cases hterms : marketTerms settle m.1 m.2 with
  | none =>
    rcases replayMarket_of_none cfg settle m.1 m.2 hterms with h | h
    · rw [h]
      simp [Answered, Obeys.nil]
    · rw [h]
      simp [Answered, Obeys.nil, counted]
  | some terms =>
    obtain ⟨hticks, hrisk⟩ := marketLoop_entries cfg hbypass (MarketState.start cfg run) m.2
    rw [start_risk] at hticks hrisk
    rw [replayMarket_of_some cfg settle run m.1 m.2 terms hterms, closeMarket_eq]
    dsimp only
    rw [show (counted run).trades = run.trades from rfl, List.drop_left, answered_append,
      List.map_append, Machine.final_append, ← hrisk]
    generalize hst : (marketLoop cfg).final (MarketState.start cfg run) m.2 = st at *
    -- at most one trade is booked
    unfold marketTrade
    cases st.position with
    | none => exact ⟨⟨hticks, Obeys.nil⟩, rfl⟩
    | some p =>
      simp only [hbypass, Bool.false_eq_true, if_false, Option.map_some, Option.toList_some,
        List.map_cons, List.map_nil]
      exact ⟨⟨hticks, (answered_singleton _ _ _).mpr trivial⟩, rfl⟩

/-- **The log of a run.** Every answer in it is the one the manager gives after the calls before,
and every close in it is a trade of the run.
SOURCE: engine/backtest_driver.py:168-332 -/
theorem replayEntries_answered (hbypass : cfg.bypassRisk = false)
    (markets : List (String × List (TickContext K))) (run : RunState K S P G) :
    let after := markets.foldl (fun run m => (replayMarket cfg settle run m.1 m.2).1) run
    run.trades <+: after.trades ∧
      Answered cfg.riskCfg run.risk (replayEntries cfg settle run markets) ∧
      ∀ pnl now, .closed pnl now ∈ replayEntries cfg settle run markets →
        ∃ trade ∈ after.trades, trade.exitTs = now := by
  induction markets generalizing run with
  | nil => exact ⟨List.prefix_refl _, Obeys.nil, fun pnl now h => absurd h (by simp [replayEntries])⟩
  | cons m markets ih =>
    have htrades := trades_prefix cfg settle run m.1 m.2
    obtain ⟨hanswered, hrisk⟩ := marketEntries_answered cfg settle hbypass run m
    obtain ⟨hgrow, hrest, hclosed⟩ := ih (replayMarket cfg settle run m.1 m.2).1
    rw [replayEntries, List.foldl_cons]
    refine ⟨htrades.trans hgrow, ?_, ?_⟩
    · rw [answered_append, ← hrisk]
      exact ⟨hanswered, hrest⟩
    · intro pnl now h
      rcases List.mem_append.mp h with h | h
      · -- the market's own trade, which the later markets keep
        unfold marketEntries at h
        rcases List.mem_append.mp h with h | h
        · obtain ⟨es, -, he⟩ := List.mem_flatMap.mp h
          unfold gateEntry at he
          split at he <;> simp at he
        · obtain ⟨trade, htrade, heq⟩ := List.mem_map.mp h
          cases heq
          exact ⟨trade, hgrow.subset (List.mem_of_mem_drop htrade), rfl⟩
      · exact hclosed pnl now h

end Log

/-! ## The timers of a day -/

section Timers

variable {K : Type} [Field K] [LinearOrder K] [FloorRing K] (cfg : RiskConfig K)

/-- The calls since the manager last came to the day of `t`. -/
def daysCalls (calls : List (RiskCall K)) (t : K) : List (RiskCall K) :=
  (riskEpochs cfg).since (utcDay t) calls

/-- The times at which some calls close trades. -/
def closeTimes (calls : List (RiskCall K)) : List K := (calls.flatMap closeOf).map Prod.fst

/-- The times of the closes among them that start a pause, on a state of the day. -/
def pauseTimes (day : ℤ) (calls : List (RiskCall K)) : List K :=
  ((((riskMachine cfg).trace (RiskState.fresh day) calls).filter isPause).flatMap tradeOf).map
    Prod.fst

/-- When the trade closed that the running cooldown of the day is of. -/
def lastClose (calls : List (RiskCall K)) (t : K) : Option K :=
  (closeTimes (daysCalls cfg calls t)).getLast?

/-- When the trade closed that the running pause of the day is of. -/
def lastPause (calls : List (RiskCall K)) (t : K) : Option K :=
  (pauseTimes cfg (utcDay t) (daysCalls cfg calls t)).getLast?

/-- The trade, by its close, whose timer refuses a tick at `t` that comes to the timers.
SOURCE: engine/risk.py:57-61 -/
def runningTimer (calls : List (RiskCall K)) (t : K) : Option K :=
  ((lastPause cfg calls t).filter fun c => t < c + cfg.lossPauseDurationS).or
    ((lastClose cfg calls t).filter fun c => t < c + cfg.cooldownSeconds)

omit [Field K] [LinearOrder K] [FloorRing K] in
/-- A question closes no trade. -/
theorem closeTimes_canEnter (calls : List (RiskCall K)) (ctx : TickContext K) :
    closeTimes (calls ++ [.canEnter ctx]) = closeTimes calls := by
  simp [closeTimes, closeOf]

omit [Field K] [LinearOrder K] [FloorRing K] in
/-- A trade closes at its time. -/
theorem closeTimes_closed (calls : List (RiskCall K)) (pnl now : K) :
    closeTimes (calls ++ [.onTradeClosed pnl now]) = closeTimes calls ++ [now] := by
  simp [closeTimes, closeOf]

/-- A question does not pause. -/
theorem pauseTimes_canEnter (day : ℤ) (calls : List (RiskCall K)) (ctx : TickContext K) :
    pauseTimes cfg day (calls ++ [.canEnter ctx]) = pauseTimes cfg day calls := by
  unfold pauseTimes
  rw [Machine.trace_concat, riskMachine_emits_canEnter, List.filter_append]
  simp [isPause]

/-- A trade pauses at its time, if it does. -/
theorem pauseTimes_closed (day : ℤ) (calls : List (RiskCall K)) (pnl now : K) :
    pauseTimes cfg day (calls ++ [.onTradeClosed pnl now]) =
      pauseTimes cfg day calls ++
        if Pauses cfg ((riskMachine cfg).final (RiskState.fresh day) calls) pnl now then [now]
        else [] := by
  unfold pauseTimes
  rw [Machine.trace_concat, riskMachine_emits_closed, List.filter_append, List.flatMap_append,
    List.map_append]
  congr 1
  by_cases h : Pauses cfg ((riskMachine cfg).final (RiskState.fresh day) calls) pnl now
  · rw [if_pos h, decide_eq_true h]
    rfl
  · rw [if_neg h, decide_eq_false h]
    rfl

/-- A pause is started by a close. -/
theorem pauseTimes_sublist (day : ℤ) (calls : List (RiskCall K)) :
    (pauseTimes cfg day calls).Sublist (closeTimes calls) := by
  induction calls using List.reverseRecOn with
  | nil => exact List.Sublist.refl _
  | append_singleton calls c ih =>
    cases c with
    | canEnter ctx =>
      rw [pauseTimes_canEnter, closeTimes_canEnter]
      exact ih
    | onTradeClosed pnl now =>
      rw [pauseTimes_closed, closeTimes_closed]
      apply ih.append
      split
      · exact List.Sublist.refl _
      · exact List.nil_sublist _

omit [Field K] [LinearOrder K] [FloorRing K] in
/-- A time is one of a close if a trade was closed then. -/
theorem mem_closeTimes_iff (calls : List (RiskCall K)) (now : K) :
    now ∈ closeTimes calls ↔ ∃ pnl, .onTradeClosed pnl now ∈ calls := by
  unfold closeTimes
  rw [List.mem_map]
  constructor
  · rintro ⟨e, he, rfl⟩
    obtain ⟨c, hc, he⟩ := List.mem_flatMap.mp he
    cases c with
    | canEnter ctx => cases he
    | onTradeClosed pnl now =>
      cases List.mem_singleton.mp he
      exact ⟨pnl, hc⟩
  · rintro ⟨pnl, hc⟩
    exact ⟨(now, pnl), List.mem_flatMap.mpr ⟨_, hc, List.mem_singleton_self _⟩, rfl⟩

/-- What the timers of a state say of the calls of its day. -/
structure TimersSet (day : ℤ) (calls : List (RiskCall K)) (s : RiskState K) : Prop where
  cooldown : s.cooldownUntil = ((closeTimes calls).getLast?.map (· + (cfg.cooldownSeconds : K))).getD 0
  pause : s.pauseUntil =
    ((pauseTimes cfg day calls).getLast?.map (· + (cfg.lossPauseDurationS : K))).getD 0

/-- A call of the day keeps the timers and the calls of the day in step. -/
theorem timersSet_step (day : ℤ) (pre : List (RiskCall K)) (c : RiskCall K)
    (hday : utcDay c.time = ((riskMachine cfg).final (RiskState.fresh day) pre).dayKey)
    (h : TimersSet cfg day pre ((riskMachine cfg).final (RiskState.fresh day) pre)) :
    TimersSet cfg day (pre ++ [c])
      ((riskMachine cfg).next ((riskMachine cfg).final (RiskState.fresh day) pre) c) := by
  cases c with
  | canEnter ctx =>
    obtain ⟨hcooldown, hpause⟩ := canEnter_timers cfg
      ((riskMachine cfg).final (RiskState.fresh day) pre) ctx
    rw [rollDay_of_eq _ ctx.ts hday] at hcooldown hpause
    constructor
    · rw [riskMachine_next_canEnter, hcooldown, closeTimes_canEnter]
      exact h.cooldown
    · rw [riskMachine_next_canEnter, hpause, pauseTimes_canEnter]
      exact h.pause
  | onTradeClosed pnl now =>
    rw [riskMachine_next_closed, onTradeClosed_eq, rollDay_of_eq _ now hday]
    constructor
    · rw [closeTimes_closed, List.getLast?_concat]
      rfl
    · rw [pauseTimes_closed]
      dsimp only
      split
      · rw [List.getLast?_concat]
        rfl
      · rw [List.append_nil]
        exact h.pause

/-- **The timers.** Whatever the order of the calls, the timers a tick is tested against are those
of the trades closed since the manager last came to the day of the tick.
SOURCE: engine/risk.py:47-61, 79-93 -/
theorem timersSet (calls : List (RiskCall K)) (t : K) :
    TimersSet cfg (utcDay t) (daysCalls cfg calls t)
      (((riskMachine cfg).final RiskState.init calls).rollDay t) := by
  rw [← riskEpochs_roll cfg]
  apply (riskEpochs cfg).roll_invariant (TimersSet cfg (utcDay t))
  · exact ⟨rfl, rfl⟩
  · intro pre c hday hcurrent h
    exact timersSet_step cfg (utcDay t) pre c (hday.trans hcurrent.symm) h

/-- What the timers answer a tick that comes to them.
SOURCE: engine/risk.py:52-61 -/
theorem canEnter_timer_reasons (s : RiskState K) (ctx : TickContext K) (reason : RiskReason K)
    (h : (canEnter cfg s ctx).1 = some reason) :
    ((∃ remaining why, reason = .coolOff remaining why) ↔
        (s.rollDay ctx.ts).circuitBreakerTripped = false ∧
          ctx.ts < (s.rollDay ctx.ts).pauseUntil) ∧
      ((∃ remaining, reason = .cooldown remaining) ↔
        (s.rollDay ctx.ts).circuitBreakerTripped = false ∧
          ¬ctx.ts < (s.rollDay ctx.ts).pauseUntil ∧
          ctx.ts < (s.rollDay ctx.ts).cooldownUntil) := by
  unfold canEnter at h
  dsimp only at h
  generalize s.rollDay ctx.ts = day at h ⊢
  by_cases htripped : day.circuitBreakerTripped = true
  · rw [if_pos htripped] at h
    cases h
    simp [htripped]
  rw [if_neg htripped] at h
  by_cases hpause : ctx.ts < day.pauseUntil
  · rw [if_pos hpause] at h
    cases h
    simp [htripped, hpause]
  rw [if_neg hpause] at h
  by_cases hcooldown : ctx.ts < day.cooldownUntil
  · rw [if_pos hcooldown] at h
    cases h
    simp [htripped, hpause, hcooldown]
  rw [if_neg hcooldown] at h
  -- the gates after the timers
  simp only [hpause, hcooldown, and_false, iff_false, not_exists]
  split_ifs at h <;> cases h <;> simp

/-- Every refusal for a cooldown, or for a pause, is one of a trade that closed at the time of the
tick or before it and whose period lasts beyond the tick. -/
def TimersInTime {P : Type} (trades : List (BacktestTrade K P)) (entries : List (RiskEntry K)) :
    Prop :=
  ∀ pre ctx reason post, entries = pre ++ .asked ctx (some reason) :: post →
    (∀ remaining, reason = .cooldown remaining → ∃ trade ∈ trades,
      lastClose cfg (pre.map RiskEntry.call) ctx.ts = some trade.exitTs ∧
        trade.exitTs ≤ ctx.ts ∧ ctx.ts < trade.exitTs + cfg.cooldownSeconds) ∧
    ∀ remaining why, reason = .coolOff remaining why → ∃ trade ∈ trades,
      lastPause cfg (pre.map RiskEntry.call) ctx.ts = some trade.exitTs ∧
        trade.exitTs ≤ ctx.ts ∧ ctx.ts < trade.exitTs + cfg.lossPauseDurationS

/-- A tick that comes to the timers, which the tripped breaker keeps it from, is not before the
close of the trade whose timer is running, and no pause runs from the start of the epoch. -/
def ComesAfterClose (calls : List (RiskCall K)) (ctx : TickContext K) : Prop :=
  (((riskMachine cfg).final RiskState.init calls).rollDay ctx.ts).circuitBreakerTripped = false →
    (∀ c, runningTimer cfg calls ctx.ts = some c → c ≤ ctx.ts) ∧
      (lastPause cfg calls ctx.ts = none → 0 ≤ ctx.ts)

end Timers

/-! ## When the timers are in time -/

section Exact

variable {K : Type} [Field K] [LinearOrder K] [FloorRing K] (cfg : RiskConfig K)

/-- A timer of the day is of a trade closed before. -/
theorem exists_close (calls : List (RiskCall K)) (t c : K)
    (h : lastClose cfg calls t = some c ∨ lastPause cfg calls t = some c) :
    ∃ pnl, .onTradeClosed pnl c ∈ calls := by
  have hmem : c ∈ closeTimes (daysCalls cfg calls t) := by
    rcases h with h | h
    · exact List.mem_of_getLast? h
    · exact (pauseTimes_sublist cfg _ _).subset (List.mem_of_getLast? h)
  obtain ⟨pnl, hcall⟩ := (mem_closeTimes_iff _ c).mp hmem
  exact ⟨pnl, ((riskEpochs cfg).since_suffix _ calls).subset hcall⟩

/-- Without a close there is no pause. -/
theorem lastPause_of_lastClose (calls : List (RiskCall K)) (t : K)
    (h : lastClose cfg calls t = none) : lastPause cfg calls t = none := by
  unfold lastClose lastPause at *
  rw [List.getLast?_eq_none_iff] at *
  have hsub := pauseTimes_sublist cfg (utcDay t) (daysCalls cfg calls t)
  rw [h] at hsub
  exact List.sublist_nil.mp hsub

/-- A running pause refuses before any cooldown. -/
theorem runningTimer_of_pause (calls : List (RiskCall K)) (t c : K)
    (h : lastPause cfg calls t = some c) (hrunning : t < c + cfg.lossPauseDurationS) :
    runningTimer cfg calls t = some c := by
  unfold runningTimer
  rw [h]
  simp [hrunning]

/-- Without one, the cooldown may. -/
theorem runningTimer_of_no_pause (calls : List (RiskCall K)) (t : K)
    (h : ∀ c, lastPause cfg calls t = some c → ¬t < c + cfg.lossPauseDurationS) :
    runningTimer cfg calls t =
      (lastClose cfg calls t).filter fun c => t < c + cfg.cooldownSeconds := by
  unfold runningTimer
  have hnone : (lastPause cfg calls t).filter
      (fun c => decide (t < c + cfg.lossPauseDurationS)) = none := by
    rw [Option.filter_eq_none_iff]
    intro c hc
    simpa using h c hc
  rw [hnone, Option.none_or]

/-- A refusal of a tick is one of a trade that had closed, if it is for a cooldown or a pause. -/
def RefusedInTime {P : Type} (trades : List (BacktestTrade K P)) (calls : List (RiskCall K))
    (ctx : TickContext K) (reason : RiskReason K) : Prop :=
  (∀ remaining, reason = .cooldown remaining → ∃ trade ∈ trades,
    lastClose cfg calls ctx.ts = some trade.exitTs ∧
      trade.exitTs ≤ ctx.ts ∧ ctx.ts < trade.exitTs + cfg.cooldownSeconds) ∧
  ∀ remaining why, reason = .coolOff remaining why → ∃ trade ∈ trades,
    lastPause cfg calls ctx.ts = some trade.exitTs ∧
      trade.exitTs ≤ ctx.ts ∧ ctx.ts < trade.exitTs + cfg.lossPauseDurationS

/-- Only a tick after the close of the running timer is refused in time. -/
theorem comesAfterClose_of_refused {P : Type} (trades : List (BacktestTrade K P))
    (calls : List (RiskCall K)) (ctx : TickContext K)
    (h : ∀ reason, (canEnter cfg ((riskMachine cfg).final RiskState.init calls) ctx).1 =
      some reason → RefusedInTime cfg trades calls ctx reason) :
    ComesAfterClose cfg calls ctx := by
  obtain ⟨hcooldown, hpause⟩ := timersSet cfg calls ctx.ts
  change _ = ((lastClose cfg calls ctx.ts).map _).getD 0 at hcooldown
  change _ = ((lastPause cfg calls ctx.ts).map _).getD 0 at hpause
  have hreasons := canEnter_timer_reasons cfg ((riskMachine cfg).final RiskState.init calls) ctx
  unfold ComesAfterClose
  generalize hday : ((riskMachine cfg).final RiskState.init calls).rollDay ctx.ts = day at *
  intro htripped
  have hrefused : EarlierGate cfg day ctx.ts → ∃ reason,
      (canEnter cfg ((riskMachine cfg).final RiskState.init calls) ctx).1 = some reason := by
    intro hgate
    apply Option.ne_none_iff_exists'.mp
    rw [canEnter_refuses_iff, hday]
    exact Or.inr (Or.inl hgate)
  by_cases hlt : ctx.ts < day.pauseUntil
  · obtain ⟨reason, hreason⟩ := hrefused (Or.inl hlt)
    obtain ⟨remaining, why, rfl⟩ := (hreasons reason hreason).1.mpr ⟨htripped, hlt⟩
    obtain ⟨trade, -, hlast, hle, hrunning⟩ := (h _ hreason).2 remaining why rfl
    rw [runningTimer_of_pause cfg calls _ _ hlast hrunning, hlast]
    refine ⟨?_, fun hnone => by cases hnone⟩
    rintro c ⟨⟩
    exact hle
  · have hnot : ∀ c, lastPause cfg calls ctx.ts = some c → ¬ctx.ts < c + cfg.lossPauseDurationS := by
      intro c hlast
      rw [hlast] at hpause
      rw [hpause] at hlt
      exact hlt
    constructor
    · intro c hc
      rw [runningTimer_of_no_pause cfg calls _ hnot] at hc
      obtain ⟨hlast, hrunning⟩ := Option.filter_eq_some_iff.mp hc
      rw [hlast] at hcooldown
      have hrunning : ctx.ts < day.cooldownUntil := by
        rw [hcooldown]
        exact of_decide_eq_true hrunning
      obtain ⟨reason, hreason⟩ := hrefused (Or.inr (Or.inl hrunning))
      obtain ⟨remaining, rfl⟩ := (hreasons reason hreason).2.mpr ⟨htripped, hlt, hrunning⟩
      obtain ⟨trade, -, hclose, hle, -⟩ := (h _ hreason).1 remaining rfl
      rw [hlast] at hclose
      cases hclose
      exact hle
    · intro hnone
      rw [hnone] at hpause
      rw [hpause] at hlt
      exact not_lt.mp hlt

/-- And every such tick is, in a log whose closes are trades. -/
theorem refusedInTime_of_comesAfterClose {P : Type} (trades : List (BacktestTrade K P))
    (calls : List (RiskCall K))
    (htrades : ∀ pnl now, .onTradeClosed pnl now ∈ calls → ∃ trade ∈ trades, trade.exitTs = now)
    (ctx : TickContext K) (h : ComesAfterClose cfg calls ctx) (reason : RiskReason K)
    (hreason : (canEnter cfg ((riskMachine cfg).final RiskState.init calls) ctx).1 = some reason) :
    RefusedInTime cfg trades calls ctx reason := by
  obtain ⟨hcooldown, hpause⟩ := timersSet cfg calls ctx.ts
  change _ = ((lastClose cfg calls ctx.ts).map _).getD 0 at hcooldown
  change _ = ((lastPause cfg calls ctx.ts).map _).getD 0 at hpause
  obtain ⟨hcoolOff, hcool⟩ :=
    canEnter_timer_reasons cfg ((riskMachine cfg).final RiskState.init calls) ctx reason hreason
  unfold ComesAfterClose at h
  generalize ((riskMachine cfg).final RiskState.init calls).rollDay ctx.ts = day at *
  constructor
  · rintro remaining rfl
    obtain ⟨htripped, hnot, hlt⟩ := hcool.mp ⟨remaining, rfl⟩
    obtain ⟨hafter, hzero⟩ := h htripped
    cases hlast : lastClose cfg calls ctx.ts with
    | none =>
      -- no trade has closed on the day, so both timers are at the start of the epoch
      have hnone := lastPause_of_lastClose cfg calls ctx.ts hlast
      rw [hlast] at hcooldown
      rw [hcooldown] at hlt
      exact absurd (hzero hnone) (not_le.mpr hlt)
    | some c =>
      rw [hlast] at hcooldown
      rw [hcooldown] at hlt
      have hnopause : ∀ c, lastPause cfg calls ctx.ts = some c →
          ¬ctx.ts < c + cfg.lossPauseDurationS := by
        intro c' hc'
        rw [hc'] at hpause
        rw [hpause] at hnot
        exact hnot
      have hrunning : runningTimer cfg calls ctx.ts = some c := by
        rw [runningTimer_of_no_pause cfg calls _ hnopause, hlast]
        exact Option.filter_eq_some_iff.mpr ⟨rfl, decide_eq_true hlt⟩
      obtain ⟨pnl, hcall⟩ := exists_close cfg calls ctx.ts c (Or.inl hlast)
      obtain ⟨trade, htrade, rfl⟩ := htrades pnl c hcall
      exact ⟨trade, htrade, rfl, hafter _ hrunning, hlt⟩
  · rintro remaining why rfl
    obtain ⟨htripped, hlt⟩ := hcoolOff.mp ⟨remaining, why, rfl⟩
    obtain ⟨hafter, hzero⟩ := h htripped
    cases hlast : lastPause cfg calls ctx.ts with
    | none =>
      rw [hlast] at hpause
      rw [hpause] at hlt
      exact absurd (hzero hlast) (not_le.mpr hlt)
    | some c =>
      rw [hlast] at hpause
      rw [hpause] at hlt
      obtain ⟨pnl, hcall⟩ := exists_close cfg calls ctx.ts c (Or.inr hlast)
      obtain ⟨trade, htrade, rfl⟩ := htrades pnl c hcall
      exact ⟨trade, htrade, rfl, hafter _ (runningTimer_of_pause cfg calls _ _ hlast hlt), hlt⟩

/-- The log of a replicate whose driver asks the manager. -/
def replicateEntries {S P G : Type} (cfg : BacktestConfig K S P G) (loader : MaterializedLoader K)
    (strategy : S) (rng : G) (idxs : List (Fin loader.markets.length)) : List (RiskEntry K) :=
  replayEntries { cfg with bypassRisk := false } loader.settle
    (startRun strategy RiskState.init rng) ((loader.sampled idxs).map LoadedMarket.pair)

/-- **Timers under resampling.** In every replicate, each refusal for a cooldown or a pause is one
of a trade that closed at the time of the tick or before exactly when no tick that comes to the
timers is before the close of the trade whose timer is running.
SOURCE: engine/risk.py:47-93, research/monte_carlo.py:304-322 -/
theorem timersInTime_iff {S P G : Type} (cfg : BacktestConfig K S P G)
    (loader : MaterializedLoader K) (strategy : S) (rng : G)
    (idxs : List (Fin loader.markets.length)) :
    TimersInTime cfg.riskCfg
        (blockBootstrapReplicate { cfg with bypassRisk := false } loader strategy rng idxs).trades
        (replicateEntries cfg loader strategy rng idxs) ↔
      ∀ pre ctx reason post,
        replicateEntries cfg loader strategy rng idxs = pre ++ .asked ctx reason :: post →
        ComesAfterClose cfg.riskCfg (pre.map RiskEntry.call) ctx := by
  obtain ⟨-, hanswered, hclosed⟩ := replayEntries_answered { cfg with bypassRisk := false }
    loader.settle rfl ((loader.sampled idxs).map LoadedMarket.pair)
    (startRun strategy RiskState.init rng)
  change Answered cfg.riskCfg RiskState.init (replicateEntries cfg loader strategy rng idxs)
    at hanswered
  change ∀ pnl now, .closed pnl now ∈ replicateEntries cfg loader strategy rng idxs →
    ∃ trade ∈ (blockBootstrapReplicate { cfg with bypassRisk := false } loader strategy rng
      idxs).trades, trade.exitTs = now at hclosed
  generalize replicateEntries cfg loader strategy rng idxs = entries at *
  generalize (blockBootstrapReplicate { cfg with bypassRisk := false } loader strategy rng
    idxs).trades = trades at *
  have hstep : ∀ pre ctx reason post, entries = pre ++ .asked ctx reason :: post →
      (canEnter cfg.riskCfg ((riskMachine cfg.riskCfg).final RiskState.init
        (pre.map RiskEntry.call)) ctx).1 = reason ∧
      ∀ pnl now, .onTradeClosed pnl now ∈ pre.map RiskEntry.call →
        ∃ trade ∈ trades, trade.exitTs = now := by
    intro pre ctx reason post heq
    refine ⟨hanswered pre _ post heq, fun pnl now hcall => ?_⟩
    obtain ⟨e, he, hcall⟩ := List.mem_map.mp hcall
    cases e with
    | asked ctx' reason' => cases hcall
    | closed pnl' now' =>
      cases hcall
      apply hclosed pnl now
      rw [heq]
      exact List.mem_append_left _ he
  constructor
  · intro h pre ctx reason post heq
    obtain ⟨hreason, -⟩ := hstep pre ctx reason post heq
    apply comesAfterClose_of_refused cfg.riskCfg trades (pre.map RiskEntry.call) ctx
    intro reason' hreason'
    rw [hreason'] at hreason
    subst hreason
    exact h pre ctx reason' post heq
  · intro h pre ctx reason post heq
    obtain ⟨hreason, htrades⟩ := hstep pre ctx (some reason) post heq
    exact refusedInTime_of_comesAfterClose cfg.riskCfg trades (pre.map RiskEntry.call) htrades ctx
      (h pre ctx (some reason) post heq) reason hreason

/-- The time of a tick that is refused for a cooldown. -/
def cooldownAt : RiskEntry K → Option K
  | .asked ctx (some (.cooldown _)) => some ctx.ts
  | _ => none

/-- The sample in which the later one comes first. -/
def laterFirst : List (Fin twoMarkets.markets.length) := [⟨1, by decide⟩, ⟨0, by decide⟩]

/-- Drawn in the other order, the trade that closes at 1800 keeps the market that closes at 1500
from its own: its tick at 1440 is refused for a cooldown until 1860.
SOURCE: engine/risk.py:60-61, research/monte_carlo.py:304-322 -/
theorem later_trade_blocks :
    ¬∀ (cfg : BacktestConfig ℚ (TrendState Unit) (TrendPayload ℚ) Unit)
      (loader : MaterializedLoader ℚ) (idxs : List (Fin loader.markets.length)),
      TimersInTime cfg.riskCfg
        (blockBootstrapReplicate { cfg with bypassRisk := false } loader ⟨∅, ()⟩ () idxs).trades
        (replicateEntries cfg loader ⟨∅, ()⟩ () idxs) := by
  intro h
  have hrefused : (1440 : ℚ) ∈
      (replicateEntries trendBacktest twoMarkets ⟨∅, ()⟩ () laterFirst).filterMap cooldownAt := by
    decide +kernel
  have htrades : ((blockBootstrapReplicate { trendBacktest with bypassRisk := false } twoMarkets
      ⟨∅, ()⟩ () laterFirst).trades.map (·.exitTs)) = [1800] := by
    decide +kernel
  obtain ⟨e, he, hat⟩ := List.mem_filterMap.mp hrefused
  obtain ⟨pre, post, heq⟩ := List.append_of_mem he
  cases e with
  | closed pnl now => cases hat
  | asked ctx reason =>
    cases reason with
    | none => cases hat
    | some reason =>
      cases reason with
      | cooldown remaining =>
        obtain ⟨trade, htrade, -, hle, -⟩ := (h trendBacktest twoMarkets laterFirst pre ctx _ post
          heq).1 remaining rfl
        have hexit : trade.exitTs ∈ [(1800 : ℚ)] := by
          rw [← htrades]
          exact List.mem_map_of_mem htrade
        have hts : ctx.ts = 1440 := Option.some.inj hat
        rw [List.mem_singleton.mp hexit, hts] at hle
        exact absurd hle (by norm_num)
      | _ => cases hat

end Exact

end TradingEdge.Analysis
