import TradingEdge.Library.Epochs
import TradingEdge.Program.Risk

/-!
# The risk manager as a machine

A `RiskManager` is driven by two calls, `can_enter` and `on_trade_closed`.  A run is a sequence
of calls in the order they are made; each call brings its own time.
-/

set_option autoImplicit false

namespace TradingEdge.Program

open TradingEdge.Model TradingEdge.Library

/-- A call of the manager. -/
inductive RiskCall (K : Type) where
  | canEnter (ctx : TickContext K)
  | onTradeClosed (pnl now : K)

/-- The time a call brings. -/
def RiskCall.time {K : Type} : RiskCall K → K
  | .canEnter ctx => ctx.ts
  | .onTradeClosed _ now => now

/-- What a call does: it answers, or books a trade and perhaps starts the rolling-loss pause. -/
inductive RiskEvent (K : Type) where
  | answered (reason : Option (RiskReason K))
  | closed (pnl now : K) (pauses : Bool)

variable {K : Type} [Field K] [LinearOrder K] [FloorRing K]

/-- The closed trades that a close sums up, itself included.
SOURCE: engine/risk.py:83-88 -/
def windowPnls (cfg : RiskConfig K) (s : RiskState K) (pnl now : K) : List (K × K) :=
  ((s.rollDay now).recentPnls ++ [(now, pnl)]).dropWhile
    fun e => e.1 < now - cfg.lossPauseWindowS

/-- The close starts the rolling-loss pause.
SOURCE: engine/risk.py:83-93 -/
def Pauses (cfg : RiskConfig K) (s : RiskState K) (pnl now : K) : Prop :=
  0 < cfg.lossPauseThreshold ∧
    ((windowPnls cfg s pnl now).map Prod.snd).sum ≤ -cfg.lossPauseThreshold

instance (cfg : RiskConfig K) (s : RiskState K) (pnl now : K) :
    Decidable (Pauses cfg s pnl now) :=
  inferInstanceAs (Decidable (_ ∧ _))

/-- SOURCE: engine/risk.py:52-93 -/
def riskStep (cfg : RiskConfig K) (s : RiskState K) :
    RiskCall K → RiskState K × List (RiskEvent K)
  | .canEnter ctx => ((canEnter cfg s ctx).2, [.answered (canEnter cfg s ctx).1])
  | .onTradeClosed pnl now =>
    (onTradeClosed cfg s pnl now, [.closed pnl now (Pauses cfg s pnl now)])

/-- The risk manager as a machine. -/
def riskMachine (cfg : RiskConfig K) : Machine (RiskState K) (RiskCall K) (RiskEvent K) :=
  ⟨riskStep cfg⟩

/-! ## What a call does -/

/-- The state after a question is what the question leaves. -/
@[simp] theorem riskMachine_next_canEnter (cfg : RiskConfig K) (s : RiskState K)
    (ctx : TickContext K) : (riskMachine cfg).next s (.canEnter ctx) = (canEnter cfg s ctx).2 := rfl

/-- The state after a trade is what the trade leaves. -/
@[simp] theorem riskMachine_next_closed (cfg : RiskConfig K) (s : RiskState K) (pnl now : K) :
    (riskMachine cfg).next s (.onTradeClosed pnl now) = onTradeClosed cfg s pnl now := rfl

/-- A question emits its answer. -/
@[simp] theorem riskMachine_emits_canEnter (cfg : RiskConfig K) (s : RiskState K)
    (ctx : TickContext K) :
    (riskMachine cfg).emits s (.canEnter ctx) = [.answered (canEnter cfg s ctx).1] := rfl

/-- A trade emits its result, and whether it pauses. -/
@[simp] theorem riskMachine_emits_closed (cfg : RiskConfig K) (s : RiskState K) (pnl now : K) :
    (riskMachine cfg).emits s (.onTradeClosed pnl now) =
      [.closed pnl now (Pauses cfg s pnl now)] := rfl

/-- The thresholds on the market refuse the tick.
SOURCE: engine/risk.py:68-76 -/
def MarketRefuses (cfg : RiskConfig K) (ctx : TickContext K) : Prop :=
  cfg.maxSpread < ctx.pmSpreadBps ∨ min ctx.pmDepthYes ctx.pmDepthNo < cfg.minDepth ∨
    |ctx.zScore| < cfg.minZScore ∨ |ctx.edge| * 10000 < cfg.minEdgeBps

/-- A gate before the loss limit refuses the call.
SOURCE: engine/risk.py:55-63 -/
def EarlierGate (cfg : RiskConfig K) (s : RiskState K) (now : K) : Prop :=
  now < s.pauseUntil ∨ now < s.cooldownUntil ∨ cfg.dailyTradeLimit ≤ s.dailyTrades

/-- The call comes to the loss limit and finds it reached: it trips the breaker.
SOURCE: engine/risk.py:52-67 -/
def Trips (cfg : RiskConfig K) (s : RiskState K) (ctx : TickContext K) : Prop :=
  (s.rollDay ctx.ts).circuitBreakerTripped = false ∧
    ¬EarlierGate cfg (s.rollDay ctx.ts) ctx.ts ∧
    (s.rollDay ctx.ts).dailyPnl ≤ -cfg.dailyLossLimit

instance (cfg : RiskConfig K) (ctx : TickContext K) : Decidable (MarketRefuses cfg ctx) :=
  inferInstanceAs (Decidable (_ ∨ _ ∨ _ ∨ _))

instance (cfg : RiskConfig K) (s : RiskState K) (now : K) : Decidable (EarlierGate cfg s now) :=
  inferInstanceAs (Decidable (_ ∨ _ ∨ _))

instance (cfg : RiskConfig K) (s : RiskState K) (ctx : TickContext K) :
    Decidable (Trips cfg s ctx) :=
  inferInstanceAs (Decidable (_ ∧ ¬_ ∧ _))

/-- `can_enter` refuses for the breaker, an earlier gate, the loss limit or the market.
SOURCE: engine/risk.py:52-77 -/
theorem canEnter_refuses_iff (cfg : RiskConfig K) (s : RiskState K) (ctx : TickContext K) :
    (canEnter cfg s ctx).1 ≠ none ↔
      (s.rollDay ctx.ts).circuitBreakerTripped = true ∨
        EarlierGate cfg (s.rollDay ctx.ts) ctx.ts ∨
        (s.rollDay ctx.ts).dailyPnl ≤ -cfg.dailyLossLimit ∨ MarketRefuses cfg ctx := by
  unfold canEnter EarlierGate MarketRefuses
  dsimp only
  generalize s.rollDay ctx.ts = t
  by_cases htripped : t.circuitBreakerTripped = true
  · simp only [htripped, if_true, ne_eq, reduceCtorEq, not_false_eq_true, true_or]
  by_cases hpause : ctx.ts < t.pauseUntil
  · simp only [htripped, hpause, if_true, if_false, ne_eq, reduceCtorEq, not_false_eq_true,
      true_or, or_true]
  by_cases hcooldown : ctx.ts < t.cooldownUntil
  · simp only [htripped, hpause, hcooldown, if_true, if_false, ne_eq, reduceCtorEq,
      not_false_eq_true, true_or, or_true]
  by_cases htrades : cfg.dailyTradeLimit ≤ t.dailyTrades
  · simp only [htripped, hpause, hcooldown, htrades, if_true, if_false, ne_eq, reduceCtorEq,
      not_false_eq_true, true_or, or_true]
  simp only [htripped, hpause, hcooldown, htrades, if_false, false_or]
  split_ifs <;> simp only [*, ne_eq, reduceCtorEq, not_false_eq_true, true_or, or_true,
    not_true_eq_false, or_self]

/-- It leaves the state of the day as it is, but for the breaker. -/
theorem canEnter_state (cfg : RiskConfig K) (s : RiskState K) (ctx : TickContext K) :
    (canEnter cfg s ctx).2 =
      if Trips cfg s ctx then
        { s.rollDay ctx.ts with
          circuitBreakerTripped := true, tripReason := some (s.rollDay ctx.ts).dailyPnl }
      else s.rollDay ctx.ts := by
  rw [canEnter]
  dsimp only
  by_cases htripped : (s.rollDay ctx.ts).circuitBreakerTripped = true
  · rw [if_pos htripped, if_neg fun h => Bool.false_ne_true (h.1.symm.trans htripped)]
  rw [if_neg htripped]
  by_cases hpause : ctx.ts < (s.rollDay ctx.ts).pauseUntil
  · rw [if_pos hpause, if_neg fun h => h.2.1 (Or.inl hpause)]
  rw [if_neg hpause]
  by_cases hcooldown : ctx.ts < (s.rollDay ctx.ts).cooldownUntil
  · rw [if_pos hcooldown, if_neg fun h => h.2.1 (Or.inr (Or.inl hcooldown))]
  rw [if_neg hcooldown]
  by_cases htrades : cfg.dailyTradeLimit ≤ (s.rollDay ctx.ts).dailyTrades
  · rw [if_pos htrades, if_neg fun h => h.2.1 (Or.inr (Or.inr htrades))]
  rw [if_neg htrades]
  -- only the loss limit changes the state
  by_cases hloss : (s.rollDay ctx.ts).dailyPnl ≤ -cfg.dailyLossLimit
  · have hgates : ¬EarlierGate cfg (s.rollDay ctx.ts) ctx.ts := by
      rintro (h | h | h)
      · exact hpause h
      · exact hcooldown h
      · exact htrades h
    rw [if_pos hloss, if_pos ⟨Bool.eq_false_of_not_eq_true htripped, hgates, hloss⟩]
  have hnot : ¬Trips cfg s ctx := fun h => hloss h.2.2
  rw [if_neg hloss, if_neg hnot]
  split_ifs <;> rfl

/-- So it leaves the timers of the day alone. -/
theorem canEnter_timers (cfg : RiskConfig K) (s : RiskState K) (ctx : TickContext K) :
    (canEnter cfg s ctx).2.cooldownUntil = (s.rollDay ctx.ts).cooldownUntil ∧
      (canEnter cfg s ctx).2.pauseUntil = (s.rollDay ctx.ts).pauseUntil := by
  rw [canEnter_state]
  split
  · exact ⟨rfl, rfl⟩
  · exact ⟨rfl, rfl⟩

/-- A close books the trade, starts the cooldown, and may start the pause.
SOURCE: engine/risk.py:79-93 -/
theorem onTradeClosed_eq (cfg : RiskConfig K) (s : RiskState K) (pnl now : K) :
    onTradeClosed cfg s pnl now =
      { s.rollDay now with
        dailyPnl := (s.rollDay now).dailyPnl + pnl
        dailyTrades := (s.rollDay now).dailyTrades + 1
        cooldownUntil := now + cfg.cooldownSeconds
        recentPnls := if Pauses cfg s pnl now then []
          else if 0 < cfg.lossPauseThreshold then windowPnls cfg s pnl now
          else (s.rollDay now).recentPnls
        pauseUntil := if Pauses cfg s pnl now then now + cfg.lossPauseDurationS
          else (s.rollDay now).pauseUntil
        pauseReason := if Pauses cfg s pnl now then
            some ((windowPnls cfg s pnl now).map Prod.snd).sum
          else (s.rollDay now).pauseReason } := by
  unfold onTradeClosed Pauses windowPnls
  dsimp only
  by_cases hthreshold : 0 < cfg.lossPauseThreshold
  · by_cases hpause : ((((s.rollDay now).recentPnls ++ [(now, pnl)]).dropWhile fun e =>
        e.1 < now - cfg.lossPauseWindowS).map Prod.snd).sum ≤ -cfg.lossPauseThreshold
    · simp [hthreshold, hpause]
    · simp [hthreshold, hpause]
  · simp [hthreshold]

/-! ## The day of the state -/

/-- After a roll the day is the one rolled to. -/
@[simp] theorem rollDay_dayKey (s : RiskState K) (now : K) :
    (s.rollDay now).dayKey = utcDay now := by
  unfold RiskState.rollDay
  split
  · rfl
  · rename_i h
    exact (not_not.mp h).symm

/-- Within its day a state is not rolled. -/
theorem rollDay_of_eq (s : RiskState K) (now : K) (h : utcDay now = s.dayKey) :
    s.rollDay now = s := by
  unfold RiskState.rollDay
  rw [if_neg (not_not.mpr h)]

/-- On another day it starts afresh. -/
theorem rollDay_of_ne (s : RiskState K) (now : K) (h : utcDay now ≠ s.dayKey) :
    s.rollDay now = RiskState.fresh (utcDay now) := by
  unfold RiskState.rollDay
  rw [if_pos h]

/-- A new day forgets the pnls. -/
theorem rollDay_recentPnls (s : RiskState K) (now : K) :
    (s.rollDay now).recentPnls = if utcDay now = s.dayKey then s.recentPnls else [] := by
  split
  · rename_i hsame
    rw [rollDay_of_eq s now hsame]
  · rename_i hother
    rw [rollDay_of_ne s now hother]
    rfl

/-- Rolling the day once is enough. -/
theorem rollDay_rollDay (s : RiskState K) (now : K) : (s.rollDay now).rollDay now = s.rollDay now :=
  rollDay_of_eq _ _ (rollDay_dayKey s now).symm

/-- Every call first rolls the day. -/
theorem riskMachine_next_rollDay (cfg : RiskConfig K) (s : RiskState K) (c : RiskCall K) :
    (riskMachine cfg).next s c = (riskMachine cfg).next (s.rollDay c.time) c := by
  have hroll := rollDay_rollDay s c.time
  cases c with
  | canEnter ctx =>
    unfold RiskCall.time at hroll ⊢
    rw [riskMachine_next_canEnter, riskMachine_next_canEnter, canEnter, canEnter]
    dsimp only at hroll ⊢
    rw [hroll]
  | onTradeClosed pnl now =>
    unfold RiskCall.time at hroll ⊢
    rw [riskMachine_next_closed, riskMachine_next_closed, onTradeClosed, onTradeClosed]
    dsimp only at hroll ⊢
    rw [hroll]

/-- After a call the state is that of the call's day. -/
theorem riskMachine_next_dayKey (cfg : RiskConfig K) (s : RiskState K) (c : RiskCall K) :
    ((riskMachine cfg).next s c).dayKey = utcDay c.time := by
  cases c with
  | canEnter ctx =>
    rw [riskMachine_next_canEnter, canEnter_state]
    split
    · exact rollDay_dayKey s ctx.ts
    · exact rollDay_dayKey s ctx.ts
  | onTradeClosed pnl now =>
    rw [riskMachine_next_closed, onTradeClosed_eq]
    exact rollDay_dayKey s now

/-- The days are the epochs of the manager.
SOURCE: engine/risk.py:47-50 -/
def riskEpochs (cfg : RiskConfig K) : Epochs (riskMachine cfg) ℤ where
  epoch c := utcDay c.time
  current s := s.dayKey
  fresh := RiskState.fresh
  current_fresh _ := rfl
  next_roll s c := by
    rw [riskMachine_next_rollDay]
    unfold RiskState.rollDay
    rw [ite_not]
    simp only [eq_comm]
  current_next := riskMachine_next_dayKey cfg

/-- The days are the epochs of the manager. -/
theorem riskEpochs_roll (cfg : RiskConfig K) (s : RiskState K) (now : K) :
    (riskEpochs cfg).roll s (utcDay now) = s.rollDay now := by
  by_cases h : utcDay now = s.dayKey
  · rw [rollDay_of_eq s now h]
    exact (riskEpochs cfg).roll_of_eq h.symm
  · rw [rollDay_of_ne s now h]
    exact (riskEpochs cfg).roll_of_ne (Ne.symm h)

end TradingEdge.Program
