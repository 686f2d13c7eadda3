import TradingEdge.Analysis.FillAgreement

/-!
# The backtest does not look ahead

What the tick loop does at an index is determined by the ticks up to that index: the loop
is a machine whose labels are the ticks, so this is the causality of runs.  What is left is
the trade written after the loop.  Its entry fields are those of the position, and a
position, once opened, is never touched again (`final_of_position`), so they too are
determined by the ticks up to the entry.
-/

set_option autoImplicit false

namespace TradingEdge.Analysis

open TradingEdge.Model TradingEdge.Program TradingEdge.Library

variable {K S P G : Type} [Field K] [LinearOrder K] [FloorRing K]

/-- While a position is open a tick only updates the indicators.
SOURCE: engine/backtest_driver.py:231-233 -/
theorem tickStep_of_position (cfg : BacktestConfig K S P G) (st : MarketState K S P G)
    (tick : TickContext K) (p : BacktestPosition K P) (hp : st.position = some p) :
    tickStep cfg st tick =
      (st.observe (st.indicators.update cfg.lib tick).1 (st.indicators.update cfg.lib tick).2,
        [.indicatorUpdate (st.indicators.update cfg.lib tick).1]) := by
  have hsome : (st.observe (st.indicators.update cfg.lib tick).1
      (st.indicators.update cfg.lib tick).2).position.isSome = true := by
    simp [hp]
  simp only [tickStep]
  rw [if_pos hsome]

/-- An open position and the time of its signal stay as they are to the end of the market. -/
theorem final_of_position (cfg : BacktestConfig K S P G) (ticks : List (TickContext K))
    (st : MarketState K S P G) (p : BacktestPosition K P) (hp : st.position = some p) :
    ((marketLoop cfg).final st ticks).position = some p ∧
      ((marketLoop cfg).final st ticks).signalFirstSeen = st.signalFirstSeen := by
  induction ticks generalizing st with
  | nil => exact ⟨hp, rfl⟩
  | cons tick ticks ih =>
    have hnext : (marketLoop cfg).next st tick =
        st.observe (st.indicators.update cfg.lib tick).1
          (st.indicators.update cfg.lib tick).2 := by
      change (tickStep cfg st tick).1 = _
      rw [tickStep_of_position cfg st tick p hp]
    rw [Machine.final_cons, hnext]
    exact ih _ hp

omit [FloorRing K] in
/-- An evaluation that reports an entry leaves that position open. -/
theorem position_of_entry_mem_evaluate (cfg : BacktestConfig K S P G)
    (st : MarketState K S P G) (ctx : TickContext K) (recent : List (TickContext K))
    (p : BacktestPosition K P) (h : .entry p ∈ (evaluate cfg st ctx recent).2) :
    (evaluate cfg st ctx recent).1.position = some p := by
  unfold evaluate at h ⊢
  cases hact : (cfg.strategy.shouldEnter st.strategy ctx recent).1.action with
  | skip => simp [hact] at h
  | enter =>
    simp only [hact] at h ⊢
    split at h
    · simp at h
    · rename_i hdraw
      rw [if_neg hdraw]
      cases hop : openPosition cfg.fillCfg ctx
          (cfg.strategy.shouldEnter st.strategy ctx recent).1 with
      | none => simp [hop] at h
      | some q =>
        simp only [hop, List.mem_cons, reduceCtorEq, TickEvent.entry.injEq, List.not_mem_nil,
          or_false, false_or] at h
        rw [h]

/-- A tick that reports an entry leaves that position open. -/
theorem position_of_entry_mem_emits (cfg : BacktestConfig K S P G)
    (st : MarketState K S P G) (tick : TickContext K) (p : BacktestPosition K P)
    (h : .entry p ∈ (marketLoop cfg).emits st tick) :
    ((marketLoop cfg).next st tick).position = some p := by
  simp only [Machine.next, Machine.emits, marketLoop, tickStep] at h ⊢
  split at h
  · simp at h
  rename_i hopen
  split at h
  · simp at h
  rename_i hwin
  rw [if_neg hopen, if_neg hwin]
  split at h
  · rename_i hbypass
    rw [if_pos hbypass]
    exact position_of_entry_mem_evaluate cfg _ _ _ p (by simpa using h)
  rename_i hbypass
  rw [if_neg hbypass]
  revert h
  rcases canEnter cfg.riskCfg (st.observe (st.indicators.update cfg.lib tick).1
    (st.indicators.update cfg.lib tick).2).risk (st.indicators.update cfg.lib tick).1 with
    ⟨_ | reason, risk⟩
  · exact fun h => position_of_entry_mem_evaluate cfg _ _ _ p (by simpa using h)
  · exact fun h => absurd h (by simp)

/-- A position that some tick of the market opened is the position at its end, and the time
of its signal is the one it was opened with. -/
theorem final_of_entry_mem (cfg : BacktestConfig K S P G) (st : MarketState K S P G)
    (ticks rest : List (TickContext K)) (p : BacktestPosition K P)
    (h : .entry p ∈ (marketLoop cfg).trace st ticks) :
    ((marketLoop cfg).final st (ticks ++ rest)).position = some p ∧
      ((marketLoop cfg).final st (ticks ++ rest)).signalFirstSeen =
        ((marketLoop cfg).final st ticks).signalFirstSeen := by
  obtain ⟨pre, tick, post, rfl, hmem⟩ := ((marketLoop cfg).mem_trace_iff _ _ _).mp h
  have hopen := position_of_entry_mem_emits cfg _ tick p hmem
  have hmid : ((marketLoop cfg).final st (pre ++ tick :: post)).position = some p := by
    rw [Machine.final_append, Machine.final_cons]
    exact (final_of_position cfg post _ p hopen).1
  rw [Machine.final_append]
  exact final_of_position cfg rest _ p hmid

omit [FloorRing K] in
/-- The entry fields of a trade are those of its position. -/
theorem closeTrade_entryRecord (cfg : BacktestConfig K S P G) (tradeIdx : ℕ) (slug : String)
    (openPrice finalPrice closeTs : K) (seen : Option K) (p : BacktestPosition K P) :
    (closeTrade cfg tradeIdx slug openPrice finalPrice closeTs seen p).entryRecord =
      (p, signalFirstSeenOf seen p) := rfl

/-- A market whose loop ends with a position adds one trade, with that entry. -/
theorem closeMarket_trades (cfg : BacktestConfig K S P G) (run : RunState K S P G)
    (slug : String) (openPrice finalPrice closeTs : K) (st : MarketState K S P G)
    (p : BacktestPosition K P) (hp : st.position = some p) :
    ∃ trade, (closeMarket cfg run slug openPrice finalPrice closeTs st).trades =
        run.trades ++ [trade] ∧
      trade.entryRecord = (p, signalFirstSeenOf st.signalFirstSeen p) := by
  unfold closeMarket
  rw [hp]
  exact ⟨_, rfl, closeTrade_entryRecord cfg _ _ _ _ _ _ _⟩

/-- The market is skipped: the loader has settle prices, but none for it.
SOURCE: engine/backtest_driver.py:185-200 -/
def SettleMissing (settlePrices : Option (String → Option K)) (slug : String) : Prop :=
  ∃ prices, settlePrices = some prices ∧ prices slug = none

omit [FloorRing K] in
/-- A market has no settle price if the dict misses it. -/
theorem settlePriceFor_eq_none_iff (settlePrices : Option (String → Option K))
    (slug : String) (last : TickContext K) :
    settlePriceFor settlePrices slug last = none ↔ SettleMissing settlePrices slug := by
  cases settlePrices with
  | none => simp [settlePriceFor, SettleMissing]
  | some prices => simp [settlePriceFor, SettleMissing]

/-- A market that is not skipped does at its ticks what its loop does, and adds the trade of
the position its loop ends with. -/
theorem replayMarket_of_settle (cfg : BacktestConfig K S P G)
    (settlePrices : Option (String → Option K)) (run : RunState K S P G) (slug : String)
    (ticks : List (TickContext K)) (h : ¬SettleMissing settlePrices slug) :
    (replayMarket cfg settlePrices run slug ticks).2 =
        (marketLoop cfg).emissions (MarketState.start cfg run) ticks ∧
      ∀ p, ((marketLoop cfg).final (MarketState.start cfg run) ticks).position = some p →
        ∃ trade, (replayMarket cfg settlePrices run slug ticks).1.trades =
            run.trades ++ [trade] ∧
          trade.entryRecord = (p, signalFirstSeenOf
            ((marketLoop cfg).final (MarketState.start cfg run) ticks).signalFirstSeen p) := by
  cases ticks with
  | nil =>
    refine ⟨rfl, fun p hp => ?_⟩
    cases hp
  | cons first rest =>
    simp only [replayMarket]
    cases hs : settlePriceFor settlePrices slug (rest.getLast?.getD first) with
    | none => exact absurd ((settlePriceFor_eq_none_iff _ _ _).mp hs) h
    | some finalPrice =>
      exact ⟨rfl, fun p hp => closeMarket_trades cfg _ slug _ _ _ _ p hp⟩

/-- A skipped market does nothing. -/
theorem replayMarket_of_missing (cfg : BacktestConfig K S P G)
    (settlePrices : Option (String → Option K)) (run : RunState K S P G) (slug : String)
    (ticks : List (TickContext K)) (h : SettleMissing settlePrices slug) :
    (replayMarket cfg settlePrices run slug ticks).2 = [] := by
  cases ticks with
  | nil => rfl
  | cons first rest =>
    have hs := (settlePriceFor_eq_none_iff settlePrices slug
      (rest.getLast?.getD first)).mpr h
    simp only [replayMarket, hs]

/-- **No look-ahead.** Two tick lists of a market that agree up to index `i`, replayed from
the same state of the run, make the same indicator updates, risk decisions, strategy calls,
fill draws and entries at every index up to `i`; and an entry made there leaves both
markets a trade with the same entry fields, whatever the later ticks are.
SOURCE: engine/backtest_driver.py:168-324 -/
theorem replayMarket_no_look_ahead (cfg : BacktestConfig K S P G)
    (settlePrices : Option (String → Option K)) (run : RunState K S P G) (slug : String)
    (ticks ticks' : List (TickContext K)) (i : ℕ)
    (h : ticks.take (i + 1) = ticks'.take (i + 1)) :
    (replayMarket cfg settlePrices run slug ticks).2.take (i + 1) =
        (replayMarket cfg settlePrices run slug ticks').2.take (i + 1) ∧
      ∀ p, .entry p ∈ ((replayMarket cfg settlePrices run slug ticks).2.take (i + 1)).flatten →
        ∃ trade trade',
          (replayMarket cfg settlePrices run slug ticks).1.trades = run.trades ++ [trade] ∧
          (replayMarket cfg settlePrices run slug ticks').1.trades = run.trades ++ [trade'] ∧
          trade.entryRecord.1 = p ∧ trade.entryRecord = trade'.entryRecord := by
  by_cases hmiss : SettleMissing settlePrices slug
  · rw [replayMarket_of_missing cfg _ _ _ _ hmiss, replayMarket_of_missing cfg _ _ _ _ hmiss]
    exact ⟨rfl, fun p hp => absurd hp (by simp)⟩
  · obtain ⟨hem, htr⟩ := replayMarket_of_settle cfg settlePrices run slug ticks hmiss
    obtain ⟨hem', htr'⟩ := replayMarket_of_settle cfg settlePrices run slug ticks' hmiss
    rw [hem, hem', Machine.emissions_take, Machine.emissions_take, h]
    refine ⟨rfl, fun p hp => ?_⟩
    -- both markets end with the position the common prefix opened
    have hfin := final_of_entry_mem cfg _ (ticks'.take (i + 1)) (ticks.drop (i + 1)) p hp
    have hfin' := final_of_entry_mem cfg _ (ticks'.take (i + 1)) (ticks'.drop (i + 1)) p hp
    rw [← h, List.take_append_drop] at hfin
    rw [List.take_append_drop] at hfin'
    obtain ⟨trade, htrades, hrec⟩ := htr p hfin.1
    obtain ⟨trade', htrades', hrec'⟩ := htr' p hfin'.1
    refine ⟨trade, trade', htrades, htrades', by rw [hrec], ?_⟩
    rw [hrec, hrec', hfin.2, hfin'.2, h]

/-- The same entry on `quotedTick`, whether the market then rallies or crashes. -/
theorem replayMarket_no_look_ahead_quotedTick :
    (replayMarket eagerConfig none ⟨(), RiskState.init, (), ⟨0, 0, 0, 0⟩, [], 0, 0, 0⟩
        "btc-updown-5m-1500" [quotedTick, { quotedTick with spotPrice := 2 }]).2.take 1 =
      (replayMarket eagerConfig none ⟨(), RiskState.init, (), ⟨0, 0, 0, 0⟩, [], 0, 0, 0⟩
        "btc-updown-5m-1500" [quotedTick, { quotedTick with spotPrice := 1 }]).2.take 1 :=
  (replayMarket_no_look_ahead eagerConfig none _ "btc-updown-5m-1500"
    [quotedTick, { quotedTick with spotPrice := 2 }]
    [quotedTick, { quotedTick with spotPrice := 1 }] 0 rfl).1

end TradingEdge.Analysis
