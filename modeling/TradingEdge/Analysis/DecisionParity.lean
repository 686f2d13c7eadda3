import Mathlib.Analysis.SpecialFunctions.Log.Basic
import Mathlib.MeasureTheory.Integral.IntervalIntegral.Basic
import TradingEdge.Analysis.DriverSteps
import TradingEdge.Analysis.FeatureWindows
import TradingEdge.Analysis.FillAgreement
import TradingEdge.Program.TrendConfirm

/-!
# The same decision on a shorter history

The backtest hands a strategy all earlier ticks of the market, the paper driver the last 120.
`replay` runs `trend_confirm_t1_v1` over the ticks of one market with either view of the
history, and `decision_parity_iff` says when the two make the same decisions.

Five of the six filters read the history.  Four look back over a configured length, so the
last 120 ticks are enough if that length is short; the autocorrelation of the returns is
taken over everything there is.
-/

set_option autoImplicit false

namespace TradingEdge.Analysis

open TradingEdge.Model TradingEdge.Program TradingEdge.Library

/-! ## What the drivers supply -/

section Drivers

variable {K S P G : Type} [Field K] [LinearOrder K] [FloorRing K]

/-- The contexts a backtest has updated so far. -/
def updatedCtxs (es : List (TickEvent K P)) : List (TickContext K) :=
  es.filterMap fun e =>
    match e with
    | .indicatorUpdate ctx => some ctx
    | _ => none

/-- A tick of the backtest is added to the history, and a strategy it calls gets the history
from before.
SOURCE: engine/backtest_driver.py:215-229 -/
theorem tickStep_recentTicks (cfg : BacktestConfig K S P G) (st : MarketState K S P G)
    (tick : TickContext K) :
    (tickStep cfg st tick).1.recentCtxs =
        st.recentCtxs ++ updatedCtxs (tickStep cfg st tick).2 ∧
      ∀ ctx recent d, .strategyCall ctx recent d ∈ (tickStep cfg st tick).2 →
        recent = st.recentCtxs := by
  have heval : ∀ (st' : MarketState K S P G) (ctx : TickContext K)
      (recent : List (TickContext K)),
      (evaluate cfg st' ctx recent).1.recentCtxs = st'.recentCtxs ∧
        updatedCtxs (evaluate cfg st' ctx recent).2 = [] ∧
        ∀ ctx' recent' d, .strategyCall ctx' recent' d ∈ (evaluate cfg st' ctx recent).2 →
          recent' = recent := by
    intro st' ctx recent
    unfold evaluate
    dsimp only
    split
    · exact ⟨rfl, rfl, by simp +contextual⟩
    split
    · exact ⟨rfl, rfl, by simp +contextual⟩
    split
    · exact ⟨rfl, rfl, by simp +contextual⟩
    · exact ⟨rfl, rfl, by simp +contextual⟩
  unfold tickStep
  dsimp only
  split
  · exact ⟨rfl, by simp⟩
  split
  · exact ⟨rfl, by simp⟩
  split
  · obtain ⟨hrecent, hupdated, hcalls⟩ := heval
      (st.observe (st.indicators.update cfg.lib tick).1 (st.indicators.update cfg.lib tick).2)
      (st.indicators.update cfg.lib tick).1 st.recentCtxs
    refine ⟨?_, fun ctx recent d h => hcalls ctx recent d (by simpa using h)⟩
    rw [hrecent]
    exact congrArg (fun l => st.recentCtxs ++ (st.indicators.update cfg.lib tick).1 :: l)
      hupdated.symm
  split
  · exact ⟨rfl, by simp⟩
  · rename_i risk _
    obtain ⟨hrecent, hupdated, hcalls⟩ := heval
      { st.observe (st.indicators.update cfg.lib tick).1
          (st.indicators.update cfg.lib tick).2 with risk := risk }
      (st.indicators.update cfg.lib tick).1 st.recentCtxs
    refine ⟨?_, fun ctx recent d h => hcalls ctx recent d (by simpa using h)⟩
    rw [hrecent]
    exact congrArg (fun l => st.recentCtxs ++ (st.indicators.update cfg.lib tick).1 :: l)
      hupdated.symm

/-- In a backtest every strategy call gets all ticks of the market before it.
SOURCE: engine/backtest_driver.py:221-229 -/
theorem backtest_recentTicks (cfg : BacktestConfig K S P G) (st : MarketState K S P G)
    (hstart : st.recentCtxs = []) (ticks : List (TickContext K)) (tick : TickContext K)
    (ctx : TickContext K) (recent : List (TickContext K)) (d : Decision P)
    (h : .strategyCall ctx recent d ∈ (marketLoop cfg).emits ((marketLoop cfg).final st ticks)
      tick) : recent = updatedCtxs ((marketLoop cfg).trace st ticks) := by
  have hrun : ((marketLoop cfg).final st ticks).recentCtxs =
      updatedCtxs ((marketLoop cfg).trace st ticks) := by
    clear h
    induction ticks using List.reverseRecOn with
    | nil => exact hstart
    | append_singleton ticks tick ih =>
      rw [Machine.final_concat, Machine.trace_concat]
      change (tickStep cfg _ tick).1.recentCtxs = _
      rw [(tickStep_recentTicks cfg _ tick).1, ih]
      exact List.filterMap_append.symm
  rw [← hrun]
  exact (tickStep_recentTicks cfg _ tick).2 ctx recent d h

omit [FloorRing K] in
/-- The paper driver keeps the last 140 ticks of a market and hands the strategy the last 120
before the current one.
SOURCE: paper/driver.py:314-325 -/
theorem observeTick_recentTicks (env : DriverEnv K S P) (st : DriverState K S)
    (d : TickDict K) (history : List (TickContext K))
    (hbuf : (st.recentTicks.get? d.marketSlug).getD [] = history.rtake 140) :
    (observeTick env st d).recentTicks = history.rtake 120 ∧
      ((observeTick env st d).driver.recentTicks.get? d.marketSlug).getD [] =
        (history ++ [(observeTick env st d).ctx]).rtake 140 := by
  have hview : (observeTick env st d).recentTicks =
      ((st.recentTicks.get? d.marketSlug).getD []).rtake 120 := by
    simp only [observeTick]
  have hset : (observeTick env st d).driver.recentTicks = st.recentTicks.set d.marketSlug
      (if 140 < (((st.recentTicks.get? d.marketSlug).getD []) ++
          [(observeTick env st d).ctx]).length then
        (((st.recentTicks.get? d.marketSlug).getD []) ++ [(observeTick env st d).ctx]).drop 1
      else ((st.recentTicks.get? d.marketSlug).getD []) ++ [(observeTick env st d).ctx]) := by
    unfold observeTick
    rfl
  constructor
  · rw [hview, hbuf, rtake_rtake history (show 120 ≤ 140 by norm_num)]
  · rw [hset, Dict.get?_set_self, Option.getD_some, hbuf, buffer_append]

end Drivers

/-! ## Replays with a view of the history -/

section Replay

variable {K R : Type} [Field K] [LinearOrder K] [FloorRing K]

/-- What a strategy instance has seen of a market. -/
structure ReplayState (K R : Type) where
  strategy : TrendState R
  history : List (TickContext K)

/-- The strategy over the ticks of one market: the ticks inside the entry window are decided
on `view` of the ticks before them.  The events are the decisions. -/
def replay (lib : MathLib K) (choice : ReturnSampler K R) (cfg : TrendConfirmConfig K)
    (window : EntryWindowConfig) (view : List (TickContext K) → List (TickContext K)) :
    Machine (ReplayState K R) (TickContext K) (Action × Side) where
  step s ctx :=
    let history := s.history ++ [ctx]
    if window.Contains ctx then
      let (d, strategy) := trendShouldEnter lib choice cfg s.strategy ctx (view s.history)
      (⟨strategy, history⟩, [(d.action, d.side)])
    else (⟨s.strategy, history⟩, [])

/-- The history a backtest supplies: all of it. -/
def backtestView (history : List (TickContext K)) : List (TickContext K) := history

/-- The history the paper driver supplies. -/
def paperView (history : List (TickContext K)) : List (TickContext K) := history.rtake 120

/-- Tick by tick, the replays with either view make the same decisions. -/
def DecisionsAgree (lib : MathLib K) (choice : ReturnSampler K R) (cfg : TrendConfirmConfig K)
    (window : EntryWindowConfig) (s : ReplayState K R) (ticks : List (TickContext K)) : Prop :=
  (replay lib choice cfg window backtestView).emissions s ticks =
    (replay lib choice cfg window paperView).emissions s ticks

/-! ## The filters that read the history -/

/-- How many of the five filters that read the history confirm on `history`. -/
def historyScore (lib : MathLib K) (cfg : TrendConfirmConfig K) (side : Side)
    (ctx : TickContext K) (history : List (TickContext K)) : ℕ :=
  let f := trendFilters lib cfg side ctx history
  [f.fracdiff, f.autocorr, f.cusum, f.candle, f.priorTrend].countP id

/-- The microprice is on the side of the move, a filter of the tick alone. -/
def MicropriceConfirms (ctx : TickContext K) (side : Side) : Prop :=
  decide (1 / 2 < microprice ctx.pmYesBid ctx.pmYesAsk ctx.pmDepthYes ctx.pmDepthNo) =
    wantPositive side

instance (ctx : TickContext K) (side : Side) : Decidable (MicropriceConfirms ctx side) :=
  inferInstanceAs (Decidable (_ = _))

/-- How many confirmations the history has to give. -/
def stillRequired (cfg : TrendConfirmConfig K) (ctx : TickContext K) (side : Side) : ℤ :=
  requiredConfirmations cfg (favAskOf ctx side) - if MicropriceConfirms ctx side then 1 else 0

/-- The ticks older than the last 120 do not tip the scales: if the tick goes on to the
filters, the history gives the confirmations still required with them exactly when it does
without them. -/
def OlderTicksDontTip (lib : MathLib K) (cfg : TrendConfirmConfig K) (s : ReplayState K R)
    (ctx : TickContext K) : Prop :=
  ∀ side, trendGate cfg s.strategy.perWindowEntered ctx = .ok side →
    (stillRequired cfg ctx side ≤ historyScore lib cfg side ctx s.history ↔
      stillRequired cfg ctx side ≤ historyScore lib cfg side ctx (s.history.rtake 120))

omit [FloorRing K] in
/-- The confirmations are those of the history and that of the microprice. -/
theorem confirmations_eq (lib : MathLib K) (cfg : TrendConfirmConfig K) (side : Side)
    (ctx : TickContext K) (history : List (TickContext K)) :
    (trendFilters lib cfg side ctx history).confirmations =
      historyScore lib cfg side ctx history + if MicropriceConfirms ctx side then 1 else 0 := by
  have hmicro : (trendFilters lib cfg side ctx history).microprice =
      decide (MicropriceConfirms ctx side) := rfl
  unfold TrendFilters.confirmations TrendFilters.named historyScore
  rw [hmicro]
  simp only [List.countP_cons, List.countP_nil, decide_eq_true_eq, id]
  omega

/-- Without the Monte Carlo vote the history decides. -/
theorem trendConfirmed_iff (lib : MathLib K) (choice : ReturnSampler K R)
    (cfg : TrendConfirmConfig K) (hmc : cfg.mcEnabled = false) (rng : R) (side : Side)
    (ctx : TickContext K) (history : List (TickContext K)) :
    TrendConfirmed lib choice cfg rng side ctx history ↔
      stillRequired cfg ctx side ≤ historyScore lib cfg side ctx history := by
  have hvote : ∀ mc, (trendVote cfg (trendFilters lib cfg side ctx history) mc).confirmations =
      (trendFilters lib cfg side ctx history).confirmations := by
    intro mc
    simp [trendVote, hmc]
  unfold TrendConfirmed stillRequired
  rw [hvote, confirmations_eq, sub_le_iff_le_add]
  split <;> simp

end Replay

/-! ## What the older ticks can change -/

section Lookbacks

variable {K R : Type} [Field K] [LinearOrder K]

/-- The lookbacks of a tick end within the ticks `recent` right before it: those before them
are out of the window of the candle and of the trend, and `recent` has enough prices for the
fractional difference and the CUSUM filter. -/
structure LookbacksInside (lib : MathLib K) (cfg : TrendConfirmConfig K) (ctx : TickContext K)
    (older recent : List (TickContext K)) : Prop where
  candle : ∀ t ∈ older, cfg.recentWindowS < ctx.ts - t.ts
  prior : ∀ t ∈ older, t.ts < ctx.ts - cfg.priorTrendWindowS
  prices : 3 ≤ (spotSeries ctx recent).length
  fracSize : cfg.afml.fracSize ≤ (spotSeries ctx recent).length
  cusumPos : 0 < cfg.afml.cusumLookback
  cusumLookback : cfg.afml.cusumLookback ≤ ((logReturns lib (spotSeries ctx recent)).length : ℤ)

/-- **What is unbounded.** Ticks before all lookbacks can only change the score through the
autocorrelation.
SOURCE: engine/afml_features.py:112-133 -/
theorem historyScore_append (lib : MathLib K) (cfg : TrendConfirmConfig K) (side : Side)
    (ctx : TickContext K) (older recent : List (TickContext K))
    (h : LookbacksInside lib cfg ctx older recent)
    (hautocorr : (trendFilters lib cfg side ctx (older ++ recent)).autocorr =
      (trendFilters lib cfg side ctx recent).autocorr) :
    historyScore lib cfg side ctx (older ++ recent) = historyScore lib cfg side ctx recent := by
  have hspots : spotSeries ctx (older ++ recent) =
      (older.map (·.spotPrice)).filter (0 < ·) ++ spotSeries ctx recent := by
    simp [spotSeries]
  have hfracdiff : (trendFilters lib cfg side ctx (older ++ recent)).fracdiff =
      (trendFilters lib cfg side ctx recent).fracdiff := by
    change (fun x : K => decide (decide (0 < x) = wantPositive side))
      (fracDiffSeries (spotSeries ctx (older ++ recent)) cfg.afml.fracD cfg.afml.fracSize) = _
    rw [hspots, fracDiffSeries_append _ _ _ _ h.fracSize]
    rfl
  have hcusum : (trendFilters lib cfg side ctx (older ++ recent)).cusum =
      (trendFilters lib cfg side ctx recent).cusum := by
    change (fun x : K => decide (cfg.cusumMinRate < x))
      (cusumEventRate lib cfg.afml (spotSeries ctx (older ++ recent))) = _
    rw [hspots, cusumEventRate_append lib _ _ _ h.cusumPos h.prices h.cusumLookback]
    rfl
  have hcandle : (trendFilters lib cfg side ctx (older ++ recent)).candle =
      (trendFilters lib cfg side ctx recent).candle := by
    have hnone : (older.filter fun t =>
        0 < t.spotPrice ∧ ctx.ts - t.ts ≤ cfg.recentWindowS) = [] := by
      rw [List.filter_eq_nil_iff]
      intro t ht
      simp [(h.candle t ht).not_ge]
    simp only [trendFilters, recentSpots]
    rw [List.filter_append, hnone, List.nil_append]
  have hprior : (trendFilters lib cfg side ctx (older ++ recent)).priorTrend =
      (trendFilters lib cfg side ctx recent).priorTrend := by
    have hnone : (older.filter fun t =>
        ctx.ts - cfg.priorTrendWindowS ≤ t.ts ∧ 0 < t.spotPrice) = [] := by
      rw [List.filter_eq_nil_iff]
      intro t ht
      simp [(h.prior t ht).not_ge]
    simp only [trendFilters, priorTrendConfirms]
    rw [List.filter_append, hnone, List.nil_append]
  unfold historyScore
  dsimp only
  rw [hfracdiff, hautocorr, hcusum, hcandle, hprior]

/-- Where the lookbacks end within the last 120 ticks and those show the sign of the
autocorrelation, the older ticks do not tip the scales. -/
theorem olderTicksDontTip_of_lookbacks (lib : MathLib K) (cfg : TrendConfirmConfig K)
    (s : ReplayState K R) (ctx : TickContext K)
    (h : LookbacksInside lib cfg ctx (s.history.rdrop 120) (s.history.rtake 120))
    (hautocorr : ∀ side, (trendFilters lib cfg side ctx s.history).autocorr =
      (trendFilters lib cfg side ctx (s.history.rtake 120)).autocorr) :
    OlderTicksDontTip lib cfg s ctx := by
  intro side _
  have hsplit := rdrop_append_rtake s.history 120
  have hscore := historyScore_append lib cfg side ctx _ _ h
    (by rw [hsplit]; exact hautocorr side)
  rw [hsplit] at hscore
  rw [hscore]

end Lookbacks

/-! ## When the decisions agree -/

section Agreement

variable {K R : Type} [Field K] [LinearOrder K] [FloorRing K]
  (lib : MathLib K) (choice : ReturnSampler K R) (cfg : TrendConfirmConfig K)
  (window : EntryWindowConfig)

/-- Without the Monte Carlo vote the strategy draws nothing. -/
theorem trendShouldEnter_rng (hmc : cfg.mcEnabled = false) (st : TrendState R)
    (ctx : TickContext K) (history : List (TickContext K)) :
    (trendShouldEnter lib choice cfg st ctx history).2.rng = st.rng := by
  have hdraw : (mcConfirms lib choice cfg st.rng = fun _ _ _ => (false, st.rng)) := by
    funext want ctx history
    simp [mcConfirms, hmc]
  unfold trendShouldEnter
  split
  · rfl
  · simp only [hdraw]
    split <;> rfl

/-- On two histories the strategy decides the same exactly when neither tips the scales
against the other, and it then ends in the same state. -/
theorem trendShouldEnter_agree (hmc : cfg.mcEnabled = false) (st : TrendState R)
    (ctx : TickContext K) (history history' : List (TickContext K)) :
    let d := trendShouldEnter lib choice cfg st ctx history
    let d' := trendShouldEnter lib choice cfg st ctx history'
    ((d.1.action, d.1.side) = (d'.1.action, d'.1.side) ↔
        ∀ side, trendGate cfg st.perWindowEntered ctx = .ok side →
          (stillRequired cfg ctx side ≤ historyScore lib cfg side ctx history ↔
            stillRequired cfg ctx side ≤ historyScore lib cfg side ctx history')) ∧
      ((d.1.action, d.1.side) = (d'.1.action, d'.1.side) → d.2 = d'.2) := by
  dsimp only
  have hstate : ∀ a b : TrendState R, a.perWindowEntered = b.perWindowEntered →
      a.rng = b.rng → a = b := by
    rintro ⟨_, _⟩ ⟨_, _⟩ rfl rfl
    rfl
  have hrng := (trendShouldEnter_rng lib choice cfg hmc st ctx history).trans
    (trendShouldEnter_rng lib choice cfg hmc st ctx history').symm
  rcases trendShouldEnter_cases lib choice cfg st ctx history with
    ⟨reason, hgate, h⟩ | ⟨side, hgate, h⟩
  · rcases trendShouldEnter_cases lib choice cfg st ctx history' with
      ⟨reason', hgate', h'⟩ | ⟨side, hgate', -⟩
    · rw [hgate] at hgate'
      cases hgate'
      rw [h, h', hgate]
      simp
    · rw [hgate] at hgate'
      cases hgate'
  · rcases trendShouldEnter_cases lib choice cfg st ctx history' with
      ⟨reason, hgate', -⟩ | ⟨side', hgate', h'⟩
    · rw [hgate] at hgate'
      cases hgate'
    rw [hgate] at hgate'
    cases hgate'
    simp only [hgate, Except.ok.injEq, forall_eq']
    rw [← trendConfirmed_iff lib choice cfg hmc st.rng side ctx history,
      ← trendConfirmed_iff lib choice cfg hmc st.rng side ctx history']
    rcases h with ⟨hconf, hact, hside, hent⟩ | ⟨hconf, hact, hside, hent⟩ <;>
      rcases h' with ⟨hconf', hact', hside', hent'⟩ | ⟨hconf', hact', hside', hent'⟩
    · simp [hconf, hconf', hact, hact', hside, hside', hstate _ _ (hent.trans hent'.symm) hrng]
    · simp [hconf, hconf', hact, hact']
    · simp [hconf, hconf', hact, hact']
    · simp [hconf, hconf', hact, hact', hside, hside', hstate _ _ (hent.trans hent'.symm) hrng]

/-- One tick: both views decide the same exactly when the older ticks do not tip the scales,
and then both replays go on from the same state. -/
theorem replay_step_agree (hmc : cfg.mcEnabled = false) (s : ReplayState K R)
    (ctx : TickContext K) :
    ((replay lib choice cfg window backtestView).emits s ctx =
        (replay lib choice cfg window paperView).emits s ctx ↔
      (window.Contains ctx → OlderTicksDontTip lib cfg s ctx)) ∧
    ((replay lib choice cfg window backtestView).emits s ctx =
        (replay lib choice cfg window paperView).emits s ctx →
      (replay lib choice cfg window backtestView).next s ctx =
        (replay lib choice cfg window paperView).next s ctx) := by
  obtain ⟨hdec, hnext⟩ := trendShouldEnter_agree lib choice cfg hmc s.strategy ctx s.history
    (paperView s.history)
  unfold Machine.emits Machine.next replay backtestView
  dsimp only
  by_cases hwindow : window.Contains ctx
  · simp only [hwindow, if_true, List.cons.injEq, and_true, true_imp_iff]
    exact ⟨hdec, fun h => by rw [hnext h]⟩
  · simp [hwindow]

omit [FloorRing K] in
/-- Up to 120 ticks there are no older ones. -/
theorem olderTicksDontTip_of_length (s : ReplayState K R) (ctx : TickContext K)
    (h : s.history.length ≤ 120) : OlderTicksDontTip lib cfg s ctx := by
  intro side _
  rw [rtake_of_length_le s.history h]

/-- A replay remembers every tick. -/
theorem replay_history (view : List (TickContext K) → List (TickContext K))
    (s : ReplayState K R) (ticks : List (TickContext K)) :
    ((replay lib choice cfg window view).final s ticks).history = s.history ++ ticks := by
  induction ticks generalizing s with
  | nil => simp
  | cons ctx ticks ih =>
    have hnext : ((replay lib choice cfg window view).next s ctx).history =
        s.history ++ [ctx] := by
      unfold Machine.next replay
      dsimp only
      split <;> rfl
    rw [Machine.final_cons, ih, hnext, List.append_assoc, List.singleton_append]

/-- **When backtest and paper decide the same.** Without the Monte Carlo vote, the decisions
on all earlier ticks and on the last 120 agree at every tick exactly when, at every tick that
comes to the filters, the older ticks do not tip the scales.
SOURCE: strategies/polymarket_btc5m/trend_confirm_t1_v1.py:194-374,
engine/backtest_driver.py:215-229, paper/driver.py:314-327 -/
theorem decision_parity_iff (hmc : cfg.mcEnabled = false) (rng : R)
    (ticks : List (TickContext K)) :
    DecisionsAgree lib choice cfg window ⟨⟨∅, rng⟩, []⟩ ticks ↔
      (replay lib choice cfg window backtestView).Along
        (fun s ctx => window.Contains ctx → OlderTicksDontTip lib cfg s ctx)
        ⟨⟨∅, rng⟩, []⟩ ticks := by
  refine Machine.emissions_eq_iff _ _ Eq _ ?_ ?_ _ _ rfl ticks
  · rintro s _ ctx rfl
    exact (replay_step_agree lib choice cfg window hmc s ctx).1
  · rintro s _ ctx rfl
    exact (replay_step_agree lib choice cfg window hmc s ctx).2

end Agreement

noncomputable section Instance

/-- The functions of Python's `math` on the reals. -/
def realMath : MathLib ℝ where
  log := Real.log
  exp := Real.exp
  sqrt := Real.sqrt
  erf x := 2 / Real.sqrt Real.pi * ∫ t in (0 : ℝ)..x, Real.exp (-t ^ 2)

/-- Two rises of a tenth of a percent, then nothing. -/
def flatAfterTwo : ℕ → ℝ
  | 0 => 64000
  | 1 => 64064
  | _ => 64128064 / 1000

/-- The tick of a second of the window. -/
def tickAt (i : ℕ) : TickContext ℝ :=
  tickFromDict {
    ts := 1200 + i
    windowCloseTs := 1500
    marketSlug := "btc-updown-5m-1500"
    tInWindow := some i
    spotPrice := some (flatAfterTwo i)
    openPrice := some 64000
    pmYesBid := some (54 / 100)
    pmYesAsk := some (56 / 100)
    pmNoBid := some (44 / 100)
    pmNoAsk := some (46 / 100)
    pmDepthYes := some 10
    pmDepthNo := some 10 }

/-- The defaults, with the Monte Carlo vote off. -/
def quietTrend : TrendConfirmConfig ℝ := { TrendConfirmConfig.default with mcEnabled := false }

def noDraws : ReturnSampler ℝ Unit := fun rng _ _ _ => ([], rng)

/-- The price of a tick. -/
@[simp] theorem tickAt_spotPrice (i : ℕ) : (tickAt i).spotPrice = flatAfterTwo i := rfl

/-- The second of a tick. -/
@[simp] theorem tickAt_tInWindow (i : ℕ) : (tickAt i).tInWindow = i := rfl

/-- The price is flat from the third second on. -/
theorem flatAfterTwo_of_le {i : ℕ} (h : 2 ≤ i) : flatAfterTwo i = 64128064 / 1000 := by
  match i, h with
  | i + 2, _ => rfl

/-- From the third tick on the price stands still. -/
theorem spots_flat (s n : ℕ) (hs : 2 ≤ s) :
    (((List.range' s n).map tickAt).map (·.spotPrice)) =
      List.replicate n (64128064 / 1000) := by
  rw [List.map_map, List.eq_replicate_iff]
  refine ⟨by simp, fun x hx => ?_⟩
  obtain ⟨i, hi, rfl⟩ := List.mem_map.mp hx
  exact flatAfterTwo_of_le (hs.trans (List.mem_range'_1.mp hi).1)

/-- A series from the third second on is flat. -/
theorem spotSeries_flat (s n : ℕ) (hs : 2 ≤ s) :
    spotSeries (tickAt 238) ((List.range' s n).map tickAt) =
      List.replicate (n + 1) (64128064 / 1000) := by
  unfold spotSeries
  rw [spots_flat s n hs, tickAt_spotPrice, flatAfterTwo_of_le (by norm_num),
    List.replicate_succ', List.filter_eq_self.mpr]
  intro x hx
  rw [List.eq_of_mem_replicate hx]
  norm_num

/-- The series of the whole window starts with the two other prices. -/
theorem spotSeries_all :
    spotSeries (tickAt 238) ((List.range 238).map tickAt) =
      64000 :: 64064 :: List.replicate 237 (64128064 / 1000) := by
  have hrange : List.range 238 = 0 :: 1 :: List.range' 2 236 := by
    rw [List.range_eq_range']
    rfl
  have h := spotSeries_flat 2 236 le_rfl
  unfold spotSeries at h ⊢
  rw [hrange, List.map_cons, List.map_cons, List.map_cons, List.map_cons,
    List.filter_cons_of_pos (by simp [flatAfterTwo]),
    List.filter_cons_of_pos (by simp [flatAfterTwo]), List.cons_append, List.cons_append, h]
  rfl

/-- At 238 s every gate lets the rise pass. -/
theorem trendGate_tickAt (entered : Finset String) (h : "btc-updown-5m-1500" ∉ entered) :
    trendGate quietTrend entered (tickAt 238) = .ok .yesUp := by
  rw [trendGate_eq_ok_iff]
  refine ⟨?_, h, ?_, ?_, ?_⟩
  · simp only [TrendConfirmConfig.IsHorizon, quietTrend, TrendConfirmConfig.default,
      tickAt_tInWindow]
    norm_num
  · refine if_pos ?_
    change (3 : ℝ) < deltaBps (64128064 / 1000) 64000
    norm_num [deltaBps]
  · exact if_neg fun hpos => lt_irrefl (0 : ℝ) hpos.1
  · have hask : favAskOf (tickAt 238) .yesUp = 56 / 100 := rfl
    unfold priceGate
    rw [hask]
    norm_num [quietTrend, TrendConfirmConfig.default]

/-- Before that no tick is at the horizon. -/
theorem trendGate_tickAt_early (entered : Finset String) (i : ℕ) (hi : i < 238) :
    ∃ reason, trendGate quietTrend entered (tickAt i) = .error reason := by
  refine ⟨_, if_pos ?_⟩
  have hle : (i : ℝ) ≤ 237 := by exact_mod_cast Nat.le_of_lt_succ hi
  simp only [TrendConfirmConfig.IsHorizon, quietTrend, TrendConfirmConfig.default,
    tickAt_tInWindow, not_le]
  rw [abs_sub_comm]
  exact lt_of_lt_of_le (by push_cast; linarith) (le_abs_self _)

/-- The microprice confirms, so two of the history's filters have to. -/
theorem stillRequired_tickAt : stillRequired quietTrend (tickAt 238) .yesUp = 2 := by
  have hask : favAskOf (tickAt 238) .yesUp = 56 / 100 := rfl
  have hmicro : MicropriceConfirms (tickAt 238) .yesUp := by
    change decide ((1 / 2 : ℝ) < microprice (54 / 100) (56 / 100) 10 10) = true
    norm_num [microprice]
  have hrequired : requiredConfirmations quietTrend (56 / 100) = 3 :=
    if_neg (by norm_num [quietTrend, TrendConfirmConfig.default])
  rw [stillRequired, hask, hrequired, if_pos hmicro]
  rfl

/-- A candle of equal prices does not point up. -/
theorem candleConfirms_flat (cfg : TrendConfirmConfig ℝ) (c : ℝ) (l : List ℝ)
    (h : ∀ x ∈ l, x = c) : candleConfirms cfg true l = false := by
  match l with
  | [] | [_] => rfl
  | openP :: second :: rest =>
    have hopen : openP = c := h _ (by simp)
    have hclose := h _ (List.mem_cons_of_mem _ (List.getLast_mem (List.cons_ne_nil second rest)))
    simp only [candleConfirms]
    rw [hclose, hopen]
    simp

/-- The autocorrelation at lag one is the first of the default lags. -/
theorem lookup_autocorr (prices : List ℝ) (h : 32 ≤ prices.length) :
    ((returnsAutocorrMulti realMath prices [1, 5, 15, 30]).lookup 1).getD 0 =
      autocorr realMath (logReturns realMath prices) 1 := by
  unfold returnsAutocorrMulti
  rw [if_neg]
  · rfl
  · simp
    omega

/-- On the last 120 ticks at most the fractional difference confirms. -/
theorem historyScore_recent :
    historyScore realMath quietTrend .yesUp (tickAt 238) ((List.range' 118 120).map tickAt) ≤
      1 := by
  have hspots := spotSeries_flat 118 120 (by norm_num)
  have hreturns : logReturns realMath (List.replicate (120 + 1) (64128064 / 1000)) =
      List.replicate 120 0 := logReturns_replicate realMath (by norm_num) 120
  generalize hf : trendFilters realMath quietTrend .yesUp (tickAt 238)
    ((List.range' 118 120).map tickAt) = f
  have hautocorr : f.autocorr = false := by
    rw [← hf]
    simp only [trendFilters, computeAfmlFeatures, hspots]
    change decide (0 < ((returnsAutocorrMulti realMath _ [1, 5, 15, 30]).lookup 1).getD 0) = _
    rw [lookup_autocorr _ (by simp), hreturns,
      autocorr_replicate_zero realMath Real.sqrt_zero 120]
    simp
  have hcusum : f.cusum = false := by
    rw [← hf]
    simp only [trendFilters, computeAfmlFeatures, hspots]
    change decide ((5 / 1000 : ℝ) < cusumEventRate realMath AfmlParams.default _) = _
    rw [cusumEventRate_replicate realMath AfmlParams.default _ (by norm_num) 120]
    · norm_num
    · norm_num [AfmlParams.default]
  have hcandle : f.candle = false := by
    rw [← hf]
    refine candleConfirms_flat _ (64128064 / 1000) _ fun x hx => ?_
    rcases List.mem_append.mp hx with hx | hx
    · have hmem := (List.filter_sublist.map _).subset hx
      rw [spots_flat 118 120 (by norm_num)] at hmem
      exact List.eq_of_mem_replicate hmem
    · exact List.mem_singleton.mp hx
  have hprior : f.priorTrend = false := by
    rw [← hf]
    simp only [trendFilters, priorTrendConfirms]
    rw [if_neg]
    simp [quietTrend, TrendConfirmConfig.default]
  unfold historyScore
  rw [hf]
  simp only [hautocorr, hcusum, hcandle, hprior]
  cases f.fracdiff <;> decide

/-- On all of them the autocorrelation confirms as well. -/
theorem historyScore_all :
    2 ≤ historyScore realMath quietTrend .yesUp (tickAt 238) ((List.range 238).map tickAt) := by
  generalize hf : trendFilters realMath quietTrend .yesUp (tickAt 238)
    ((List.range 238).map tickAt) = f
  have hlength : 32 ≤ (64000 :: 64064 :: List.replicate 237 (64128064 / 1000) : List ℝ).length := by
    rw [List.length_cons, List.length_cons, List.length_replicate]
    norm_num
  have hrise : 0 < Real.log 64064 - Real.log 64000 :=
    sub_pos.mpr (Real.log_lt_log (by norm_num) (by norm_num))
  have hsame : Real.log (64128064 / 1000) - Real.log 64064 =
      Real.log 64064 - Real.log 64000 := by
    rw [← Real.log_div (by norm_num) (by norm_num), ← Real.log_div (by norm_num) (by norm_num)]
    norm_num
  have hreturns : logReturns realMath (64000 :: 64064 :: List.replicate 237 (64128064 / 1000)) =
      (Real.log 64064 - Real.log 64000) :: (Real.log 64064 - Real.log 64000) ::
        List.replicate 236 0 := by
    have hflat := logReturns_replicate realMath (c := 64128064 / 1000) (by norm_num) 236
    rw [List.replicate_succ] at hflat ⊢
    rw [logReturns, logReturns, hflat, if_pos (by norm_num), if_pos (by norm_num)]
    change _ :: (Real.log (64128064 / 1000) - Real.log 64064) :: _ = _
    rw [hsame]
    rfl
  have hfracdiff : f.fracdiff = true := by
    rw [← hf]
    have hsplit : (64000 :: 64064 :: List.replicate 237 (64128064 / 1000) : List ℝ) =
        (64000 :: 64064 :: List.replicate 177 (64128064 / 1000)) ++
          List.replicate (59 + 1) (64128064 / 1000) := by
      rw [List.cons_append, List.cons_append, List.replicate_append_replicate]
    simp only [trendFilters, computeAfmlFeatures, spotSeries_all, hsplit]
    have hpos : 0 < fracDiffSeries ((64000 :: 64064 :: List.replicate 177 (64128064 / 1000)) ++
        List.replicate (59 + 1) (64128064 / 1000)) quietTrend.afml.fracD
          quietTrend.afml.fracSize :=
      fracDiffSeries_pos (by norm_num [quietTrend, TrendConfirmConfig.default,
        AfmlParams.default]) (by norm_num) _ 59
    simp only [hpos]
    rfl
  have hautocorr : f.autocorr = true := by
    rw [← hf]
    simp only [trendFilters, computeAfmlFeatures, spotSeries_all]
    change decide (0 < ((returnsAutocorrMulti realMath _ [1, 5, 15, 30]).lookup 1).getD 0) = _
    rw [lookup_autocorr _ hlength, hreturns]
    exact decide_eq_true (autocorr_two_moves_pos realMath (fun x hx => Real.sqrt_pos.mpr hx)
      hrise 234)
  unfold historyScore
  rw [hf]
  simp only [hfracdiff, hautocorr]
  simp [List.countP_cons]

/-- Until the horizon a replay only collects the history. -/
theorem final_early (view : List (TickContext ℝ) → List (TickContext ℝ)) (n : ℕ)
    (hn : n ≤ 238) :
    (replay realMath noDraws quietTrend ⟨120, 240⟩ view).final ⟨⟨∅, ()⟩, []⟩
        ((List.range n).map tickAt) = ⟨⟨∅, ()⟩, (List.range n).map tickAt⟩ := by
  induction n with
  | zero => rfl
  | succ n ih =>
    rw [List.range_succ, List.map_append, List.map_singleton, Machine.final_concat,
      ih (by omega)]
    obtain ⟨reason, hgate⟩ := trendGate_tickAt_early ∅ n (by omega)
    have hskip : ∀ history, (trendShouldEnter realMath noDraws quietTrend ⟨∅, ()⟩ (tickAt n)
        history).2 = ⟨∅, ()⟩ := by
      intro history
      unfold trendShouldEnter
      rw [hgate]
    unfold Machine.next replay
    dsimp only
    split
    · rw [hskip]
    · rfl

/-- In a market recorded from 118 s on, no tick before the horizon is older than the last 120
of them, and both decide the same. -/
theorem decisions_agree_from_118 :
    DecisionsAgree realMath noDraws quietTrend ⟨120, 240⟩ ⟨⟨∅, ()⟩, []⟩
      ((List.range' 118 121).map tickAt) := by
  refine (decision_parity_iff realMath noDraws quietTrend ⟨120, 240⟩ rfl () _).mpr ?_
  intro pre ctx post heq _
  refine olderTicksDontTip_of_length realMath quietTrend _ ctx ?_
  have hlength := congrArg List.length heq
  rw [List.length_map, List.length_range', List.length_append, List.length_cons] at hlength
  rw [replay_history, List.nil_append]
  omega

/-- On a day with two rises at the start of the window and a flat price after them, the
backtest enters at 238 s and the paper driver does not: only on the full history are the
returns autocorrelated.
SOURCE: engine/afml_features.py:112-133 -/
theorem decisions_differ_at_horizon :
    ¬DecisionsAgree realMath noDraws quietTrend ⟨120, 240⟩ ⟨⟨∅, ()⟩, []⟩
      ((List.range 239).map tickAt) := by
  intro h
  have hlast : (replay realMath noDraws quietTrend ⟨120, 240⟩ backtestView).emits
      ⟨⟨∅, ()⟩, (List.range 238).map tickAt⟩ (tickAt 238) =
      (replay realMath noDraws quietTrend ⟨120, 240⟩ paperView).emits
      ⟨⟨∅, ()⟩, (List.range 238).map tickAt⟩ (tickAt 238) := by
    unfold DecisionsAgree at h
    rw [List.range_succ, List.map_append, List.map_singleton, Machine.emissions_append,
      Machine.emissions_append, final_early _ 238 le_rfl, final_early _ 238 le_rfl] at h
    have hsingle := List.append_inj_right' h (by simp [Machine.emissions])
    exact List.singleton_injective hsingle
  have hwindow : (⟨120, 240⟩ : EntryWindowConfig).Contains (tickAt 238) := by
    simp only [EntryWindowConfig.Contains, tickAt_tInWindow]
    norm_num
  have hview : ((List.range 238).map tickAt).rtake 120 = (List.range' 118 120).map tickAt := by
    rw [List.rtake, ← List.map_drop, List.length_map, List.length_range, List.range_eq_range',
      List.drop_range']
  have htip := (replay_step_agree realMath noDraws quietTrend ⟨120, 240⟩ rfl _ _).1.mp hlast
    hwindow .yesUp (trendGate_tickAt ∅ (Finset.notMem_empty _))
  rw [stillRequired_tickAt, hview] at htip
  have hall : (2 : ℤ) ≤ historyScore realMath quietTrend .yesUp (tickAt 238)
      ((List.range 238).map tickAt) := by exact_mod_cast historyScore_all
  have hrecent := htip.mp hall
  have hle := historyScore_recent
  omega

end Instance

end TradingEdge.Analysis
