import TradingEdge.Program.BacktestDriver
import TradingEdge.Program.FillModel
import TradingEdge.Program.TickMessage

/-!
# Two fill rules

The backtest and the paper engine fill an entry by different rules.  Both start from the
ask of the chosen side and cap the price at 0.99, but the backtest takes its slippage on
the mid of the book and accepts any positive price, while the paper fill takes it on the
ask and refuses an ask outside (0, 1).  Inside (0, 1) both fill; they agree on price and
slippage exactly when the book has no spread or there is no slippage.
-/

set_option autoImplicit false

namespace TradingEdge.Analysis

open TradingEdge.Model TradingEdge.Program TradingEdge.Library

variable {K S P G : Type} [Field K] [LinearOrder K] [FloorRing K]

/-- The bid of the token a side buys. -/
def bidOf (side : Side) (ctx : TickContext K) : K :=
  if side = .yesUp then ctx.pmYesBid else ctx.pmNoBid

/-- The backtest opens a position exactly when the paper fill goes through, at the same
price and slippage. -/
def FillsAgree (position : Option (BacktestPosition K P)) (paper : FillResult K) : Prop :=
  position.map (fun p => (p.entryPrice, p.slippage)) =
    if paper.filled then some (paper.entryPrice, paper.slippage) else none

/-- The tick loop reaches the fill: no position yet, inside the entry window, past the risk
gate, a decision to enter, and a draw that passes.
SOURCE: engine/backtest_driver.py:230-262 -/
structure FillReached (cfg : BacktestConfig K S P G) (st : MarketState K S P G)
    (tick : TickContext K) (d : Decision P) : Prop where
  noPosition : st.position = none
  inWindow : cfg.entryWindow.Contains (st.indicators.update cfg.lib tick).1
  riskPasses : cfg.bypassRisk = true ∨
    (canEnter cfg.riskCfg st.risk (st.indicators.update cfg.lib tick).1).1 = none
  decides : (cfg.strategy.shouldEnter st.strategy (st.indicators.update cfg.lib tick).1
    st.recentCtxs).1 = d
  enters : d.action = .enter
  drawPasses : (cfg.random st.rng).1 ≤ cfg.fillCfg.fillProbability

omit [FloorRing K] in
/-- Evaluation that reaches the fill leaves the position the fill opens. -/
theorem evaluate_position (cfg : BacktestConfig K S P G) (st : MarketState K S P G)
    (ctx : TickContext K) (recent : List (TickContext K)) (d : Decision P)
    (hpos : st.position = none)
    (hd : (cfg.strategy.shouldEnter st.strategy ctx recent).1 = d) (he : d.action = .enter)
    (hdraw : (cfg.random st.rng).1 ≤ cfg.fillCfg.fillProbability) :
    (evaluate cfg st ctx recent).1.position = openPosition cfg.fillCfg ctx d := by
  subst hd
  unfold evaluate
  simp only [he, if_neg hdraw.not_gt]
  cases openPosition cfg.fillCfg ctx (cfg.strategy.shouldEnter st.strategy ctx recent).1 with
  | none => exact hpos
  | some p => rfl

omit [FloorRing K] in
/-- A tick that the strategy skips leaves the position as it is. -/
theorem evaluate_position_of_skip (cfg : BacktestConfig K S P G) (st : MarketState K S P G)
    (ctx : TickContext K) (recent : List (TickContext K))
    (hskip : (cfg.strategy.shouldEnter st.strategy ctx recent).1.action = .skip) :
    (evaluate cfg st ctx recent).1.position = st.position := by
  unfold evaluate
  simp only [hskip]

/-- A tick that reaches the fill leaves the position the fill opens.
SOURCE: engine/backtest_driver.py:213-289 -/
theorem next_position_of_fillReached (cfg : BacktestConfig K S P G)
    (st : MarketState K S P G) (tick : TickContext K) (d : Decision P)
    (h : FillReached cfg st tick d) :
    ((marketLoop cfg).next st tick).position =
      openPosition cfg.fillCfg (st.indicators.update cfg.lib tick).1 d := by
  have hno : ¬(st.observe (st.indicators.update cfg.lib tick).1
      (st.indicators.update cfg.lib tick).2).position.isSome = true := by
    simp [h.noPosition]
  simp only [Machine.next, marketLoop, tickStep]
  rw [if_neg hno, if_neg (not_not_intro h.inWindow)]
  by_cases hb : cfg.bypassRisk = true
  · rw [if_pos hb]
    exact evaluate_position cfg _ _ _ d h.noPosition h.decides h.enters h.drawPasses
  · rw [if_neg hb]
    have hrisk := h.riskPasses.resolve_left hb
    rcases hcan : canEnter cfg.riskCfg st.risk (st.indicators.update cfg.lib tick).1 with
      ⟨reason, risk⟩
    rw [hcan] at hrisk
    obtain rfl : reason = none := hrisk
    have hcan' : canEnter cfg.riskCfg (st.observe (st.indicators.update cfg.lib tick).1
        (st.indicators.update cfg.lib tick).2).risk (st.indicators.update cfg.lib tick).1 =
        (none, risk) := hcan
    rw [hcan']
    exact evaluate_position cfg _ _ _ d h.noPosition h.decides h.enters h.drawPasses

omit [FloorRing K] in
/-- The backtest's slippage is taken on the mid of the chosen side. -/
theorem openPosition_eq (cfg : FillConfig K) (ctx : TickContext K) (d : Decision P) :
    (openPosition cfg ctx d).map (fun p => (p.entryPrice, p.slippage)) =
      let slip := (bidOf d.side ctx + askOf d.side ctx.pmYesAsk ctx.pmNoAsk) / 2 *
        cfg.slippageBps / 10000
      if min (askOf d.side ctx.pmYesAsk ctx.pmNoAsk + slip) (99 / 100) ≤ 0 then none
      else some (min (askOf d.side ctx.pmYesAsk ctx.pmNoAsk + slip) (99 / 100), slip) := by
  unfold openPosition bidOf askOf
  by_cases hs : d.side = .yesUp
  · simp only [hs, if_true]
    split <;> rfl
  · simp only [hs, if_false]
    split <;> rfl

variable [IsStrictOrderedRing K]

/-- With an ask strictly inside (0, 1) the backtest opens a position, at the ask plus
slippage on the mid. -/
theorem openPosition_of_ask_pos (cfg : FillConfig K) (ctx : TickContext K) (d : Decision P)
    (hslip : 0 ≤ cfg.slippageBps) (hbid : 0 ≤ bidOf d.side ctx)
    (hask : 0 < askOf d.side ctx.pmYesAsk ctx.pmNoAsk) :
    (openPosition cfg ctx d).map (fun p => (p.entryPrice, p.slippage)) =
      let slip := (bidOf d.side ctx + askOf d.side ctx.pmYesAsk ctx.pmNoAsk) / 2 *
        cfg.slippageBps / 10000
      some (min (askOf d.side ctx.pmYesAsk ctx.pmNoAsk + slip) (99 / 100), slip) := by
  rw [openPosition_eq]
  have hslip' : 0 ≤ (bidOf d.side ctx + askOf d.side ctx.pmYesAsk ctx.pmNoAsk) / 2 *
      cfg.slippageBps / 10000 := by positivity
  have hpos : 0 < min (askOf d.side ctx.pmYesAsk ctx.pmNoAsk +
      (bidOf d.side ctx + askOf d.side ctx.pmYesAsk ctx.pmNoAsk) / 2 *
        cfg.slippageBps / 10000) (99 / 100 : K) :=
    lt_min (by linarith) (by norm_num)
  simp only [if_neg hpos.not_ge]

omit [FloorRing K] [IsStrictOrderedRing K] in
/-- An empty book opens no position in the backtest.
SOURCE: engine/backtest_driver.py:273-275, paper/driver.py:808-811 -/
theorem openPosition_of_emptyBook (cfg : FillConfig K) (ctx : TickContext K)
    (d : Decision P) (hbid : bidOf d.side ctx = 0)
    (hask : askOf d.side ctx.pmYesAsk ctx.pmNoAsk = 0) :
    openPosition cfg ctx d = none := by
  rw [← Option.map_eq_none_iff (f := fun p => (p.entryPrice, p.slippage)), openPosition_eq]
  simp [hbid, hask]

/-- The two slippages are the same exactly without spread or without slippage. -/
theorem slippage_eq_iff (bid ask bps : K) :
    (bid + ask) / 2 * bps / 10000 = ask * bps / 10000 ↔ bid = ask ∨ bps = 0 := by
  constructor
  · intro h
    have hprod : (bid - ask) * bps = 0 := by
      field_simp at h
      linarith
    rcases mul_eq_zero.mp hprod with h | h
    · exact Or.inl (sub_eq_zero.mp h)
    · exact Or.inr h
  · rintro (rfl | rfl)
    · ring
    · simp

/-- **The two fill rules compared.** At a tick where the backtest reaches its fill and both
draws pass, with the same non-negative slippage setting: an ask strictly inside (0, 1) is
filled by both, the backtest at the ask plus slippage on the mid and paper at the ask plus
slippage on the ask, both capped at 0.99, so that they agree exactly when bid equals ask or
the slippage is zero; an empty book is filled by neither.
SOURCE: engine/backtest_driver.py:261-289, engine/fill_model.py:40-63 -/
theorem backtest_and_paper_fill (cfg : BacktestConfig K S P G) (st : MarketState K S P G)
    (tick : TickContext K) (d : Decision P) (random : String → K) (stakeUsd : K)
    (params : FillParams K) (seedSource : String) (h : FillReached cfg st tick d)
    (hparams : params.slippageBps = cfg.fillCfg.slippageBps)
    (hslip : 0 ≤ cfg.fillCfg.slippageBps)
    (hdraw : random seedSource ≤ params.fillProbability) (hbid : 0 ≤ bidOf d.side tick) :
    let backtest := ((marketLoop cfg).next st tick).position
    let paper := simulateFill random d.side tick.pmYesAsk tick.pmNoAsk stakeUsd params
      seedSource
    let bid := bidOf d.side tick
    let ask := askOf d.side tick.pmYesAsk tick.pmNoAsk
    let s := cfg.fillCfg.slippageBps / 10000
    (0 < ask → ask < 1 →
      backtest.map (fun p => (p.entryPrice, p.slippage)) =
          some (min (ask + (bid + ask) / 2 * s) (99 / 100), (bid + ask) / 2 * s) ∧
        paper.filled = true ∧ paper.entryPrice = min (ask + ask * s) (99 / 100) ∧
        paper.slippage = ask * s ∧
        (FillsAgree backtest paper ↔ bid = ask ∨ cfg.fillCfg.slippageBps = 0)) ∧
      (bid = 0 → ask = 0 → backtest = none ∧ paper.filled = false) := by
  dsimp only
  rw [next_position_of_fillReached cfg st tick d h, simulateFill_eq]
  constructor
  · intro hpos hlt
    have hback := openPosition_of_ask_pos cfg.fillCfg (st.indicators.update cfg.lib tick).1 d
      hslip hbid hpos
    rw [if_pos ⟨hdraw, hpos, hlt⟩]
    refine ⟨by rw [hback]; simp only [mul_div_assoc]; rfl, rfl, ?_, ?_, ?_⟩
    · simp only [fillAt, hparams, mul_div_assoc]
    · simp only [fillAt, hparams, mul_div_assoc]
    · have hiff := slippage_eq_iff (bidOf d.side tick)
        (askOf d.side tick.pmYesAsk tick.pmNoAsk) cfg.fillCfg.slippageBps
      rw [FillsAgree, hback]
      simp only [fillAt, hparams, if_true, Option.some.injEq, Prod.mk.injEq]
      constructor
      · rintro ⟨-, hs⟩
        exact hiff.mp hs
      · intro hcase
        have hs := hiff.mpr hcase
        exact ⟨by rw [← hs]; rfl, hs⟩
  · intro hb ha
    refine ⟨openPosition_of_emptyBook cfg.fillCfg _ d hb ha, ?_⟩
    rw [if_neg fun hc => hc.2.1.ne' ha]
    rfl

section Instance

/-- A run that enters YES_UP at every tick, past every gate, at 100 bps of slippage. -/
def eagerConfig : BacktestConfig ℚ Unit Unit Unit where
  lib := MathLib.rational
  strategy := Strategy.always ⟨.enter, .yesUp, ()⟩
  stakeUsd := 5
  fillCfg := ⟨100, 1, false, 1 / 20⟩
  entryWindow := ⟨0, 300⟩
  riskCfg := RiskConfig.permissive
  indicatorCfg := IndicatorConfig.default
  bypassRisk := true
  random g := (0, g)

/-- Its state before the first tick of a market. -/
def eagerStart : MarketState ℚ Unit Unit Unit :=
  MarketState.start eagerConfig ⟨(), RiskState.init, (), ⟨0, 0, 0, 0⟩, [], 0, 0, 0⟩

/-- A tick that quotes the YES token at 0.40 bid, 0.50 ask. -/
def quotedTick : TickContext ℚ := tickFromDict
  { ts := 1200
    windowCloseTs := 1500
    marketSlug := "btc-updown-5m-1500"
    pmYesBid := some (40 / 100)
    pmYesAsk := some (50 / 100) }

/-- The tick loop reaches its fill on `quotedTick`. -/
theorem quotedTick_reached :
    FillReached eagerConfig eagerStart quotedTick ⟨.enter, .yesUp, ()⟩ where
  noPosition := rfl
  inWindow := by decide +kernel
  riskPasses := Or.inl rfl
  decides := rfl
  enters := rfl
  drawPasses := by decide +kernel

/-- On a book quoted 0.40 to 0.50 at 100 bps, both sides fill, but the backtest pays 0.5045
and paper 0.505: the two fill rules do not agree.
SOURCE: engine/backtest_driver.py:268-272, engine/fill_model.py:60-61 -/
theorem fills_disagree_on_a_spread :
    FillReached eagerConfig eagerStart quotedTick ⟨.enter, .yesUp, ()⟩ ∧
      (0 : ℚ) ≤ quotedTick.pmYesBid ∧ quotedTick.pmYesAsk ≤ 1 ∧
      ¬FillsAgree ((marketLoop eagerConfig).next eagerStart quotedTick).position
        (simulateFill (fun _ => 0) .yesUp quotedTick.pmYesAsk quotedTick.pmNoAsk 5
          ⟨1 / 20, 100, 1⟩ "seed") := by
  refine ⟨quotedTick_reached, by decide +kernel, by decide +kernel, ?_⟩
  unfold FillsAgree
  decide +kernel

/-- The comparison at `quotedTick`. -/
theorem backtest_and_paper_fill_quotedTick :
    ¬FillsAgree ((marketLoop eagerConfig).next eagerStart quotedTick).position
      (simulateFill (fun _ => 0) .yesUp quotedTick.pmYesAsk quotedTick.pmNoAsk 5
        ⟨1 / 20, 100, 1⟩ "seed") := by
  have h := backtest_and_paper_fill eagerConfig eagerStart quotedTick ⟨.enter, .yesUp, ()⟩
    (fun _ => 0) 5 ⟨1 / 20, 100, 1⟩ "seed" quotedTick_reached rfl (by decide +kernel)
    (by decide +kernel) (by decide +kernel)
  have hiff := (h.1 (by decide +kernel) (by decide +kernel)).2.2.2.2
  exact fun hagree => absurd (hiff.mp hagree) (by decide +kernel)

end Instance

end TradingEdge.Analysis
