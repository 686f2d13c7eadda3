import TradingEdge.Analysis.ReplaySteps
import TradingEdge.Program.OracleLag

/-!
# The trades of a bootstrap replicate

The block bootstrap reads a replicate as so many independent draws, each contributing the trade
its market makes.  Both strategies enter a market once and remember the markets they have entered
by slug (`EntersOnce`), for as long as the strategy object lives: over a whole replicate.

With every order filled and the risk manager bypassed, that memory is all that one market leaves
to the next.  `replicate_concatenates_iff` says when the replicate is the concatenation of its
draws.
-/

set_option autoImplicit false

namespace TradingEdge.Analysis

open TradingEdge.Model TradingEdge.Program TradingEdge.Library

/-! ## Strategies that enter a market once -/

/-- A strategy that enters a market once: it skips a market it has entered, and what it does with
another depends on the rest of its state alone.  `fresh` is a new strategy object at the same
point of the random draws, or of the price series, that the old one has come to. -/
structure EntersOnce {K S P : Type} (strategy : Strategy K S P) where
  entered : S → Finset String
  fresh : S → S
  entered_fresh : ∀ s, entered (fresh s) = ∅
  fresh_fresh : ∀ s, fresh (fresh s) = fresh s
  skips : ∀ s ctx recent, ctx.marketSlug ∈ entered s →
    (strategy.shouldEnter s ctx recent).1.action = .skip ∧
      (strategy.shouldEnter s ctx recent).2 = s
  decides : ∀ s ctx recent, ctx.marketSlug ∉ entered s →
    (strategy.shouldEnter s ctx recent).1 = (strategy.shouldEnter (fresh s) ctx recent).1 ∧
      fresh (strategy.shouldEnter s ctx recent).2 =
        fresh (strategy.shouldEnter (fresh s) ctx recent).2
  remembers : ∀ s ctx recent, ctx.marketSlug ∉ entered s →
    ((strategy.shouldEnter s ctx recent).1.action = .enter ∧
        entered (strategy.shouldEnter s ctx recent).2 = insert ctx.marketSlug (entered s)) ∨
      (strategy.shouldEnter s ctx recent).1.action = .skip ∧
        entered (strategy.shouldEnter s ctx recent).2 = entered s

section Strategies

variable {K R : Type} [Field K] [LinearOrder K] [FloorRing K] (lib : MathLib K)

/-- SOURCE: strategies/polymarket_btc5m/trend_confirm_t1_v1.py:79-93, 377 -/
def trendEntersOnce (choice : ReturnSampler K R) (cfg : TrendConfirmConfig K) :
    EntersOnce (trendConfirm lib choice cfg) where
  entered s := s.perWindowEntered
  fresh s := { s with perWindowEntered := ∅ }
  entered_fresh _ := rfl
  fresh_fresh _ := rfl
  skips := by
    intro s ctx recent h
    have hgate : ∃ reason, trendGate cfg s.perWindowEntered ctx = .error reason := by
      unfold trendGate
      rw [if_pos h]
      split
      · exact ⟨_, rfl⟩
      · exact ⟨_, rfl⟩
    obtain ⟨reason, hgate⟩ := hgate
    simp only [trendConfirm, trendShouldEnter, hgate]
    exact ⟨rfl, trivial⟩
  decides := by
    intro s ctx recent h
    have hgate : trendGate cfg s.perWindowEntered ctx = trendGate cfg ∅ ctx := by
      unfold trendGate
      rw [if_neg h, if_neg (Finset.notMem_empty _)]
    simp only [trendConfirm, trendShouldEnter, hgate]
    cases trendGate cfg ∅ ctx with
    | error reason => exact ⟨rfl, rfl⟩
    | ok side =>
      dsimp only
      split
      · exact ⟨rfl, rfl⟩
      · exact ⟨rfl, rfl⟩
  remembers := by
    intro s ctx recent _
    simp only [trendConfirm]
    rcases trendShouldEnter_cases lib choice cfg s ctx recent with
      ⟨reason, -, h⟩ | ⟨side, -, ⟨-, hskip, -, hentered⟩ | ⟨-, henter, -, hentered⟩⟩
    · rw [h]
      exact Or.inr ⟨rfl, rfl⟩
    · exact Or.inr ⟨hskip, hentered⟩
    · exact Or.inl ⟨henter, hentered⟩

/-- SOURCE: strategies/polymarket_btc5m/oracle_lag_v1.py:94-110, 209 -/
def oracleEntersOnce (cesta : Option (R → CestaProvider K × R)) (cfg : OracleLagConfig K) :
    EntersOnce (oracleLag lib cesta cfg) where
  entered s := s.perWindowEntered
  fresh s := { s with perWindowEntered := ∅ }
  entered_fresh _ := rfl
  fresh_fresh _ := rfl
  skips := by
    intro s ctx recent h
    have hgate : ∃ reason, oracleGate cfg s.perWindowEntered ctx = some reason := by
      unfold oracleGate
      rw [if_pos h]
      split
      · exact ⟨_, rfl⟩
      · exact ⟨_, rfl⟩
    obtain ⟨reason, hgate⟩ := hgate
    simp only [oracleLag, oracleShouldEnter, hgate]
    exact ⟨trivial, trivial⟩
  decides := by
    intro s ctx recent h
    have hgate : oracleGate cfg s.perWindowEntered ctx = oracleGate cfg ∅ ctx := by
      unfold oracleGate
      rw [if_neg h, if_neg (Finset.notMem_empty _)]
    simp only [oracleLag, oracleShouldEnter, hgate]
    cases oracleGate cfg ∅ ctx with
    | some reason => exact ⟨rfl, rfl⟩
    | none =>
      dsimp only
      split
      · exact ⟨rfl, rfl⟩
      · exact ⟨rfl, rfl⟩
  remembers := by
    intro s ctx recent _
    simp only [oracleLag]
    unfold oracleShouldEnter
    split
    · exact Or.inr ⟨rfl, rfl⟩
    · dsimp only
      split
      · exact Or.inr ⟨rfl, rfl⟩
      · exact Or.inl ⟨rfl, rfl⟩

end Strategies

/-! ## A market inside a replicate and alone -/

section Market

variable {K S P G : Type} [Field K] [LinearOrder K] [FloorRing K]

/-- A generator whose draws lie in the unit interval, as `random.Random` has it. -/
structure UnitGenerator (K G : Type) [Field K] [LinearOrder K] where
  random : G → K × G
  random_le_one : ∀ rng, (random rng).1 ≤ 1

/-- The arguments of a run with a strategy, in which every order is filled and the risk manager is
bypassed. -/
abbrev filledConfig (cfg : BacktestConfig K S P G) (gen : UnitGenerator K G)
    (strategy : Strategy K S P) : BacktestConfig K S P G :=
  { cfg with
    strategy := strategy
    fillCfg := { cfg.fillCfg with fillProbability := 1 }
    bypassRisk := true
    random := gen.random }

/-- Every order is filled and the risk manager is bypassed. -/
structure Filled (cfg : BacktestConfig K S P G) : Prop where
  bypassRisk : cfg.bypassRisk = true
  drawPasses : ∀ rng, ¬cfg.fillCfg.fillProbability < (cfg.random rng).1

omit [FloorRing K] in
/-- This configuration fills every order. -/
theorem filledConfig_filled (cfg : BacktestConfig K S P G) (gen : UnitGenerator K G)
    (strategy : Strategy K S P) : Filled (filledConfig cfg gen strategy) where
  bypassRisk := rfl
  drawPasses rng := not_lt.mpr (gen.random_le_one rng)

/-- The loop asks the strategy at this tick. -/
def Consulted (cfg : BacktestConfig K S P G) (st : MarketState K S P G)
    (tick : TickContext K) : Prop :=
  st.position = none ∧ cfg.entryWindow.Contains (st.indicators.update cfg.lib tick).1

/-- What the loop remembers of a market, besides the strategy. -/
structure MarketMemory (K P : Type) where
  indicators : IndicatorStack K
  recentCtxs : List (TickContext K)
  position : Option (BacktestPosition K P)
  signalFirstSeen : Option K

def memoryOf (st : MarketState K S P G) : MarketMemory K P :=
  ⟨st.indicators, st.recentCtxs, st.position, st.signalFirstSeen⟩

/-- The memory after the strategy has decided.
SOURCE: engine/backtest_driver.py:253-289 -/
def MarketMemory.decide (fillCfg : FillConfig K) (mem : MarketMemory K P) (ctx : TickContext K)
    (d : Decision P) : MarketMemory K P :=
  match d.action with
  | .skip => mem
  | .enter =>
    { mem with
      position := (openPosition fillCfg ctx d).or mem.position
      signalFirstSeen := mem.signalFirstSeen.or (some ctx.tInWindow) }

variable (cfg : BacktestConfig K S P G)

omit [FloorRing K] in
/-- A decision to enter is filled, whatever is drawn. -/
theorem evaluate_filled (hfilled : Filled cfg) (st : MarketState K S P G) (ctx : TickContext K)
    (recent : List (TickContext K)) :
    let after := (evaluate cfg st ctx recent).1
    after.strategy = (cfg.strategy.shouldEnter st.strategy ctx recent).2 ∧
      memoryOf after = (memoryOf st).decide cfg.fillCfg ctx
        (cfg.strategy.shouldEnter st.strategy ctx recent).1 := by
  unfold evaluate MarketMemory.decide
  dsimp only
  rw [if_neg (hfilled.drawPasses st.rng)]
  cases (cfg.strategy.shouldEnter st.strategy ctx recent).1.action with
  | skip => exact ⟨rfl, rfl⟩
  | enter =>
    dsimp only
    cases openPosition cfg.fillCfg ctx (cfg.strategy.shouldEnter st.strategy ctx recent).1 with
    | none => exact ⟨rfl, rfl⟩
    | some p => exact ⟨rfl, rfl⟩

/-- A tick the strategy is not asked about goes into the memory. -/
theorem tickStep_not_consulted (st : MarketState K S P G) (tick : TickContext K)
    (h : ¬Consulted cfg st tick) :
    let after := (tickStep cfg st tick).1
    after.strategy = st.strategy ∧ memoryOf after =
      memoryOf (st.observe (st.indicators.update cfg.lib tick).1
        (st.indicators.update cfg.lib tick).2) := by
  have hconsulted : st.position.isSome = true ∨
      ¬cfg.entryWindow.Contains (st.indicators.update cfg.lib tick).1 := by
    by_contra hboth
    rw [not_or, Option.isSome_iff_ne_none, not_not, not_not] at hboth
    exact h hboth
  unfold tickStep
  dsimp only
  split
  · exact ⟨rfl, rfl⟩
  · rename_i hposition
    rw [if_pos (hconsulted.resolve_left hposition)]
    exact ⟨rfl, rfl⟩

/-- A tick the strategy is asked about does what it decides. -/
theorem tickStep_consulted (hfilled : Filled cfg) (st : MarketState K S P G)
    (tick : TickContext K) (h : Consulted cfg st tick) :
    let after := (tickStep cfg st tick).1
    let ctx := (st.indicators.update cfg.lib tick).1
    after.strategy = (cfg.strategy.shouldEnter st.strategy ctx st.recentCtxs).2 ∧
      memoryOf after = (memoryOf (st.observe ctx (st.indicators.update cfg.lib tick).2)).decide
        cfg.fillCfg ctx (cfg.strategy.shouldEnter st.strategy ctx st.recentCtxs).1 := by
  obtain ⟨hposition, hwindow⟩ := h
  rw [tickStep_bypassed cfg st tick hfilled.bypassRisk hposition hwindow]
  exact evaluate_filled cfg hfilled _ _ _

variable (once : EntersOnce cfg.strategy)

/-- Two loops over one market, in strategies at the same point of their draws that agree on
whether they have entered it. -/
structure SameMarket (slug : String) (st st' : MarketState K S P G) : Prop where
  memory : memoryOf st = memoryOf st'
  fresh : once.fresh st.strategy = once.fresh st'.strategy
  entered : slug ∈ once.entered st.strategy ↔ slug ∈ once.entered st'.strategy

/-- They stay so over a tick of the market. -/
theorem sameMarket_step (hfilled : Filled cfg) (slug : String) (st st' : MarketState K S P G)
    (tick : TickContext K) (htick : tick.marketSlug = slug) (h : SameMarket cfg once slug st st') :
    SameMarket cfg once slug ((marketLoop cfg).next st tick) ((marketLoop cfg).next st' tick) := by
  obtain ⟨hmemory, hfresh, hentered⟩ := h
  change SameMarket cfg once slug (tickStep cfg st tick).1 (tickStep cfg st' tick).1
  have hindicators : st.indicators = st'.indicators := congrArg MarketMemory.indicators hmemory
  have hrecent : st.recentCtxs = st'.recentCtxs := congrArg MarketMemory.recentCtxs hmemory
  have hposition : st.position = st'.position := congrArg MarketMemory.position hmemory
  have hseen : st.signalFirstSeen = st'.signalFirstSeen :=
    congrArg MarketMemory.signalFirstSeen hmemory
  have hobserve : ∀ ctx ind, memoryOf (st.observe ctx ind) = memoryOf (st'.observe ctx ind) := by
    intro ctx ind
    unfold memoryOf MarketState.observe
    rw [hrecent, hposition, hseen]
  have hconsulted : Consulted cfg st tick ↔ Consulted cfg st' tick := by
    unfold Consulted
    rw [hindicators, hposition]
  by_cases hc : Consulted cfg st tick
  swap
  · obtain ⟨hs, hm⟩ := tickStep_not_consulted cfg st tick hc
    obtain ⟨hs', hm'⟩ := tickStep_not_consulted cfg st' tick (fun hc' => hc (hconsulted.mpr hc'))
    constructor
    · rw [hm, hm', hobserve, hindicators]
    · rw [hs, hs', hfresh]
    · rw [hs, hs', hentered]
  · obtain ⟨hs, hm⟩ := tickStep_consulted cfg hfilled st tick hc
    obtain ⟨hs', hm'⟩ := tickStep_consulted cfg hfilled st' tick (hconsulted.mp hc)
    rw [← hindicators, ← hrecent] at hs' hm'
    rw [hobserve] at hm
    have hslug : (st.indicators.update cfg.lib tick).1.marketSlug = slug := htick
    generalize (st.indicators.update cfg.lib tick).1 = ctx at *
    subst hslug
    by_cases hin : ctx.marketSlug ∈ once.entered st.strategy
    · -- both skip a market they have entered
      obtain ⟨hskip, hsame⟩ := once.skips st.strategy ctx st.recentCtxs hin
      obtain ⟨hskip', hsame'⟩ := once.skips st'.strategy ctx st.recentCtxs (hentered.mp hin)
      constructor
      · rw [hm, hm']
        unfold MarketMemory.decide
        rw [hskip, hskip']
      · rw [hs, hs', hsame, hsame', hfresh]
      · rw [hs, hs', hsame, hsame', hentered]
    · have hin' : ctx.marketSlug ∉ once.entered st'.strategy := fun h => hin (hentered.mpr h)
      obtain ⟨hd, hf⟩ := once.decides st.strategy ctx st.recentCtxs hin
      obtain ⟨hd', hf'⟩ := once.decides st'.strategy ctx st.recentCtxs hin'
      rw [← hfresh] at hd' hf'
      have hdecision := hd.trans hd'.symm
      constructor
      · rw [hm, hm', hdecision]
      · rw [hs, hs', hf, hf']
      · rw [hs, hs']
        rcases once.remembers st.strategy ctx st.recentCtxs hin with ⟨hact, he⟩ | ⟨hact, he⟩ <;>
          rcases once.remembers st'.strategy ctx st.recentCtxs hin' with
            ⟨hact', he'⟩ | ⟨hact', he'⟩
        · rw [he, he']
          simp
        · rw [hdecision, hact'] at hact
          cases hact
        · rw [hdecision, hact'] at hact
          cases hact
        · rw [he, he']
          exact hentered

/-- And over all its ticks. -/
theorem sameMarket_run (hfilled : Filled cfg) (slug : String) (ticks : List (TickContext K))
    (hticks : ∀ tick ∈ ticks, tick.marketSlug = slug) (st st' : MarketState K S P G)
    (h : SameMarket cfg once slug st st') :
    SameMarket cfg once slug ((marketLoop cfg).final st ticks)
      ((marketLoop cfg).final st' ticks) := by
  apply (marketLoop cfg).twin_final (SameMarket cfg once slug)
    (fun _ tick => tick.marketSlug = slug) _ st st' h ticks
  · intro pre tick post heq
    exact hticks tick (by simp [heq])
  · intro st st' tick h htick
    exact sameMarket_step cfg once hfilled slug st st' tick htick h

/-- In a market that was entered before, the loop never opens a position. -/
theorem entered_run (hfilled : Filled cfg) (slug : String) (ticks : List (TickContext K))
    (hticks : ∀ tick ∈ ticks, tick.marketSlug = slug) (st : MarketState K S P G)
    (hposition : st.position = none) (hentered : slug ∈ once.entered st.strategy) :
    ((marketLoop cfg).final st ticks).position = none ∧
      ((marketLoop cfg).final st ticks).strategy = st.strategy := by
  induction ticks generalizing st with
  | nil => exact ⟨hposition, rfl⟩
  | cons tick ticks ih =>
    obtain ⟨htick, hrest⟩ := List.forall_mem_cons.mp hticks
    have hnext : ((marketLoop cfg).next st tick).position = none ∧
        ((marketLoop cfg).next st tick).strategy = st.strategy := by
      change (tickStep cfg st tick).1.position = none ∧ (tickStep cfg st tick).1.strategy = _
      by_cases hc : Consulted cfg st tick
      · obtain ⟨hs, hm⟩ := tickStep_consulted cfg hfilled st tick hc
        obtain ⟨hskip, hsame⟩ := once.skips st.strategy (st.indicators.update cfg.lib tick).1
          st.recentCtxs (by rw [IndicatorStack.update_marketSlug, htick]; exact hentered)
        refine ⟨?_, hs.trans hsame⟩
        unfold MarketMemory.decide at hm
        rw [hskip] at hm
        exact (congrArg MarketMemory.position hm).trans hposition
      · obtain ⟨hs, hm⟩ := tickStep_not_consulted cfg st tick hc
        exact ⟨(congrArg MarketMemory.position hm).trans hposition, hs⟩
    obtain ⟨hpos, hstrategy⟩ := ih hrest _ hnext.1 (by rw [hnext.2]; exact hentered)
    rw [Machine.final_cons]
    exact ⟨hpos, hstrategy.trans hnext.2⟩

end Market

/-! ## Replicates -/

section Replicates

variable {K S P G : Type} [Field K] [LinearOrder K] [FloorRing K] (cfg : BacktestConfig K S P G)
  (once : EntersOnce cfg.strategy) (settle : Option (String → Option K))

/-- The trades that a market yields when it is replayed alone, with a new strategy. -/
def aloneTrades (s : S) (rng : G) (m : LoadedMarket K) : List (BacktestTrade K P) :=
  (replayMarkets cfg settle (once.fresh s) rng [m]).trades

/-- The run after some more markets. -/
def runFrom (run : RunState K S P G) (markets : List (LoadedMarket K)) : RunState K S P G :=
  markets.foldl (fun run m => (replayMarket cfg settle run m.slug m.ticks).1) run

/-- What the draws of a sample yield, each replayed alone: with a new strategy, at the point of the
random draws, or of the price series, that the replicate has come to. -/
def drawsAlone (run : RunState K S P G) : List (LoadedMarket K) → List (BacktestTrade K P)
  | [] => []
  | m :: markets => aloneTrades cfg once settle run.strategy run.rng m ++
      drawsAlone (replayMarket cfg settle run m.slug m.ticks).1 markets

/-- Trades under the numbers a run gives them. -/
def numbered (first : ℕ) (trades : List (BacktestTrade K P)) : List (BacktestTrade K P) :=
  trades.mapIdx fun i trade => { trade with tradeIdx := first + i }

omit [Field K] [LinearOrder K] [FloorRing K] in
/-- The numbers of a list continued. -/
theorem numbered_append (first : ℕ) (a b : List (BacktestTrade K P)) :
    numbered first (a ++ b) = numbered first a ++ numbered (first + a.length) b := by
  unfold numbered
  rw [List.mapIdx_append]
  congr 2
  funext i trade
  rw [add_assoc, add_comm a.length]

/-- No draw of a sample yields a trade alone if an earlier draw has entered its market. -/
def NoneAgain (run : RunState K S P G) (markets : List (LoadedMarket K)) : Prop :=
  Obeys (fun pre m => m.slug ∈ once.entered (runFrom cfg settle run pre).strategy →
    aloneTrades cfg once settle (runFrom cfg settle run pre).strategy
      (runFrom cfg settle run pre).rng m = []) markets

/-- What a market adds to a run. -/
def contributes (run : RunState K S P G) (m : LoadedMarket K) : List (BacktestTrade K P) :=
  if m.slug ∈ once.entered run.strategy then []
  else aloneTrades cfg once settle run.strategy run.rng m

/-- A market replayed alone starts from nothing. -/
theorem aloneTrades_eq (s : S) (rng : G) (m : LoadedMarket K) :
    aloneTrades cfg once settle s rng m =
      ((marketTerms settle m.slug m.ticks).map fun terms => marketTrade cfg 0 m.slug terms
        ((marketLoop cfg).final
          (MarketState.start cfg (startRun (once.fresh s) RiskState.init rng)) m.ticks)).getD [] := by
  change (replayMarket cfg settle (startRun (once.fresh s) RiskState.init rng) m.slug
    m.ticks).1.trades = _
  cases hterms : marketTerms settle m.slug m.ticks with
  | none =>
    rcases replayMarket_of_none cfg settle m.slug m.ticks hterms with h | h
    · rw [h]
      rfl
    · rw [h]
      rfl
  | some terms =>
    rw [replayMarket_of_some cfg settle _ m.slug m.ticks terms hterms, closeMarket_eq]
    rfl

/-- **One draw.** A market that the strategy has entered before adds nothing; any other adds what it
yields alone. -/
theorem replayMarket_contributes (hfilled : Filled cfg) (run : RunState K S P G)
    (m : LoadedMarket K) :
    (replayMarket cfg settle run m.slug m.ticks).1.trades =
        run.trades ++ numbered run.tradeIdx (contributes cfg once settle run m) ∧
      (replayMarket cfg settle run m.slug m.ticks).1.tradeIdx =
        run.tradeIdx + (contributes cfg once settle run m).length := by
  unfold contributes
  rw [aloneTrades_eq]
  cases hterms : marketTerms settle m.slug m.ticks with
  | none =>
    have hnothing : (if m.slug ∈ once.entered run.strategy then []
        else ((none : Option (MarketTerms K)).map fun terms => marketTrade cfg 0 m.slug terms
          ((marketLoop cfg).final (MarketState.start cfg
            (startRun (once.fresh run.strategy) RiskState.init run.rng)) m.ticks)).getD []) =
        ([] : List (BacktestTrade K P)) := by
      split <;> rfl
    rw [hnothing]
    rcases replayMarket_of_none cfg settle m.slug m.ticks hterms with h | h
    · rw [h]
      simp [numbered]
    · rw [h]
      simp [numbered, counted]
  | some terms =>
    rw [replayMarket_of_some cfg settle run m.slug m.ticks terms hterms, closeMarket_eq]
    dsimp only [Option.map_some, Option.getD_some]
    split
    · rename_i hentered
      obtain ⟨hposition, -⟩ := entered_run cfg once hfilled m.slug m.ticks m.marketSlug_eq
        (MarketState.start cfg run) rfl hentered
      simp [marketTrade, hposition, numbered, counted]
    · rename_i hnew
      have hsame : SameMarket cfg once m.slug (MarketState.start cfg run)
          (MarketState.start cfg (startRun (once.fresh run.strategy) RiskState.init run.rng)) := by
        constructor
        · rfl
        · exact (once.fresh_fresh run.strategy).symm
        · change m.slug ∈ once.entered run.strategy ↔
            m.slug ∈ once.entered (once.fresh run.strategy)
          rw [once.entered_fresh]
          simp [hnew]
      have hmemory := (sameMarket_run cfg once hfilled m.slug m.ticks m.marketSlug_eq _ _
        hsame).memory
      have hposition := congrArg MarketMemory.position hmemory
      have hseen := congrArg MarketMemory.signalFirstSeen hmemory
      dsimp only [memoryOf] at hposition hseen
      unfold marketTrade
      rw [hposition, hseen]
      cases ((marketLoop cfg).final (MarketState.start cfg
        (startRun (once.fresh run.strategy) RiskState.init run.rng)) m.ticks).position with
      | none => simp [numbered, counted]
      | some p =>
        simp only [Option.map_some, Option.toList_some, List.length_singleton]
        exact ⟨rfl, rfl⟩

/-- What the draws of a sample add one after the other. -/
def contributions (run : RunState K S P G) : List (LoadedMarket K) → List (BacktestTrade K P)
  | [] => []
  | m :: markets => contributes cfg once settle run m ++
      contributions (replayMarket cfg settle run m.slug m.ticks).1 markets

/-- **All draws.** The trades of a run are what its markets add. -/
theorem runFrom_trades (hfilled : Filled cfg) (markets : List (LoadedMarket K))
    (run : RunState K S P G) :
    (runFrom cfg settle run markets).trades =
      run.trades ++ numbered run.tradeIdx (contributions cfg once settle run markets) := by
  induction markets generalizing run with
  | nil => simp [runFrom, contributions, numbered]
  | cons m markets ih =>
    obtain ⟨htrades, hidx⟩ := replayMarket_contributes cfg once settle hfilled run m
    have hrest := ih (replayMarket cfg settle run m.slug m.ticks).1
    rw [htrades, hidx, List.append_assoc] at hrest
    rw [contributions, numbered_append]
    exact hrest

/-- A draw that adds less than its market yields alone leaves the run short for good. -/
theorem contributions_short (markets : List (LoadedMarket K)) (run : RunState K S P G) :
    (contributions cfg once settle run markets).length ≤
        (drawsAlone cfg once settle run markets).length ∧
      ((drawsAlone cfg once settle run markets).length ≤
          (contributions cfg once settle run markets).length →
        NoneAgain cfg once settle run markets) ∧
      (NoneAgain cfg once settle run markets →
        contributions cfg once settle run markets = drawsAlone cfg once settle run markets) := by
  induction markets generalizing run with
  | nil => exact ⟨le_rfl, fun _ => Obeys.nil, fun _ => rfl⟩
  | cons m markets ih =>
    obtain ⟨hle, hnone, heq⟩ := ih (replayMarket cfg settle run m.slug m.ticks).1
    have hcons : NoneAgain cfg once settle run (m :: markets) ↔
        (m.slug ∈ once.entered run.strategy →
          aloneTrades cfg once settle run.strategy run.rng m = []) ∧
        NoneAgain cfg once settle (replayMarket cfg settle run m.slug m.ticks).1 markets :=
      Obeys.cons_iff m markets
    rw [hcons, contributions, drawsAlone, List.length_append, List.length_append]
    unfold contributes
    split
    · rename_i hentered
      refine ⟨by rw [List.length_nil]; omega, ?_, ?_⟩
      · intro hlong
        rw [List.length_nil] at hlong
        have hempty : (aloneTrades cfg once settle run.strategy run.rng m).length = 0 := by omega
        exact ⟨fun _ => List.eq_nil_of_length_eq_zero hempty, hnone (by omega)⟩
      · rintro ⟨hm, hrest⟩
        rw [hm hentered, heq hrest]
    · rename_i hnew
      refine ⟨by omega, ?_, ?_⟩
      · intro hlong
        exact ⟨fun hentered => absurd hentered hnew, hnone (by omega)⟩
      · rintro ⟨-, hrest⟩
        rw [heq hrest]

/-- A replay of markets is a run from the start. -/
theorem replayMarkets_eq (s : S) (rng : G) (markets : List (LoadedMarket K)) :
    replayMarkets cfg settle s rng markets =
      runFrom cfg settle (startRun s RiskState.init rng) markets := by
  unfold replayMarkets runFrom
  rw [runBacktest_eq, List.foldl_map]
  rfl

/-- **When a run is the concatenation of its markets**, for any strategy that enters a market
once. -/
theorem concatenates_iff (hfilled : Filled cfg) (s : S) (rng : G)
    (markets : List (LoadedMarket K)) :
    (replayMarkets cfg settle s rng markets).trades =
        numbered 0 (drawsAlone cfg once settle (startRun s RiskState.init rng) markets) ↔
      NoneAgain cfg once settle (startRun s RiskState.init rng) markets := by
  obtain ⟨-, hnone, heq⟩ := contributions_short cfg once settle markets
    (startRun s RiskState.init rng)
  rw [replayMarkets_eq, runFrom_trades cfg once settle hfilled]
  change [] ++ numbered 0 _ = _ ↔ _
  rw [List.nil_append]
  constructor
  · intro h
    apply hnone
    have hlength := congrArg List.length h
    unfold numbered at hlength
    rw [List.length_mapIdx, List.length_mapIdx] at hlength
    exact hlength.ge
  · intro h
    rw [heq h]

/-- The trades of a replicate are, in order, those its draws yield alone, numbered through. -/
def Concatenates (loader : MaterializedLoader K) (s : S) (rng : G)
    (idxs : List (Fin loader.markets.length)) : Prop :=
  (blockBootstrapReplicate cfg loader s rng idxs).trades =
    numbered 0 (drawsAlone cfg once loader.settle (startRun s RiskState.init rng)
      (loader.sampled idxs))

/-- A draw whose market an earlier draw has entered yields no trade alone. -/
def NoTradeDrawnAgain (loader : MaterializedLoader K) (s : S) (rng : G)
    (idxs : List (Fin loader.markets.length)) : Prop :=
  ∀ pre m post, loader.sampled idxs = pre ++ m :: post →
    let before := replayMarkets cfg loader.settle s rng pre
    m.slug ∈ once.entered before.strategy →
      aloneTrades cfg once loader.settle before.strategy before.rng m = []

/-- The condition on the draws, as one on the run over their markets. -/
theorem noTradeDrawnAgain_iff (loader : MaterializedLoader K) (s : S) (rng : G)
    (idxs : List (Fin loader.markets.length)) :
    NoTradeDrawnAgain cfg once loader s rng idxs ↔
      NoneAgain cfg once loader.settle (startRun s RiskState.init rng) (loader.sampled idxs) := by
  unfold NoTradeDrawnAgain NoneAgain Obeys
  simp only [replayMarkets_eq]

/-- **Replicates and their draws.** With every order filled and the risk manager bypassed, the
trades of a replicate of `trend_confirm_t1_v1` or of `oracle_lag_v1` are the concatenation of the
trades its draws yield alone exactly when no market that yields a trade alone is drawn after a draw
that entered it, as every such market is that is drawn twice.
SOURCE: research/monte_carlo.py:253-335, engine/backtest_driver.py:168-325,
strategies/polymarket_btc5m/trend_confirm_t1_v1.py:79-93,
strategies/polymarket_btc5m/oracle_lag_v1.py:94-106 -/
theorem replicate_concatenates_iff {R : Type} (lib : MathLib K) (choice : ReturnSampler K R)
    (trendCfg : TrendConfirmConfig K) (cesta : Option (R → CestaProvider K × R))
    (oracleCfg : OracleLagConfig K) (gen : UnitGenerator K G) (loader : MaterializedLoader K)
    (ambient : R) (rng : G) (idxs : List (Fin loader.markets.length)) :
    (∀ cfg : BacktestConfig K (TrendState R) (TrendPayload K) G,
      Concatenates (filledConfig cfg gen (trendConfirm lib choice trendCfg))
          (trendEntersOnce lib choice trendCfg) loader ⟨∅, ambient⟩ rng idxs ↔
        NoTradeDrawnAgain (filledConfig cfg gen (trendConfirm lib choice trendCfg))
          (trendEntersOnce lib choice trendCfg) loader ⟨∅, ambient⟩ rng idxs) ∧
    ∀ cfg : BacktestConfig K (OracleState R) (OracleReason K) G,
      Concatenates (filledConfig cfg gen (oracleLag lib cesta oracleCfg))
          (oracleEntersOnce lib cesta oracleCfg) loader ⟨∅, ambient⟩ rng idxs ↔
        NoTradeDrawnAgain (filledConfig cfg gen (oracleLag lib cesta oracleCfg))
          (oracleEntersOnce lib cesta oracleCfg) loader ⟨∅, ambient⟩ rng idxs := by
  constructor
  · intro cfg
    rw [noTradeDrawnAgain_iff]
    exact concatenates_iff _ _ loader.settle (filledConfig_filled cfg gen _) _ rng _
  · intro cfg
    rw [noTradeDrawnAgain_iff]
    exact concatenates_iff _ _ loader.settle (filledConfig_filled cfg gen _) _ rng _

end Replicates

section Instance

/-- A generator that always draws one half. -/
def evenGenerator : UnitGenerator ℚ Unit where
  random rng := (1 / 2, rng)
  random_le_one _ := by norm_num

/-- The first market yields a trade whenever it is replayed alone, and drawn twice it yields one where
its two draws yield two.
SOURCE: strategies/polymarket_btc5m/trend_confirm_t1_v1.py:92-93 -/
theorem drawn_twice_traded_once :
    ¬∀ (cfg : BacktestConfig ℚ (TrendState Unit) (TrendPayload ℚ) Unit)
      (choice : ReturnSampler ℚ Unit) (trendCfg : TrendConfirmConfig ℚ)
      (gen : UnitGenerator ℚ Unit) (loader : MaterializedLoader ℚ)
      (idxs : List (Fin loader.markets.length)),
      Concatenates (filledConfig cfg gen (trendConfirm MathLib.rational choice trendCfg))
        (trendEntersOnce MathLib.rational choice trendCfg) loader ⟨∅, ()⟩ () idxs := by
  intro h
  have hlength := congrArg List.length (h trendBacktest (fun rng _ _ _ => ([], rng))
    TrendConfirmConfig.default evenGenerator twoMarkets [⟨0, by decide⟩, ⟨0, by decide⟩])
  revert hlength
  decide +kernel

end Instance

end TradingEdge.Analysis
