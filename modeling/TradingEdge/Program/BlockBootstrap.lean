import TradingEdge.Program.BacktestDriver

/-!
# The block bootstrap

`block_bootstrap_replay` of `research/monte_carlo.py`: the markets of a loader are materialized
once, and each replicate runs the backtest driver over markets drawn from that list with
replacement, with a new strategy and a new risk manager.

A market drawn twice is one Python object, whose ticks the first replay has overwritten.  It
overwrites what each replay computes anew and reads nothing of it (`replayMarket_overwritten`), so
a replicate is a list of values here.
-/

set_option autoImplicit false

namespace TradingEdge.Program

open TradingEdge.Model TradingEdge.Library

/-- What `iter_markets` yields: a slug and the ticks recorded under it.
SOURCE: engine/data_loader.py:171-248, paper/backtest_loader.py:130-152 -/
structure LoadedMarket (K : Type) where
  slug : String
  ticks : List (TickContext K)
  marketSlug_eq : ∀ tick ∈ ticks, tick.marketSlug = slug

/-- SOURCE: research/monte_carlo.py:214-250 -/
structure MaterializedLoader (K : Type) where
  markets : List (LoadedMarket K)
  settle : Option (String → Option K)

variable {K S P G : Type}

/-- `[markets[i] for i in idxs]`.
SOURCE: research/monte_carlo.py:304-306 -/
def MaterializedLoader.sampled (loader : MaterializedLoader K)
    (idxs : List (Fin loader.markets.length)) : List (LoadedMarket K) :=
  idxs.map loader.markets.get

/-- The pair that the driver iterates over. -/
def LoadedMarket.pair (m : LoadedMarket K) : String × List (TickContext K) := (m.slug, m.ticks)

variable [Field K] [LinearOrder K] [FloorRing K]

/-- The run of a replicate, over any sampled markets.
SOURCE: research/monte_carlo.py:304-322 -/
def replayMarkets (cfg : BacktestConfig K S P G) (settle : Option (String → Option K))
    (strategy : S) (rng : G) (markets : List (LoadedMarket K)) : RunState K S P G :=
  runBacktest cfg settle strategy RiskState.init rng (markets.map LoadedMarket.pair)

/-- One replicate: `strategy_factory()` and the generator of `seed + it` are arguments.
SOURCE: research/monte_carlo.py:302-322 -/
def blockBootstrapReplicate (cfg : BacktestConfig K S P G) (loader : MaterializedLoader K)
    (strategy : S) (rng : G) (idxs : List (Fin loader.markets.length)) : RunState K S P G :=
  replayMarkets cfg loader.settle strategy rng (loader.sampled idxs)

/-! ## Ticks replayed before -/

/-- The tick as an earlier replay left it. -/
def Overwritten (lib : MathLib K) (tick tick' : TickContext K) : Prop :=
  ∃ indicators : IndicatorStack K, tick' = (indicators.update lib tick).1

/-- The loop does at an overwritten tick what it does at the tick. -/
theorem tickStep_overwritten (cfg : BacktestConfig K S P G) (st : MarketState K S P G)
    (tick tick' : TickContext K) (h : Overwritten cfg.lib tick tick') :
    tickStep cfg st tick' = tickStep cfg st tick := by
  obtain ⟨indicators, rfl⟩ := h
  have hupdate : st.indicators.update cfg.lib (indicators.update cfg.lib tick).1 =
      st.indicators.update cfg.lib tick := rfl
  unfold tickStep
  rw [hupdate]

/-- So it does over all ticks of a market. -/
theorem marketLoop_overwritten (cfg : BacktestConfig K S P G) (st : MarketState K S P G)
    (ticks ticks' : List (TickContext K))
    (h : List.Forall₂ (Overwritten cfg.lib) ticks ticks') :
    (marketLoop cfg).final st ticks' = (marketLoop cfg).final st ticks ∧
      (marketLoop cfg).emissions st ticks' = (marketLoop cfg).emissions st ticks := by
  induction h generalizing st with
  | nil => exact ⟨rfl, rfl⟩
  | @cons tick tick' rest rest' htick hrest ih =>
    have hstep := tickStep_overwritten cfg st tick tick' htick
    have hnext : (marketLoop cfg).next st tick' = (marketLoop cfg).next st tick :=
      congrArg Prod.fst hstep
    have hemits : (marketLoop cfg).emits st tick' = (marketLoop cfg).emits st tick :=
      congrArg Prod.snd hstep
    obtain ⟨hfinal, hemissions⟩ := ih ((marketLoop cfg).next st tick)
    rw [Machine.final_cons, Machine.final_cons, Machine.emissions, Machine.emissions, hnext,
      hemits, hemissions]
    exact ⟨hfinal, rfl⟩

omit [FloorRing K] in
/-- What an update keeps of every tick, overwritten ticks have kept. -/
theorem map_overwritten {α : Type} (lib : MathLib K) (f : TickContext K → α)
    (hf : ∀ (indicators : IndicatorStack K) tick, f (indicators.update lib tick).1 = f tick)
    {ticks ticks' : List (TickContext K)} (h : List.Forall₂ (Overwritten lib) ticks ticks') :
    ticks'.map f = ticks.map f := by
  induction h with
  | nil => rfl
  | cons htick hrest ih =>
    obtain ⟨indicators, rfl⟩ := htick
    rw [List.map_cons, List.map_cons, hf, ih]

omit [FloorRing K] in
/-- The opening price as a lookup among the opening prices. -/
theorem openPriceMarket_eq (first : TickContext K) (ticks : List (TickContext K)) :
    openPriceMarket first ticks =
      ((ticks.map (·.openPrice)).find? (· ≠ 0)).getD first.spotPrice := by
  have hfind : (ticks.map (·.openPrice)).find? (· ≠ 0) =
      (ticks.find? fun t => t.openPrice ≠ 0).map (·.openPrice) := by
    rw [List.find?_map]
    rfl
  rw [hfind]
  unfold openPriceMarket
  split
  · rename_i heq
    rw [heq]
    rfl
  · rename_i heq
    rw [heq]
    rfl

/-- **A market drawn again replays the same.** The ticks of a market that an earlier draw, or an
earlier replicate, has overwritten give the run that the recorded ticks give.
SOURCE: engine/indicators.py:142-156, engine/backtest_driver.py:168-332 -/
theorem replayMarket_overwritten (cfg : BacktestConfig K S P G)
    (settlePrices : Option (String → Option K)) (run : RunState K S P G) (slug : String)
    (ticks ticks' : List (TickContext K))
    (h : List.Forall₂ (Overwritten cfg.lib) ticks ticks') :
    replayMarket cfg settlePrices run slug ticks' = replayMarket cfg settlePrices run slug ticks := by
  cases h with
  | nil => rfl
  | @cons first first' rest rest' hfirst hrest =>
    have hwhole := List.Forall₂.cons hfirst hrest
    obtain ⟨hfinal, hemissions⟩ := marketLoop_overwritten cfg
      (MarketState.start cfg { run with nMarkets := run.nMarkets + 1 }) _ _ hwhole
    -- what the code around the loop reads of a tick is not overwritten
    have hkept : ∀ {α : Type} (f : TickContext K → α),
        (∀ (indicators : IndicatorStack K) tick, f (indicators.update cfg.lib tick).1 = f tick) →
        f first' = f first ∧ f (rest'.getLast?.getD first') = f (rest.getLast?.getD first) := by
      intro α f hf
      have hmap : ∀ (t : TickContext K) (l : List (TickContext K)),
          f (l.getLast?.getD t) = (l.map f).getLast?.getD (f t) := by
        intro t l
        rw [List.getLast?_map, Option.getD_map]
      obtain ⟨indicators, rfl⟩ := hfirst
      rw [hmap, hmap, map_overwritten cfg.lib f hf hrest, hf]
      exact ⟨rfl, rfl⟩
    have hopen : openPriceMarket first' (first' :: rest') =
        openPriceMarket first (first :: rest) := by
      rw [openPriceMarket_eq, openPriceMarket_eq,
        map_overwritten cfg.lib (·.openPrice) (fun _ _ => rfl) hwhole,
        (hkept (·.spotPrice) fun _ _ => rfl).1]
    have hsettle := (hkept (settlePriceFor settlePrices slug) fun _ _ => rfl).2
    have hclose := (hkept (·.windowCloseTs) fun _ _ => rfl).1
    have hlast := (hkept (·.ts) fun _ _ => rfl).2
    unfold replayMarket
    dsimp only
    rw [hsettle, hclose, hlast, hopen, hfinal, hemissions]

end TradingEdge.Program
