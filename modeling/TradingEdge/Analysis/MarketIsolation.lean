import TradingEdge.Analysis.DriverSteps
import TradingEdge.Program.Feeds
import TradingEdge.Program.OracleLag
import TradingEdge.Program.TrendConfirm

/-!
# Market isolation

The feed publishes the ticks of four slug families on one channel, and a driver with a
direction strategy handles them all.  Neither the driver nor the two direction strategies
looks at the family: what keeps a foreign market out is only that some gate refuses its
ticks as it would refuse any.

`market_isolation_iff` says when a run stays within the family: exactly when every handled
tick of a foreign market meets such a gate.
-/

set_option autoImplicit false

namespace TradingEdge.Analysis

open TradingEdge.Model TradingEdge.Program TradingEdge.Library

variable {K S P : Type} [Field K] [LinearOrder K] [FloorRing K]

/-- The same driver with another strategy. -/
def withStrategy {S' P' : Type} (env : DriverEnv K S P) (strategy : Strategy K S' P') :
    DriverEnv K S' P' where
  lib := env.lib
  execLib := env.execLib
  strategy := strategy
  riskCfg := env.riskCfg
  execCfg := env.execCfg
  cfg := env.cfg

/-- Within a run the strategy decides to enter, and `try_enter` is called, only for markets
of the family. -/
structure Isolated (env : DriverEnv K S P) (family : String) (w : World K S)
    (ls : List (DriverLabel K)) : Prop where
  decided : ∀ slug dec, .decided slug dec ∈ (driverMachine env).trace w ls →
    dec.action = .enter → InFamily family slug
  tried : ∀ slug ∈ triedSlugs ((driverMachine env).trace w ls), InFamily family slug

/-! ## Decisions to enter -/

section Decisions

variable (env : DriverEnv K S P) (w : World K S) (l : DriverLabel K)

/-- A tick that stops at the strategy was skipped by it. -/
theorem tickGate_eq_strategySkip (st : DriverState K S) (ctx : TickContext K)
    (recent : List (TickContext K)) (risk : RiskState K) (dec : Decision P) (strategy : S)
    (h : tickGate env st ctx recent = .strategySkip risk dec strategy) :
    dec.action = .skip := by
  unfold tickGate at h
  split at h
  · cases h
  split at h
  · split at h <;> cases h
  split at h
  · cases h
  split at h
  · cases h
  split at h
  · cases h
  split at h
  · cases h
  rcases hd : env.strategy.shouldEnter st.strategy ctx recent with ⟨dec', strategy'⟩
  cases hact : dec'.action with
  | skip =>
    simp only [hd, hact, TickGate.strategySkip.injEq] at h
    obtain ⟨-, rfl, -⟩ := h
    exact hact
  | enter => simp [hd, hact] at h

/-- A step that decides to enter a market also calls `try_enter` for it. -/
theorem mem_triedSlugs_of_decided (slug : String) (dec : Decision P)
    (he : .decided slug dec ∈ (driverMachine env).emits w l) (hact : dec.action = .enter) :
    slug ∈ triedSlugs ((driverMachine env).emits w l) := by
  have heffect := driver_tradeEffect env w l
  generalize hw : (driverMachine env).next w l = w' at heffect
  generalize hes : (driverMachine env).emits w l = es at heffect he ⊢
  cases heffect with
  | tick d ks action idle driver consumer events =>
    rw [events, handleTick_eq] at he
    simp only [List.cons_append, List.mem_cons, List.mem_append, reduceCtorEq,
      false_or] at he
    rcases he with (he | he) | he
    · unfold DriverState.rollEvents at he
      split at he <;> simp at he
    · unfold pauseEvents at he
      split at he <;> simp at he
    · rcases mem_atGate_events env _ _ _ _ _ _ _ he with
        ⟨dec', heq, ⟨risk, strategy, hgate⟩ | ⟨risk, strategy, hgate⟩⟩ | ⟨_, _, _, _, h⟩
      · cases heq
        rw [tickGate_eq_strategySkip env _ _ _ _ _ _ hgate] at hact
        cases hact
      · cases heq
        rw [← hes]
        exact (mem_triedSlugs_emits_iff env w l _).mpr ⟨d, ks, action, idle, rfl,
          (gateOf_enter_iff env w.driver d).mp ⟨risk, _, strategy, hgate⟩⟩
      · cases h
  | enters attempt before after driver events =>
    rw [events] at he
    cases List.mem_singleton.mp he
  | aside tradeTaken today consumer events noTick =>
    exact absurd (events _ he) Bool.false_ne_true

end Decisions

/-! ## The gates that do not look at the family -/

/-- The driver's own gates stop the tick: the market counts as traded, the driver is paused,
has a position there, is outside its entry window or at its loss limit, or the risk manager
refuses. -/
def DriverRefuses (env : DriverEnv K S P) (st : DriverState K S) (d : TickDict K) : Prop :=
  d.marketSlug ∈ (gateState env st d).tradeTaken ∨
    st.paused = true ∨ st.openPositions.get? d.marketSlug ≠ none ∨
    ¬env.cfg.InEntryWindow (orZero d.tInWindow) ∨
    (rolledState env st d).dailyPnl ≤ env.cfg.dailyPausePnlThreshold ∨
    (canEnter env.riskCfg st.risk (observeTick env st d).ctx).1 ≠ none

/-- A handled tick of a market outside the family meets a gate: one of the driver, or one of
the strategy, whose gates let a tick pass where `Admits` holds. -/
def ForeignRefused (env : DriverEnv K S P) (family : String)
    (Admits : S → TickContext K → List (TickContext K) → Prop) (w : World K S)
    (l : DriverLabel K) : Prop :=
  ∀ d ks, l.action = .tick d ks → w.consumer = .idle → ¬InFamily family d.marketSlug →
    DriverRefuses env w.driver d ∨
      ¬Admits w.driver.strategy (observeTick env w.driver d).ctx
        (observeTick env w.driver d).recentTicks

/-- A step that handles a tick tries its market exactly when neither the driver nor the
strategy refuses it. -/
theorem tried_iff_admitted (env : DriverEnv K S P)
    (Admits : S → TickContext K → List (TickContext K) → Prop)
    (hadmits : ∀ s ctx recent,
      (env.strategy.shouldEnter s ctx recent).1.action = .enter ↔ Admits s ctx recent)
    (w : World K S) (l : DriverLabel K) (slug : String) :
    slug ∈ triedSlugs ((driverMachine env).emits w l) ↔
      ∃ d ks, l.action = .tick d ks ∧ w.consumer = .idle ∧ d.marketSlug = slug ∧
        ¬DriverRefuses env w.driver d ∧
        Admits w.driver.strategy (observeTick env w.driver d).ctx
          (observeTick env w.driver d).recentTicks := by
  have hskip : ∀ a : Action, a = .enter ↔ ¬a = .skip := by
    intro a
    cases a <;> simp
  have hgates : ∀ d : TickDict K,
      (d.marketSlug ∉ (gateState env w.driver d).tradeTaken ∧ ¬GatesRefuse env w.driver d) ↔
        ¬DriverRefuses env w.driver d ∧
          Admits w.driver.strategy (observeTick env w.driver d).ctx
            (observeTick env w.driver d).recentTicks := by
    intro d
    unfold GatesRefuse DriverRefuses
    rw [← hadmits, hskip]
    simp only [not_or]
    simp only [and_assoc]
  rw [mem_triedSlugs_emits_iff]
  constructor
  · rintro ⟨d, ks, action, idle, rfl, hpass⟩
    exact ⟨d, ks, action, idle, rfl, (hgates d).mp hpass⟩
  · rintro ⟨d, ks, action, idle, rfl, hpass⟩
    exact ⟨d, ks, action, idle, rfl, (hgates d).mpr hpass⟩

/-- **When a driver stays within its family**, for any strategy that enters where `Admits`
holds. -/
theorem isolated_iff (env : DriverEnv K S P) (family : String)
    (Admits : S → TickContext K → List (TickContext K) → Prop)
    (hadmits : ∀ s ctx recent,
      (env.strategy.shouldEnter s ctx recent).1.action = .enter ↔ Admits s ctx recent)
    (w : World K S) (ls : List (DriverLabel K)) :
    Isolated env family w ls ↔
      (driverMachine env).Along (ForeignRefused env family Admits) w ls := by
  have htried := tried_iff_admitted env Admits hadmits
  constructor
  · intro h pre l post heq d ks action idle hforeign
    by_contra hpass
    obtain ⟨hdriver, hstrategy⟩ := not_or.mp hpass
    refine hforeign (h.tried _ ((mem_triedSlugs_trace_iff env w ls _).mpr
      ⟨pre, l, post, heq, (htried _ l _).mpr ⟨d, ks, action, idle, rfl, hdriver, ?_⟩⟩))
    exact not_not.mp hstrategy
  · intro h
    have hstep : ∀ pre l post, ls = pre ++ l :: post → ∀ slug,
        slug ∈ triedSlugs ((driverMachine env).emits ((driverMachine env).final w pre) l) →
        InFamily family slug := by
      intro pre l post heq slug hslug
      obtain ⟨d, ks, action, idle, rfl, hdriver, hstrategy⟩ := (htried _ l slug).mp hslug
      by_contra hforeign
      exact (h pre l post heq d ks action idle hforeign).elim hdriver fun hnot =>
        hnot hstrategy
    constructor
    · intro slug dec he hact
      obtain ⟨pre, l, post, heq, he⟩ := ((driverMachine env).mem_trace_iff _ w ls).mp he
      exact hstep pre l post heq slug (mem_triedSlugs_of_decided env _ l slug dec he hact)
    · intro slug hslug
      obtain ⟨pre, l, post, heq, hemit⟩ := (mem_triedSlugs_trace_iff env w ls slug).mp hslug
      exact hstep pre l post heq slug hemit

/-! ## The two strategies -/

section Strategies

variable {R : Type} (lib : MathLib K)

/-- The gates of `trend_confirm_t1_v1` let the tick pass for a side. -/
structure TrendAdmits (choice : ReturnSampler K R) (cfg : TrendConfirmConfig K)
    (s : TrendState R) (ctx : TickContext K) (recentTicks : List (TickContext K))
    (side : Side) : Prop where
  horizon : |ctx.tInWindow - cfg.entryHorizonS| ≤ cfg.horizonToleranceS
  notEntered : ctx.marketSlug ∉ s.perWindowEntered
  direction : cfg.direction ctx.deltaBps = some side
  chainlink : chainlinkGate cfg ctx side = none
  price : priceGate cfg ctx side = none
  confirmed : TrendConfirmed lib choice cfg s.rng side ctx recentTicks

/-- `trend_confirm_t1_v1` enters if it admits the tick. -/
theorem trendConfirm_enter_iff (choice : ReturnSampler K R) (cfg : TrendConfirmConfig K)
    (s : TrendState R) (ctx : TickContext K) (recentTicks : List (TickContext K)) :
    (trendShouldEnter lib choice cfg s ctx recentTicks).1.action = .enter ↔
      ∃ side, TrendAdmits lib choice cfg s ctx recentTicks side := by
  rw [trendShouldEnter_enter_iff]
  refine exists_congr fun side => ?_
  rw [trendGate_eq_ok_iff]
  constructor
  · rintro ⟨⟨hhorizon, hentered, hdirection, hchainlink, hprice⟩, hconf⟩
    exact ⟨hhorizon, hentered, hdirection, hchainlink, hprice, hconf⟩
  · rintro ⟨hhorizon, hentered, hdirection, hchainlink, hprice, hconf⟩
    exact ⟨⟨hhorizon, hentered, hdirection, hchainlink, hprice⟩, hconf⟩

/-- The gates of `oracle_lag_v1` let the tick pass, with the quantities `q` computed for it. -/
structure OracleAdmits (cesta : Option (R → CestaProvider K × R)) (cfg : OracleLagConfig K)
    (s : OracleState R) (ctx : TickContext K) (recentTicks : List (TickContext K))
    (q : OracleQuote K) : Prop where
  quote : q = oracleQuote lib cfg ctx recentTicks (oracleSpot cesta cfg s.feed ctx).1
  window : cfg.entryStartS ≤ ctx.tInWindow ∧ ctx.tInWindow ≤ cfg.entryEndS
  notEntered : ctx.marketSlug ∉ s.perWindowEntered
  prices : 0 < ctx.openPrice ∧ 0 < ctx.spotPrice
  sigmaTicks : cfg.sigmaMinTicks ≤ q.nSigmaTicks
  sigma : 0 < q.sigma
  ofi : ¬OfiDisagrees cfg q
  ask : 0 < q.ask ∧ q.ask < 1
  maxEntryPrice : q.ask ≤ cfg.maxEntryPrice
  evNet : cfg.evThreshold ≤ q.evNet
  live : cfg.shadow = false

omit [FloorRing K] in
/-- The oracle lag strategy enters if it admits the tick. -/
theorem oracleLag_enter_iff (cesta : Option (R → CestaProvider K × R))
    (cfg : OracleLagConfig K) (s : OracleState R) (ctx : TickContext K)
    (recentTicks : List (TickContext K)) :
    (oracleShouldEnter lib cesta cfg s ctx recentTicks).1.action = .enter ↔
      ∃ q, OracleAdmits lib cesta cfg s ctx recentTicks q := by
  rw [oracleShouldEnter_enter_iff, oracleGate_eq_none_iff, quoteGate_eq_none_iff]
  constructor
  · rintro ⟨⟨hwindow, hentered, hprices⟩, hticks, hsigma, hofi, hask, hmax, hev, hlive⟩
    exact ⟨_, rfl, hwindow, hentered, hprices, hticks, hsigma, hofi, hask, hmax, hev, hlive⟩
  · rintro ⟨q, rfl, hwindow, hentered, hprices, hticks, hsigma, hofi, hask, hmax, hev, hlive⟩
    exact ⟨⟨hwindow, hentered, hprices⟩, hticks, hsigma, hofi, hask, hmax, hev, hlive⟩

/-- A tick the strategy lets pass it also lets pass under another market's name, if that
market is not entered either. -/
theorem trendAdmits_of_slug (choice : ReturnSampler K R) (cfg : TrendConfirmConfig K)
    (s : TrendState R) (ctx : TickContext K) (recentTicks : List (TickContext K)) (side : Side)
    (h : TrendAdmits lib choice cfg s ctx recentTicks side) (slug : String)
    (hslug : slug ∉ s.perWindowEntered) :
    TrendAdmits lib choice cfg s { ctx with marketSlug := slug } recentTicks side :=
  ⟨h.horizon, hslug, h.direction, h.chainlink, h.price, h.confirmed⟩

omit [FloorRing K] in
/-- What is admitted of one market is admitted of another not entered. -/
theorem oracleAdmits_of_slug (cesta : Option (R → CestaProvider K × R))
    (cfg : OracleLagConfig K) (s : OracleState R) (ctx : TickContext K)
    (recentTicks : List (TickContext K)) (q : OracleQuote K)
    (h : OracleAdmits lib cesta cfg s ctx recentTicks q) (slug : String)
    (hslug : slug ∉ s.perWindowEntered) :
    OracleAdmits lib cesta cfg s { ctx with marketSlug := slug } recentTicks q :=
  ⟨h.quote, h.window, hslug, h.prices, h.sigmaTicks, h.sigma, h.ofi, h.ask, h.maxEntryPrice,
    h.evNet, h.live⟩

/-- **When a run is isolated.** A driver with `trend_confirm_t1_v1` or `oracle_lag_v1` decides
to enter, and calls `try_enter`, only for BTC 5-minute markets exactly when every tick of
another market it handles is refused by its own gates or by those of the strategy, none of
which looks at the family.
SOURCE: paper/feeds.py:385-394, paper/driver.py:314-424,
strategies/polymarket_btc5m/trend_confirm_t1_v1.py:84-423,
strategies/polymarket_btc5m/oracle_lag_v1.py:99-216 -/
theorem market_isolation_iff (env : DriverEnv K S P) (choice : ReturnSampler K R)
    (trendCfg : TrendConfirmConfig K) (cesta : Option (R → CestaProvider K × R))
    (oracleCfg : OracleLagConfig K) :
    (∀ w ls, Isolated (withStrategy env (trendConfirm env.lib choice trendCfg))
        "btc-updown-5m-" w ls ↔
      (driverMachine (withStrategy env (trendConfirm env.lib choice trendCfg))).Along
        (ForeignRefused (withStrategy env (trendConfirm env.lib choice trendCfg))
          "btc-updown-5m-" fun s ctx recentTicks =>
            ∃ side, TrendAdmits env.lib choice trendCfg s ctx recentTicks side) w ls) ∧
    ∀ w ls, Isolated (withStrategy env (oracleLag env.lib cesta oracleCfg))
        "btc-updown-5m-" w ls ↔
      (driverMachine (withStrategy env (oracleLag env.lib cesta oracleCfg))).Along
        (ForeignRefused (withStrategy env (oracleLag env.lib cesta oracleCfg))
          "btc-updown-5m-" fun s ctx recentTicks =>
            ∃ q, OracleAdmits env.lib cesta oracleCfg s ctx recentTicks q) w ls := by
  constructor
  · intro w ls
    exact isolated_iff _ _ _ (trendConfirm_enter_iff env.lib choice trendCfg) w ls
  · intro w ls
    exact isolated_iff _ _ _ (oracleLag_enter_iff env.lib cesta oracleCfg) w ls

end Strategies

section Instance

/-- An ETH market in the map of the feed. -/
def ethMarket : MarketMeta ℚ where
  conditionId := "0xe"
  slug := "eth-updown-5m-1500"
  windowCloseTs := 1500
  openPrice := 100
  openPriceCaptured := true

/-- A book that quotes both tokens around 0.30. -/
def ethBook : CLOBBookSnapshot ℚ where
  yesBid := 29 / 100
  yesAsk := 30 / 100
  noBid := 29 / 100
  noAsk := 30 / 100
  depthYes := 10
  depthNo := 10

/-- The message of that market at a time and a spot price. -/
def ethTick (now spot : ℚ) : TickDict ℚ := composeTick ethMarket ethBook ⟨spot, spot⟩ now

/-- The recorder publishes it throughout the window of the market. -/
theorem ethTick_published (now spot : ℚ) (hopen : 1200 ≤ now) (hclose : now < 1500) :
    recordMarket ethMarket (some ethBook) ⟨spot, spot⟩ now =
      (ethMarket, some (ethTick now spot, composeRow ethMarket ⟨spot, spot⟩ now)) := by
  have hseconds : windowSecondsForSlug ethMarket.slug = 300 := by decide +kernel
  have hwindow : IsInPublishingWindow ethMarket.windowCloseTs now ethMarket.slug := by
    rw [IsInPublishingWindow, hseconds]
    simp only [ethMarket]
    constructor <;> norm_num <;> linarith
  have hcapture : ethMarket.captureOpen ⟨spot, spot⟩ now = ethMarket :=
    if_neg fun h => Bool.noConfusion h.1
  have hlength : ¬((300 : ℤ) : ℚ) < tInWindowAt ethMarket.windowCloseTs ethMarket.slug now := by
    rw [tInWindowAt, hseconds, not_lt]
    simp only [ethMarket]
    exact max_le (by norm_num) (by norm_num; linarith)
  unfold recordMarket
  rw [if_neg (not_not.mpr hwindow)]
  dsimp only
  rw [hcapture, hseconds, if_neg hlength]
  rfl

/-- A driver with the entry window of a strategy, before it gets that strategy. -/
def windowDriver (earliestEntryT latestEntryT : ℤ) : DriverEnv ℚ Unit Unit :=
  { eagerDriver earliestEntryT with
    cfg := { (eagerDriver earliestEntryT).cfg with latestEntryT := latestEntryT } }

/-- `trend_confirm_t1_v1` with its defaults. -/
def defaultTrendDriver : DriverEnv ℚ (TrendState Unit) (TrendPayload ℚ) :=
  withStrategy (windowDriver 120 240)
    (trendConfirm MathLib.rational (fun rng _ _ _ => ([], rng)) TrendConfirmConfig.default)

/-- `oracle_lag_v1` out of shadow mode, content with two prices. -/
def liveOracleDriver : DriverEnv ℚ (OracleState Unit) (OracleReason ℚ) :=
  withStrategy (windowDriver 285 297)
    (oracleLag MathLib.rational none
      { OracleLagConfig.default with sigmaMinTicks := 2, shadow := false })

/-- The system after a boot with nothing rehydrated. -/
def freshBoot {S : Type} (strategy : S) : World ℚ S :=
  World.boot (DriverState.boot strategy false none 0 0) Table.empty Table.empty

/-- Two ticks of the ETH market, the spot price falling from one to the other. -/
def ethRun (t firstSpot secondSpot : ℚ) : List (DriverLabel ℚ) :=
  [⟨1200 + t, .tick (ethTick (1200 + t) firstSpot) false⟩,
    ⟨1203 + t, .tick (ethTick (1203 + t) secondSpot) false⟩]

/-- Both drivers call `try_enter` for an ETH market: the first on a falling price with three
of six filters confirming, the second on a cheap ask with even odds.
SOURCE: paper/feeds.py:385-394 -/
theorem eth_market_entered :
    ¬Isolated defaultTrendDriver "btc-updown-5m-" (freshBoot ⟨∅, ()⟩) (ethRun 237 101 99) ∧
      ¬Isolated liveOracleDriver "btc-updown-5m-" (freshBoot ⟨∅, ()⟩) (ethRun 285 101 100) := by
  constructor <;>
    exact fun h => absurd (h.tried "eth-updown-5m-1500" (by decide +kernel)) (by decide +kernel)

end Instance

end TradingEdge.Analysis
