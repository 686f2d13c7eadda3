import TradingEdge.Analysis.DecisionParity
import TradingEdge.Analysis.ReplaySteps

/-!
# Reproducing a backtest

`run_backtest` draws its fills from a generator that the seed fixes.  A strategy may have a source
of randomness of its own: `trend_confirm_t1_v1` bootstraps a vote, and passes the bootstrap no
seed.  Two executions on the same arguments then start from strategies that differ in the ambient
entropy alone.

`twinRuns_final` carries such a pair through the driver, for any strategy, as long as both are
recorded alike at every tick they are asked about.  `drawIndifferent_iff` says which ticks those are
for `trend_confirm_t1_v1`.
-/

set_option autoImplicit false

namespace TradingEdge.Analysis

open TradingEdge.Model TradingEdge.Program TradingEdge.Library

/-! ## Two executions of the driver -/

section Twins

variable {K S P G : Type} [Field K] [LinearOrder K] [FloorRing K] (cfg : BacktestConfig K S P G)

/-- A backtest records two decisions alike: of a skip it only counts the action. -/
@[mk_iff]
structure RecordedAlike (d d' : Decision P) : Prop where
  action : d.action = d'.action
  entry : d.action = .enter → d = d'

/-- Recorded alike, the other way round. -/
theorem RecordedAlike.symm {d d' : Decision P} (h : RecordedAlike d d') : RecordedAlike d' d :=
  ⟨h.action.symm, fun hact => (h.entry (h.action.trans hact)).symm⟩

/-- Recorded alike, through a third decision. -/
theorem RecordedAlike.trans {d d' d'' : Decision P} (h : RecordedAlike d d')
    (h' : RecordedAlike d' d'') : RecordedAlike d d'' :=
  ⟨h.action.trans h'.action,
    fun hact => (h.entry hact).trans (h'.entry (h.action.symm.trans hact))⟩

/-- The loop asks the strategy about this tick.
SOURCE: engine/backtest_driver.py:231-253 -/
def Asked (st : MarketState K S P G) (tick : TickContext K) : Prop :=
  let ctx := (st.indicators.update cfg.lib tick).1
  st.position = none ∧ cfg.entryWindow.Contains ctx ∧
    (cfg.bypassRisk = false → (canEnter cfg.riskCfg st.risk ctx).1 = none)

/-- `Sim` relates the strategies of two executions.  Asked about this tick, all strategies it
relates to this one answer alike, and stay related. -/
def AnswersAlike (Sim : S → S → Prop) (st : MarketState K S P G) (tick : TickContext K) : Prop :=
  Asked cfg st tick → ∀ s', Sim st.strategy s' →
    let ctx := (st.indicators.update cfg.lib tick).1
    let answer := cfg.strategy.shouldEnter st.strategy ctx st.recentCtxs
    let answer' := cfg.strategy.shouldEnter s' ctx st.recentCtxs
    RecordedAlike answer.1 answer'.1 ∧ Sim answer.2 answer'.2

/-- Two loops that differ in their strategies alone. -/
structure TwinLoops (Sim : S → S → Prop) (st st' : MarketState K S P G) : Prop where
  strategy : Sim st.strategy st'.strategy
  rest : st' = { st with strategy := st'.strategy }

/-- Two runs that differ in their strategies alone. -/
structure TwinRuns (Sim : S → S → Prop) (run run' : RunState K S P G) : Prop where
  strategy : Sim run.strategy run'.strategy
  rest : run' = { run with strategy := run'.strategy }

omit [Field K] [LinearOrder K] [FloorRing K] in
/-- Twin runs have given the same results. -/
theorem TwinRuns.results {Sim : S → S → Prop} {run run' : RunState K S P G}
    (h : TwinRuns Sim run run') :
    run.trades = run'.trades ∧ run.decisionCounts = run'.decisionCounts := by
  rw [h.rest]
  exact ⟨rfl, rfl⟩

variable (Sim : S → S → Prop)

omit [FloorRing K] in
/-- Answers recorded alike have the same effect on the loop. -/
theorem twinLoops_evaluate (st : MarketState K S P G) (s' : S) (ctx : TickContext K)
    (recent : List (TickContext K))
    (halike : RecordedAlike (cfg.strategy.shouldEnter st.strategy ctx recent).1
      (cfg.strategy.shouldEnter s' ctx recent).1)
    (hsim : Sim (cfg.strategy.shouldEnter st.strategy ctx recent).2
      (cfg.strategy.shouldEnter s' ctx recent).2) :
    TwinLoops Sim (evaluate cfg st ctx recent).1
      (evaluate cfg { st with strategy := s' } ctx recent).1 := by
  obtain ⟨haction, hsame⟩ := halike
  unfold evaluate
  dsimp only
  rw [← haction]
  cases hact : (cfg.strategy.shouldEnter st.strategy ctx recent).1.action with
  | skip => exact ⟨hsim, rfl⟩
  | enter =>
    rw [← hsame hact]
    dsimp only
    split
    · exact ⟨hsim, rfl⟩
    · cases openPosition cfg.fillCfg ctx (cfg.strategy.shouldEnter st.strategy ctx recent).1 with
      | none => exact ⟨hsim, rfl⟩
      | some p => exact ⟨hsim, rfl⟩

/-- **One tick.** Two loops stay twins over a tick at which their strategies answer alike. -/
theorem twinLoops_step (st st' : MarketState K S P G) (tick : TickContext K)
    (htwins : TwinLoops Sim st st') (halike : AnswersAlike cfg Sim st tick) :
    TwinLoops Sim ((marketLoop cfg).next st tick) ((marketLoop cfg).next st' tick) := by
  obtain ⟨hsim, hrest⟩ := htwins
  change TwinLoops Sim (tickStep cfg st tick).1 (tickStep cfg st' tick).1
  generalize st'.strategy = s' at hsim hrest
  subst hrest
  unfold tickStep
  simp only [MarketState.observe_position]
  by_cases hposition : st.position.isSome = true
  · simp only [hposition, if_true]
    exact ⟨hsim, rfl⟩
  by_cases hwindow : cfg.entryWindow.Contains (st.indicators.update cfg.lib tick).1
  swap
  · simp only [hposition, hwindow, not_false_eq_true, if_true]
    exact ⟨hsim, rfl⟩
  simp only [hposition, hwindow, not_true_eq_false, if_false]
  have hnone : st.position = none := by simpa using hposition
  by_cases hbypass : cfg.bypassRisk = true
  · obtain ⟨hrecorded, hnext⟩ := halike ⟨hnone, hwindow, by simp [hbypass]⟩ s' hsim
    simp only [hbypass, if_true]
    exact twinLoops_evaluate cfg Sim (st.observe _ _) s' _ _ hrecorded hnext
  · rw [Bool.not_eq_true] at hbypass
    simp only [hbypass, MarketState.observe_risk, Bool.false_eq_true, if_false]
    -- both ask the same manager
    rcases hasked : canEnter cfg.riskCfg st.risk (st.indicators.update cfg.lib tick).1 with
      ⟨reason, risk⟩
    cases reason with
    | some reason => exact ⟨hsim, rfl⟩
    | none =>
      have hanswer : (canEnter cfg.riskCfg st.risk (st.indicators.update cfg.lib tick).1).1 =
          none := congrArg Prod.fst hasked
      obtain ⟨hrecorded, hnext⟩ := halike ⟨hnone, hwindow, fun _ => hanswer⟩ s' hsim
      exact twinLoops_evaluate cfg Sim { st.observe _ _ with risk := risk } s' _ _ hrecorded hnext

/-- All ticks of a market. -/
theorem twinLoops_final (st st' : MarketState K S P G) (ticks : List (TickContext K))
    (htwins : TwinLoops Sim st st') (halike : (marketLoop cfg).Along (AnswersAlike cfg Sim) st ticks) :
    TwinLoops Sim ((marketLoop cfg).final st ticks) ((marketLoop cfg).final st' ticks) :=
  (marketLoop cfg).twin_final (TwinLoops Sim) (AnswersAlike cfg Sim)
    (fun st st' tick => twinLoops_step cfg Sim st st' tick) st st' htwins ticks halike

variable (settle : Option (String → Option K))

/-- The loop over the markets as a machine: its labels are the markets.
SOURCE: engine/backtest_driver.py:168-332 -/
def marketsLoop : Machine (RunState K S P G) (String × List (TickContext K))
    (List (TickEvent K P)) :=
  ⟨fun run m => replayMarket cfg settle run m.1 m.2⟩

/-- A condition on every tick of a market, if it is replayed. -/
def EveryTick (C : MarketState K S P G → TickContext K → Prop) (run : RunState K S P G)
    (m : String × List (TickContext K)) : Prop :=
  marketTerms settle m.1 m.2 ≠ none → (marketLoop cfg).Along C (MarketState.start cfg run) m.2

/-- **One market.** Two runs stay twins over a market whose ticks the strategies answer alike. -/
theorem twinRuns_step (run run' : RunState K S P G) (m : String × List (TickContext K))
    (htwins : TwinRuns Sim run run') (halike : EveryTick cfg settle (AnswersAlike cfg Sim) run m) :
    TwinRuns Sim ((marketsLoop cfg settle).next run m) ((marketsLoop cfg settle).next run' m) := by
  change TwinRuns Sim (replayMarket cfg settle run m.1 m.2).1
    (replayMarket cfg settle run' m.1 m.2).1
  obtain ⟨hsim, hrest⟩ := htwins
  generalize run'.strategy = s' at hsim hrest
  subst hrest
  cases hterms : marketTerms settle m.1 m.2 with
  | none =>
    rcases replayMarket_of_none cfg settle m.1 m.2 hterms with h | h
    · rw [h, h]
      exact ⟨hsim, rfl⟩
    · rw [h, h]
      exact ⟨hsim, rfl⟩
  | some terms =>
    have halong := halike (by rw [hterms]; exact Option.some_ne_none terms)
    obtain ⟨hafter, heq⟩ := twinLoops_final cfg Sim (MarketState.start cfg run)
      (MarketState.start cfg { run with strategy := s' }) m.2 ⟨hsim, rfl⟩ halong
    rw [replayMarket_of_some cfg settle run m.1 m.2 terms hterms,
      replayMarket_of_some cfg settle { run with strategy := s' } m.1 m.2 terms hterms, heq,
      closeMarket_eq, closeMarket_eq]
    exact ⟨hafter, rfl⟩

/-- **All markets.** -/
theorem twinRuns_final (run run' : RunState K S P G) (markets : List (String × List (TickContext K)))
    (htwins : TwinRuns Sim run run')
    (halike : (marketsLoop cfg settle).Along (EveryTick cfg settle (AnswersAlike cfg Sim)) run markets) :
    TwinRuns Sim ((marketsLoop cfg settle).final run markets)
      ((marketsLoop cfg settle).final run' markets) :=
  (marketsLoop cfg settle).twin_final (TwinRuns Sim) (EveryTick cfg settle (AnswersAlike cfg Sim))
    (fun run run' m => twinRuns_step cfg Sim settle run run' m) run run' htwins markets halike

end Twins

/-! ## The vote -/

section Vote

variable {K R : Type} [Field K] [LinearOrder K] [FloorRing K] (lib : MathLib K)
  (choice : ReturnSampler K R) (cfg : TrendConfirmConfig K) (side : Side) (ctx : TickContext K)
  (recent : List (TickContext K))

/-- The vote on a side.
SOURCE: strategies/polymarket_btc5m/trend_confirm_t1_v1.py:282-296 -/
def votesFor (rng : R) : Bool :=
  (mcConfirms lib choice cfg rng (wantPositive side) ctx recent).1

/-- When the vote is for the side: it is enabled, and the estimate is beyond the threshold. -/
theorem votesFor_eq_true_iff (rng : R) :
    votesFor lib choice cfg side ctx recent rng = true ↔ cfg.mcEnabled = true ∧
      if wantPositive side then cfg.mcThreshold < mcProbUp lib choice cfg rng ctx recent
      else mcProbUp lib choice cfg rng ctx recent < 1 - cfg.mcThreshold := by
  unfold votesFor mcConfirms mcProbUp
  cases cfg.mcEnabled with
  | false => simp
  | true => cases wantPositive side <;> simp

/-- Two draws give the same vote, and the same estimate to the places that a trade keeps.
SOURCE: strategies/polymarket_btc5m/trend_confirm_t1_v1.py:296-345 -/
def SameVote (rng rng' : R) : Prop :=
  votesFor lib choice cfg side ctx recent rng = votesFor lib choice cfg side ctx recent rng' ∧
    roundTenThousandths (mcProbUp lib choice cfg rng ctx recent) =
      roundTenThousandths (mcProbUp lib choice cfg rng' ctx recent) ∧
    roundThousandths (mcProbUp lib choice cfg rng ctx recent) =
      roundThousandths (mcProbUp lib choice cfg rng' ctx recent)

/-- How many confirmations the filters lack. -/
def lacking : ℤ :=
  requiredConfirmations cfg (favAskOf ctx side) -
    ((trendFilters lib cfg side ctx recent).confirmations : ℤ)

/-- The draw of a tick that comes to the filters does not matter.  If the filters lack nothing, all
draws give the same vote; if they lack one confirmation and the vote counts, no draw votes for the
side, or every draw does, with the same estimate. -/
def DrawIndifferent : Prop :=
  (lacking lib cfg side ctx recent ≤ 0 →
    ∀ rng rng', SameVote lib choice cfg side ctx recent rng rng') ∧
  (lacking lib cfg side ctx recent = 1 → cfg.mcEnabled = true → cfg.mcShadow = false →
    (∀ rng, votesFor lib choice cfg side ctx recent rng = false) ∨
      (∀ rng, votesFor lib choice cfg side ctx recent rng = true) ∧
        ∀ rng rng', SameVote lib choice cfg side ctx recent rng rng')

/-- The tick confirms if the filters lack nothing, or one confirmation that the vote gives. -/
theorem trendConfirmed_iff_lacking (rng : R) :
    TrendConfirmed lib choice cfg rng side ctx recent ↔
      lacking lib cfg side ctx recent ≤ 0 ∨
        lacking lib cfg side ctx recent = 1 ∧ cfg.mcEnabled = true ∧ cfg.mcShadow = false ∧
          votesFor lib choice cfg side ctx recent rng = true := by
  have hvote : ∀ required : ℤ, ∀ n : ℕ,
      required ≤ ((n + if cfg.mcEnabled = true ∧ cfg.mcShadow = false ∧
        votesFor lib choice cfg side ctx recent rng = true then 1 else 0 : ℕ) : ℤ) ↔
      required - n ≤ 0 ∨ required - n = 1 ∧ cfg.mcEnabled = true ∧ cfg.mcShadow = false ∧
        votesFor lib choice cfg side ctx recent rng = true := by
    intro required n
    split
    · rename_i h
      simp only [h, and_true]
      push_cast
      omega
    · rename_i h
      simp only [h, and_false, or_false]
      push_cast
      omega
  exact hvote _ _

variable (entered : Finset String)

/-- The answer to a tick that confirms. -/
theorem answer_of_confirmed (hgate : trendGate cfg entered ctx = .ok side) (rng : R)
    (hconfirmed : TrendConfirmed lib choice cfg rng side ctx recent) :
    let vote := trendVote cfg (trendFilters lib cfg side ctx recent)
      (votesFor lib choice cfg side ctx recent rng)
    (trendShouldEnter lib choice cfg ⟨entered, rng⟩ ctx recent).1 =
      withFeatures (trendFeatures cfg ctx side (trendFilters lib cfg side ctx recent) vote
        (mcProbUp lib choice cfg rng ctx recent) (votesFor lib choice cfg side ctx recent rng))
        (trendEntry cfg ctx side vote) := by
  unfold trendShouldEnter
  simp only [hgate]
  rw [if_neg (not_lt.mpr hconfirmed)]
  rfl

/-- Two draws that both confirm give the same answer exactly when they give the same vote. -/
theorem answer_eq_iff (hgate : trendGate cfg entered ctx = .ok side) (rng rng' : R)
    (hconfirmed : TrendConfirmed lib choice cfg rng side ctx recent)
    (hconfirmed' : TrendConfirmed lib choice cfg rng' side ctx recent) :
    (trendShouldEnter lib choice cfg ⟨entered, rng⟩ ctx recent).1 =
        (trendShouldEnter lib choice cfg ⟨entered, rng'⟩ ctx recent).1 ↔
      SameVote lib choice cfg side ctx recent rng rng' := by
  rw [answer_of_confirmed lib choice cfg side ctx recent entered hgate rng hconfirmed,
    answer_of_confirmed lib choice cfg side ctx recent entered hgate rng' hconfirmed']
  constructor
  · intro h
    have hfeatures := Option.some.inj (congrArg (fun d => d.payload.features) h)
    exact ⟨congrArg TrendFeatures.mcConfirms hfeatures, congrArg TrendFeatures.mcProbUp hfeatures,
      congrArg TrendFeatures.mcProbUpShown hfeatures⟩
  · rintro ⟨hvote, hestimate, hshown⟩
    rw [hvote]
    unfold trendFeatures
    rw [hestimate, hshown]

/-- Two draws are recorded alike exactly when both confirm, with the same vote, or neither does. -/
theorem draws_recordedAlike_iff (hgate : trendGate cfg entered ctx = .ok side) (rng rng' : R) :
    RecordedAlike (trendShouldEnter lib choice cfg ⟨entered, rng⟩ ctx recent).1
        (trendShouldEnter lib choice cfg ⟨entered, rng'⟩ ctx recent).1 ↔
      (TrendConfirmed lib choice cfg rng side ctx recent ↔
          TrendConfirmed lib choice cfg rng' side ctx recent) ∧
        (TrendConfirmed lib choice cfg rng side ctx recent →
          SameVote lib choice cfg side ctx recent rng rng') := by
  have haction : ∀ rng, (trendShouldEnter lib choice cfg ⟨entered, rng⟩ ctx recent).1.action =
      if TrendConfirmed lib choice cfg rng side ctx recent then .enter else .skip := by
    intro rng
    rcases trendShouldEnter_cases lib choice cfg ⟨entered, rng⟩ ctx recent with
      ⟨reason, hother, -⟩ | ⟨side', hother, ⟨hconf, hact, -, -⟩ | ⟨hconf, hact, -, -⟩⟩
    · rw [hgate] at hother
      cases hother
    · rw [hgate] at hother
      cases hother
      rw [hact, if_neg hconf]
    · rw [hgate] at hother
      cases hother
      rw [hact, if_pos hconf]
  rw [recordedAlike_iff, haction, haction]
  by_cases hconf : TrendConfirmed lib choice cfg rng side ctx recent <;>
    by_cases hconf' : TrendConfirmed lib choice cfg rng' side ctx recent
  · simp only [hconf, hconf', if_true, true_and, true_imp_iff]
    exact answer_eq_iff lib choice cfg side ctx recent entered hgate rng rng' hconf hconf'
  · simp [hconf, hconf']
  · simp [hconf, hconf']
  · simp [hconf, hconf']

/-- **When the draw does not matter.** All draws are recorded alike exactly then.
SOURCE: strategies/polymarket_btc5m/trend_confirm_t1_v1.py:278-423, engine/monte_carlo.py:15-37 -/
theorem drawIndifferent_iff (hgate : trendGate cfg entered ctx = .ok side) :
    DrawIndifferent lib choice cfg side ctx recent ↔
      ∀ rng rng', RecordedAlike (trendShouldEnter lib choice cfg ⟨entered, rng⟩ ctx recent).1
        (trendShouldEnter lib choice cfg ⟨entered, rng'⟩ ctx recent).1 := by
  simp only [draws_recordedAlike_iff lib choice cfg side ctx recent entered hgate,
    trendConfirmed_iff_lacking]
  unfold DrawIndifferent
  constructor
  · rintro ⟨hnothing, hone⟩ rng rng'
    by_cases hlacking : lacking lib cfg side ctx recent ≤ 0
    · exact ⟨by simp [hlacking], fun _ => hnothing hlacking rng rng'⟩
    by_cases hcounts : lacking lib cfg side ctx recent = 1 ∧ cfg.mcEnabled = true ∧
        cfg.mcShadow = false
    swap
    · -- the vote is not asked for, or is not enough
      have hnone : ∀ rng, ¬(lacking lib cfg side ctx recent = 1 ∧ cfg.mcEnabled = true ∧
          cfg.mcShadow = false ∧ votesFor lib choice cfg side ctx recent rng = true) :=
        fun rng h => hcounts ⟨h.1, h.2.1, h.2.2.1⟩
      simp [hlacking, hnone]
    obtain ⟨hlack, henabled, hshadow⟩ := hcounts
    rcases hone hlack henabled hshadow with hno | ⟨hyes, hsame⟩
    · simp [hlacking, hno]
    · exact ⟨by simp [hyes], fun _ => hsame rng rng'⟩
  · intro h
    refine ⟨fun hlacking rng rng' => (h rng rng').2 (Or.inl hlacking), ?_⟩
    intro hlack henabled hshadow
    have hvote : ∀ rng, votesFor lib choice cfg side ctx recent rng = true ↔
        lacking lib cfg side ctx recent ≤ 0 ∨
          lacking lib cfg side ctx recent = 1 ∧ cfg.mcEnabled = true ∧ cfg.mcShadow = false ∧
            votesFor lib choice cfg side ctx recent rng = true := by
      intro rng
      simp [hlack, henabled, hshadow]
    by_cases hsome : ∃ rng, votesFor lib choice cfg side ctx recent rng = true
    · -- one draw votes for the side, so all do
      obtain ⟨rng, hrng⟩ := hsome
      have hall : ∀ rng', votesFor lib choice cfg side ctx recent rng' = true := fun rng' =>
        (hvote rng').mpr ((h rng rng').1.mp ((hvote rng).mp hrng))
      exact Or.inr ⟨hall, fun rng rng' => (h rng rng').2 ((hvote rng).mp (hall rng))⟩
    · left
      intro rng
      exact Bool.eq_false_iff.mpr fun hrng => hsome ⟨rng, hrng⟩

omit [FloorRing K] in
/-- The series has a price for each tick of the history and the current one at most. -/
theorem length_spotSeries_le : (spotSeries ctx recent).length ≤ recent.length + 1 := by
  unfold spotSeries
  rw [List.length_append, List.length_singleton]
  have hfilter := List.length_filter_le (0 < ·) (recent.map (·.spotPrice))
  rw [List.length_map] at hfilter
  exact Nat.add_le_add_right hfilter 1

/-- With the vote off, or with fewer than 31 prices, nothing is drawn. -/
def NotDrawn : Prop := cfg.mcEnabled = false ∨ (spotSeries ctx recent).length < 31

/-- One estimate gives one vote. -/
theorem sameVote_of_mcProbUp_eq {rng rng' : R} (h : mcProbUp lib choice cfg rng ctx recent =
    mcProbUp lib choice cfg rng' ctx recent) : SameVote lib choice cfg side ctx recent rng rng' := by
  refine ⟨?_, congrArg roundTenThousandths h, congrArg roundThousandths h⟩
  rw [Bool.eq_iff_iff, votesFor_eq_true_iff, votesFor_eq_true_iff, h]

/-- Where nothing is drawn, all draws give the same vote.
SOURCE: engine/monte_carlo.py:24-28 -/
theorem NotDrawn.sameVote (h : NotDrawn cfg ctx recent) (rng rng' : R) :
    SameVote lib choice cfg side ctx recent rng rng' := by
  apply sameVote_of_mcProbUp_eq
  rcases h with hoff | hfew
  · simp [mcProbUp, hoff]
  · have hhalf : ∀ rng price strike horizonS nSims, mcBootstrapProbUp lib choice rng
        (spotSeries ctx recent) price strike horizonS nSims = (1 / 2, rng) :=
      fun _ _ _ _ _ => if_pos (Or.inl hfew)
    simp only [mcProbUp, hhalf]

/-- One vote for all draws makes the draw indifferent. -/
theorem drawIndifferent_of_sameVote
    (h : ∀ rng rng', SameVote lib choice cfg side ctx recent rng rng') :
    DrawIndifferent lib choice cfg side ctx recent := by
  refine ⟨fun _ => h, fun _ _ _ => ?_⟩
  by_cases hsome : ∃ rng, votesFor lib choice cfg side ctx recent rng = true
  · obtain ⟨rng, hrng⟩ := hsome
    exact Or.inr ⟨fun rng' => (h rng' rng).1.trans hrng, h⟩
  · left
    intro rng
    exact Bool.eq_false_iff.mpr fun hrng => hsome ⟨rng, hrng⟩

end Vote

/-! ## Executions that differ in the ambient entropy -/

section Executions

variable {K R G : Type} [Field K] [LinearOrder K] [FloorRing K] (choice : ReturnSampler K R)
  (trendCfg : TrendConfirmConfig K) (cfg : BacktestConfig K (TrendState R) (TrendPayload K) G)

/-- Strategy objects that have entered the same markets. -/
def SameEntered (s s' : TrendState R) : Prop := s.perWindowEntered = s'.perWindowEntered

/-- The draw does not matter at a tick the loop asks about, if it comes to the filters. -/
def DrawSettled (st : MarketState K (TrendState R) (TrendPayload K) G) (tick : TickContext K) :
    Prop :=
  Asked cfg st tick → ∀ side,
    let ctx := (st.indicators.update cfg.lib tick).1
    trendGate trendCfg st.strategy.perWindowEntered ctx = .ok side →
      DrawIndifferent cfg.lib choice trendCfg side ctx st.recentCtxs

/-- The arguments of a run with `trend_confirm_t1_v1`. -/
abbrev trendRun : BacktestConfig K (TrendState R) (TrendPayload K) G :=
  { cfg with strategy := trendConfirm cfg.lib choice trendCfg }

/-- All draws of a tick are recorded alike exactly when the draw does not matter, if the tick comes
to the filters. -/
theorem forall_recordedAlike_iff (lib : MathLib K) (entered : Finset String) (ctx : TickContext K)
    (recent : List (TickContext K)) :
    (∀ rng rng', RecordedAlike (trendShouldEnter lib choice trendCfg ⟨entered, rng⟩ ctx recent).1
        (trendShouldEnter lib choice trendCfg ⟨entered, rng'⟩ ctx recent).1) ↔
      ∀ side, trendGate trendCfg entered ctx = .ok side →
        DrawIndifferent lib choice trendCfg side ctx recent := by
  cases hgate : trendGate trendCfg entered ctx with
  | error reason =>
    have hsame : ∀ rng, (trendShouldEnter lib choice trendCfg ⟨entered, rng⟩ ctx recent).1 =
        trendSkip reason := by
      intro rng
      unfold trendShouldEnter
      simp only [hgate]
    simp only [hsame, reduceCtorEq, false_imp_iff, implies_true, iff_true]
    exact fun _ _ => ⟨rfl, fun _ => rfl⟩
  | ok side =>
    rw [← drawIndifferent_iff lib choice trendCfg side ctx recent entered hgate]
    simp

/-- The strategies of two executions answer a tick alike exactly when its draw does not matter. -/
theorem answersAlike_iff (st : MarketState K (TrendState R) (TrendPayload K) G)
    (tick : TickContext K) :
    AnswersAlike (trendRun choice trendCfg cfg) SameEntered st tick ↔
      DrawSettled choice trendCfg (trendRun choice trendCfg cfg) st tick := by
  refine imp_congr_right fun _ => ?_
  dsimp only
  rw [← forall_recordedAlike_iff]
  change (∀ s', SameEntered st.strategy s' → RecordedAlike
      (trendShouldEnter cfg.lib choice trendCfg st.strategy _ _).1
      (trendShouldEnter cfg.lib choice trendCfg s' _ _).1 ∧
    SameEntered (trendShouldEnter cfg.lib choice trendCfg st.strategy _ _).2
      (trendShouldEnter cfg.lib choice trendCfg s' _ _).2) ↔ _
  generalize (st.indicators.update (trendRun choice trendCfg cfg).lib tick).1 = ctx
  constructor
  · intro h rng rng'
    exact (h ⟨_, rng⟩ rfl).1.symm.trans (h ⟨_, rng'⟩ rfl).1
  · rintro h ⟨entered, rng⟩ hsame
    cases hsame
    have halike := h st.strategy.rng rng
    refine ⟨halike, ?_⟩
    unfold SameEntered
    rw [trendShouldEnter_perWindowEntered, trendShouldEnter_perWindowEntered, ← halike.action]

/-- No draw matters at any tick of a run. -/
def NoDrawMatters (settle : Option (String → Option K))
    (run : RunState K (TrendState R) (TrendPayload K) G)
    (markets : List (String × List (TickContext K))) : Prop :=
  (marketsLoop (trendRun choice trendCfg cfg) settle).Along
    (EveryTick (trendRun choice trendCfg cfg) settle
      (DrawSettled choice trendCfg (trendRun choice trendCfg cfg))) run markets

/-- In a run with the vote off, or over markets of at most thirty ticks, no draw matters. -/
theorem noDrawMatters_of_not_drawn (settle : Option (String → Option K))
    (run : RunState K (TrendState R) (TrendPayload K) G)
    (markets : List (String × List (TickContext K)))
    (h : trendCfg.mcEnabled = false ∨ ∀ m ∈ markets, m.2.length ≤ 30) :
    NoDrawMatters choice trendCfg cfg settle run markets := by
  intro pre m post hmarkets _ before tick after hticks _ side ctx _
  refine drawIndifferent_of_sameVote _ _ _ _ _ _ (NotDrawn.sameVote _ _ _ _ _ _ ?_)
  refine h.imp_right fun hshort => ?_
  have hlength := hshort m (by rw [hmarkets]; simp)
  rw [hticks, List.length_append, List.length_cons] at hlength
  refine lt_of_le_of_lt (length_spotSeries_le ctx _) ?_
  rw [final_recentCtxs_length]
  change 0 + before.length + 1 < 31
  omega

/-- **Reproducible backtests.** Two executions of a backtest with `trend_confirm_t1_v1` on the same
arguments give the same trades and decision counts, if at every tick the strategy is asked about
that comes to the filters, the draw of the Monte Carlo vote does not matter.
SOURCE: engine/backtest_driver.py:126-346, engine/monte_carlo.py:15-37,
strategies/polymarket_btc5m/trend_confirm_t1_v1.py:278-423 -/
theorem backtest_reproducible (settle : Option (String → Option K)) (risk : RiskState K) (rng : G)
    (markets : List (String × List (TickContext K))) (ambient ambient' : R)
    (hsettled : NoDrawMatters choice trendCfg cfg settle (startRun ⟨∅, ambient⟩ risk rng) markets) :
    let run entropy := runBacktest (trendRun choice trendCfg cfg) settle ⟨∅, entropy⟩ risk rng markets
    (run ambient).trades = (run ambient').trades ∧
      (run ambient).decisionCounts = (run ambient').decisionCounts := by
  have halike : AnswersAlike (trendRun choice trendCfg cfg) SameEntered =
      DrawSettled choice trendCfg (trendRun choice trendCfg cfg) := by
    funext st tick
    exact propext (answersAlike_iff choice trendCfg cfg st tick)
  unfold NoDrawMatters at hsettled
  rw [← halike] at hsettled
  exact (twinRuns_final (trendRun choice trendCfg cfg) SameEntered settle
    (startRun ⟨∅, ambient⟩ risk rng) (startRun ⟨∅, ambient'⟩ risk rng) markets ⟨rfl, rfl⟩
    hsettled).results

end Executions

/-! ## Before the entry window -/

section Waiting

variable {K S P G : Type} [Field K] [LinearOrder K] [FloorRing K] (cfg : BacktestConfig K S P G)

/-- What the filters read of a tick of the history. -/
def tsSpot (t : TickContext K) : K × K := (t.ts, t.spotPrice)

/-- Before the entry window the loop only collects the history. -/
theorem waiting_run (ticks : List (TickContext K))
    (h : ∀ tick ∈ ticks, ¬cfg.entryWindow.Contains tick) (st : MarketState K S P G) :
    let after := (marketLoop cfg).final st ticks
    after.strategy = st.strategy ∧ after.position = st.position ∧
      after.decisionCounts = st.decisionCounts ∧
      after.recentCtxs.map tsSpot = st.recentCtxs.map tsSpot ++ ticks.map tsSpot := by
  induction ticks generalizing st with
  | nil => simp
  | cons tick ticks ih =>
    obtain ⟨htick, hrest⟩ := List.forall_mem_cons.mp h
    have hnext : (marketLoop cfg).next st tick = st.observe (st.indicators.update cfg.lib tick).1
        (st.indicators.update cfg.lib tick).2 := tickStep_waiting cfg st tick htick
    obtain ⟨hstrategy, hposition, hcounts, hrecent⟩ := ih hrest ((marketLoop cfg).next st tick)
    rw [hnext] at hstrategy hposition hcounts hrecent
    dsimp only
    rw [Machine.final_cons, hnext]
    refine ⟨hstrategy, hposition, hcounts, ?_⟩
    rw [hrecent]
    simp [MarketState.observe, tsSpot]

omit [FloorRing K] in
/-- An answer is counted. -/
theorem evaluate_enter_count (st : MarketState K S P G) (ctx : TickContext K)
    (recent : List (TickContext K)) :
    (evaluate cfg st ctx recent).1.decisionCounts.enter = st.decisionCounts.enter +
      if (cfg.strategy.shouldEnter st.strategy ctx recent).1.action = .enter then 1 else 0 := by
  unfold evaluate
  dsimp only
  cases (cfg.strategy.shouldEnter st.strategy ctx recent).1.action with
  | skip => rfl
  | enter =>
    dsimp only
    split
    · rfl
    · cases openPosition cfg.fillCfg ctx (cfg.strategy.shouldEnter st.strategy ctx recent).1 with
      | none => rfl
      | some p => rfl

end Waiting

noncomputable section Instance

/-- A recorded second of a window that opened at 64000, with Chainlink at 63990. -/
def votingTick (i : ℕ) (spot : ℝ) : TickContext ℝ :=
  rowToTick
    { ts := 1200 + i
      marketSlug := "btc-updown-5m-1500"
      tInWindow := i
      windowCloseTs := 1500
      spotPrice := some spot
      chainlinkPrice := some 63990
      openPrice := some 64000
      pmYesBid := some (55 / 100)
      pmYesAsk := some (57 / 100)
      pmNoBid := some (43 / 100)
      pmNoAsk := some (45 / 100)
      pmDepthYes := some 10
      pmDepthNo := some 10
      pmImbalance := none
      pmSpreadBps := none
      impliedProbYes := none }
    (some 64000)

/-- Thirty flat ticks, the last of them a second before the horizon. -/
def flatTicks : List (TickContext ℝ) :=
  (List.range' 120 29).map (fun i => votingTick i 64000) ++ [votingTick 239 64000]

/-- At the horizon the price is four basis points up. -/
def upTick : TickContext ℝ := votingTick 240 (640256 / 10)

/-- The defaults, with the vote counted. -/
def countedVote : TrendConfirmConfig ℝ := { TrendConfirmConfig.default with mcShadow := false }

/-- A generator that draws the last return or the first one each time, as the entropy has it. -/
def sameReturn : ReturnSampler ℝ Bool := fun last returns nSims horizonS =>
  (List.replicate nSims (List.replicate horizonS
    (if last then returns.getLastD 0 else returns.headD 0)), last)

/-- A generator that draws the last return at every second of a path but the first one, where the
entropy decides as before. -/
def laterRises : ReturnSampler ℝ Bool := fun last returns nSims horizonS =>
  (List.replicate nSims ((if last then returns.getLastD 0 else returns.headD 0) ::
    List.replicate (horizonS - 1) (returns.getLastD 0)), last)

/-- A backtest that asks the strategy from 240 s on. -/
def votingBacktest : BacktestConfig ℝ (TrendState Bool) (TrendPayload ℝ) Unit where
  lib := realMath
  strategy := trendConfirm realMath sameReturn countedVote
  stakeUsd := 5
  fillCfg := ⟨10, 1, false, 1 / 20⟩
  entryWindow := ⟨240, 300⟩
  riskCfg := RiskConfig.permissive
  indicatorCfg := IndicatorConfig.default
  bypassRisk := true
  random g := (1 / 2, g)

/-- The tick at the horizon after the indicators. -/
def askedTick (ind : IndicatorStack ℝ) : TickContext ℝ := (ind.update realMath upTick).1

variable (ind : IndicatorStack ℝ) (recent : List (TickContext ℝ))

/-- The strike of the tick. -/
@[simp] theorem askedTick_openPrice : (askedTick ind).openPrice = 64000 :=
  if_pos (by norm_num)

/-- Its Chainlink price. -/
@[simp] theorem askedTick_chainlinkPrice : (askedTick ind).chainlinkPrice = some 63990 := by
  change Option.filter (fun x : ℝ => decide (x ≠ 0)) (some 63990) = some 63990
  simp

/-- Its spot price. -/
@[simp] theorem askedTick_spotPrice : (askedTick ind).spotPrice = 640256 / 10 := rfl

/-- The tick is four basis points above the strike. -/
theorem askedTick_deltaBps : (askedTick ind).deltaBps = 4 := by
  change deltaBps (640256 / 10) (askedTick ind).openPrice = 4
  rw [askedTick_openPrice]
  norm_num [deltaBps]

/-- At the horizon every gate lets the rise pass. -/
theorem trendGate_askedTick : trendGate countedVote ∅ (askedTick ind) = .ok .yesUp := by
  rw [trendGate_eq_ok_iff]
  refine ⟨?_, Finset.notMem_empty _, ?_, ?_, ?_⟩
  · change |((240 : ℕ) : ℝ) - ((240 : ℤ) : ℝ)| ≤ 2
    norm_num
  · refine if_pos ?_
    rw [askedTick_deltaBps]
    norm_num [countedVote, TrendConfirmConfig.default]
  · unfold chainlinkGate
    rw [askedTick_chainlinkPrice, askedTick_openPrice]
    norm_num [countedVote, TrendConfirmConfig.default, wantPositive]
  · have hask : favAskOf (askedTick ind) .yesUp = 57 / 100 := rfl
    unfold priceGate
    rw [hask]
    norm_num [countedVote, TrendConfirmConfig.default]

/-- The rise of the last tick, as a return. -/
def rise : ℝ := Real.log (640256 / 10) - Real.log 64000

/-- The rise is that of four basis points. -/
theorem rise_eq : rise = Real.log (10004 / 10000) := by
  unfold rise
  rw [← Real.log_div (by norm_num) (by norm_num)]
  norm_num

/-- It is within the threshold of the CUSUM filter. -/
theorem rise_bounds : 1 - (10004 / 10000 : ℝ)⁻¹ ≤ rise ∧ rise ≤ 5 / 10000 := by
  rw [rise_eq]
  refine ⟨Real.one_sub_inv_le_log_of_pos (by norm_num), ?_⟩
  have h := Real.log_le_sub_one_of_pos (x := 10004 / 10000) (by norm_num)
  linarith

/-- It is a rise. -/
theorem rise_nonneg : 0 ≤ rise := by
  have hlow := rise_bounds.1
  norm_num at hlow
  linarith

/-- The history at the horizon, as the filters read it. -/
def FlatHistory : Prop := recent.map tsSpot = flatTicks.map tsSpot

variable {recent}

/-- The prices of the flat history. -/
theorem spots_flatHistory (h : FlatHistory recent) :
    recent.map (·.spotPrice) = List.replicate 30 64000 := by
  have hspots := congrArg (List.map Prod.snd) h
  rw [List.map_map, List.map_map] at hspots
  refine hspots.trans ?_
  rw [List.eq_replicate_iff]
  refine ⟨by simp [flatTicks], ?_⟩
  intro x hx
  obtain ⟨tick, htick, rfl⟩ := List.mem_map.mp hx
  rcases List.mem_append.mp htick with htick | htick
  · obtain ⟨i, -, rfl⟩ := List.mem_map.mp htick
    rfl
  · rw [List.mem_singleton.mp htick]
    rfl

/-- The series at the horizon: thirty flat prices and the rise. -/
theorem spotSeries_flatHistory (h : FlatHistory recent) :
    spotSeries (askedTick ind) recent = List.replicate 30 64000 ++ [640256 / 10] := by
  unfold spotSeries
  rw [spots_flatHistory h, askedTick_spotPrice, List.filter_eq_self.mpr]
  intro x hx
  rw [List.eq_of_mem_replicate hx]
  norm_num

/-- The returns: nothing, then the rise. -/
theorem logReturns_flatHistory :
    logReturns realMath (List.replicate 30 64000 ++ [640256 / 10]) =
      List.replicate 29 0 ++ [rise] :=
  logReturns_replicate_concat realMath (by norm_num) (by norm_num) 29

/-- One rise takes the price from Chainlink's over the strike. -/
theorem above_of_rise {gain : ℝ} (h : rise ≤ gain) :
    64000 < realMath.exp (realMath.log 63990 + gain) := by
  change 64000 < Real.exp (Real.log 63990 + gain)
  have hgap : Real.log 64000 - Real.log 63990 ≤ 64000 / 63990 - 1 := by
    rw [← Real.log_div (by norm_num) (by norm_num)]
    exact Real.log_le_sub_one_of_pos (by norm_num)
  have hrise := rise_bounds.1
  rw [← Real.log_lt_iff_lt_exp (by norm_num)]
  norm_num at hgap hrise
  linarith

/-- Without a rise it stays below. -/
theorem not_above_flat : ¬64000 < realMath.exp (realMath.log 63990 + 0) := by
  have hflat : realMath.exp (realMath.log 63990 + 0) = 63990 := by
    change Real.exp (Real.log 63990 + 0) = 63990
    rw [add_zero, Real.exp_log (by norm_num)]
  rw [hflat]
  norm_num

/-- If all paths are one, the estimate is 1 or 0, as that path ends. -/
theorem probUp_of_path {choice : ReturnSampler ℝ Bool} {last : Bool} {path : List ℝ}
    (hdraw : choice last (List.replicate 29 0 ++ [rise]) 1000 60 =
      (List.replicate 1000 path, last)) (above : Bool)
    (habove : 64000 < realMath.exp (realMath.log 63990 + path.sum) ↔ above = true) :
    (mcBootstrapProbUp realMath choice last (List.replicate 30 64000 ++ [640256 / 10])
      63990 64000 60 1000).1 = if above then 1 else 0 := by
  have hpositive : (List.replicate 30 (64000 : ℝ) ++ [640256 / 10]).filter (0 < ·) =
      List.replicate 30 64000 ++ [640256 / 10] := by
    rw [List.filter_eq_self]
    intro x hx
    rcases List.mem_append.mp hx with hx | hx
    · rw [List.eq_of_mem_replicate hx]
      norm_num
    · rw [List.mem_singleton.mp hx]
      norm_num
  unfold mcBootstrapProbUp
  rw [if_neg (by norm_num), hpositive]
  dsimp only
  rw [if_neg (by simp), logReturns_flatHistory, if_neg (by simp), hdraw]
  simp only [List.map_replicate, List.countP_replicate, decide_eq_true_eq, habove,
    List.length_replicate]
  cases above with
  | false => simp
  | true => simp

/-- The vote at the horizon draws from the thirty returns of the flat history. -/
theorem mcProbUp_flatHistory (h : FlatHistory recent) (choice : ReturnSampler ℝ Bool) (last : Bool) :
    mcProbUp realMath choice countedVote last (askedTick ind) recent =
      (mcBootstrapProbUp realMath choice last (List.replicate 30 64000 ++ [640256 / 10])
        63990 64000 60 1000).1 := by
  have henabled : countedVote.mcEnabled = true := rfl
  have hhorizon : (max 1 ⌊(askedTick ind).tToClose⌋).toNat = 60 := by
    have hclose : (askedTick ind).tToClose = (60 : ℤ) := by
      change max (0 : ℝ) (1500 - (1200 + (240 : ℕ))) = _
      norm_num
    rw [hclose, Int.floor_intCast]
    rfl
  unfold mcProbUp
  rw [if_pos henabled, spotSeries_flatHistory ind h, askedTick_chainlinkPrice,
    askedTick_openPrice, hhorizon, Option.getD_some]
  dsimp only
  rw [if_pos (by norm_num)]
  rfl

/-- The last return of the history is the rise. -/
theorem lastReturn_eq : (List.replicate 29 0 ++ [rise]).getLastD 0 = rise := by
  simp

/-- The first one is none. -/
theorem firstReturn_eq : (List.replicate 29 0 ++ [rise]).headD 0 = 0 := rfl

/-- Where all draws are the same return, the estimate is as the entropy has it. -/
theorem probUp_sameReturn (h : FlatHistory recent) (last : Bool) :
    mcProbUp realMath sameReturn countedVote last (askedTick ind) recent =
      if last then 1 else 0 := by
  rw [mcProbUp_flatHistory ind h]
  have hrise := rise_nonneg
  cases last with
  | false =>
    refine probUp_of_path rfl false ?_
    rw [if_neg Bool.false_ne_true, firstReturn_eq, List.sum_replicate, smul_zero]
    exact iff_of_false not_above_flat Bool.false_ne_true
  | true =>
    refine probUp_of_path rfl true (iff_of_true (above_of_rise ?_) rfl)
    rw [if_pos rfl, lastReturn_eq, List.sum_replicate, nsmul_eq_mul]
    push_cast
    linarith

/-- Where only the first return of a path is left to the entropy, all paths end above the strike. -/
theorem probUp_laterRises (h : FlatHistory recent) (last : Bool) :
    mcProbUp realMath laterRises countedVote last (askedTick ind) recent = 1 := by
  rw [mcProbUp_flatHistory ind h]
  have hrise := rise_nonneg
  refine (probUp_of_path rfl true (iff_of_true (above_of_rise ?_) rfl)).trans (if_pos rfl)
  rw [lastReturn_eq, firstReturn_eq, List.sum_cons, List.sum_replicate, nsmul_eq_mul]
  push_cast
  cases last with
  | false =>
    rw [if_neg Bool.false_ne_true]
    linarith
  | true =>
    rw [if_pos rfl]
    linarith

/-- The prices of the candle, by what the filters read of the history. -/
theorem recentSpots_eq (cfg : TrendConfirmConfig ℝ) (ctx : TickContext ℝ) :
    recentSpots cfg ctx recent = ((recent.map tsSpot).filter fun e =>
      0 < e.2 ∧ ctx.ts - e.1 ≤ cfg.recentWindowS).map Prod.snd ++ [ctx.spotPrice] := by
  unfold recentSpots
  rw [List.filter_map, List.map_map]
  rfl

/-- Of the flat ticks the candle only has the last. -/
theorem recentSpots_flatHistory (h : FlatHistory recent) :
    recentSpots countedVote (askedTick ind) recent = [64000, 640256 / 10] := by
  have hold : ((List.range' 120 29).map (tsSpot ∘ fun i => votingTick i 64000)).filter (fun e =>
      0 < e.2 ∧ (askedTick ind).ts - e.1 ≤ countedVote.recentWindowS) = [] := by
    rw [List.filter_eq_nil_iff]
    intro e he
    obtain ⟨i, hi, rfl⟩ := List.mem_map.mp he
    have hlt : (i : ℝ) ≤ 148 := by exact_mod_cast Nat.le_of_lt_succ (List.mem_range'_1.mp hi).2
    rw [decide_eq_true_eq, not_and, not_le]
    intro _
    change (60 : ℝ) < 1200 + ((240 : ℕ) : ℝ) - (1200 + i)
    push_cast
    linarith
  rw [recentSpots_eq, h, flatTicks, List.map_append, List.map_map, List.filter_append, hold,
    List.nil_append, List.map_singleton, List.filter_cons_of_pos]
  · rfl
  · change decide ((0 : ℝ) < 64000 ∧ 1200 + ((240 : ℕ) : ℝ) - (1200 + ((239 : ℕ) : ℝ)) ≤ 60) = true
    norm_num

/-- Of the six filters the microprice and the candle confirm. -/
theorem trendFilters_flatHistory (h : FlatHistory recent) :
    (trendFilters realMath countedVote .yesUp (askedTick ind) recent).confirmations = 2 := by
  generalize hf : trendFilters realMath countedVote .yesUp (askedTick ind) recent = f
  have hfracdiff : f.fracdiff = false := by
    have hshort : fracDiffSeries (List.replicate 30 (64000 : ℝ) ++ [640256 / 10])
        countedVote.afml.fracD countedVote.afml.fracSize = 0 :=
      if_pos (by simp [countedVote, TrendConfirmConfig.default, AfmlParams.default])
    rw [← hf]
    simp only [trendFilters, computeAfmlFeatures, spotSeries_flatHistory ind h, hshort]
    simp [wantPositive]
  have hautocorr : f.autocorr = false := by
    have hshort : returnsAutocorrMulti realMath (List.replicate 30 (64000 : ℝ) ++ [640256 / 10])
        countedVote.afml.arLags = countedVote.afml.arLags.map fun lag => (lag, 0) :=
      if_pos ⟨30, by simp [countedVote, TrendConfirmConfig.default, AfmlParams.default], by simp⟩
    rw [← hf]
    simp only [trendFilters, computeAfmlFeatures, spotSeries_flatHistory ind h, hshort]
    simp [countedVote, TrendConfirmConfig.default, AfmlParams.default]
  have hcusum : f.cusum = false := by
    have hrate : cusumEventRate realMath countedVote.afml
        (List.replicate 30 (64000 : ℝ) ++ [640256 / 10]) = 0 := by
      have hwindow : cusumWindow countedVote.afml (List.replicate 29 0 ++ [rise]) =
          List.replicate 29 0 ++ [rise] :=
        if_neg (by simp [countedVote, TrendConfirmConfig.default, AfmlParams.default])
      have hnone : cusumEvents (List.replicate 29 0 ++ [rise]) countedVote.afml.cusumThreshold =
          [] := by
        refine cusumEvents_replicate_concat ?_ rise_nonneg rise_bounds.2 29
        norm_num [countedVote, TrendConfirmConfig.default, AfmlParams.default]
      unfold cusumEventRate
      rw [if_neg (by simp), logReturns_flatHistory, hwindow]
      dsimp only
      rw [hnone]
      simp
    rw [← hf]
    simp only [trendFilters, computeAfmlFeatures, spotSeries_flatHistory ind h, hrate]
    norm_num [countedVote, TrendConfirmConfig.default]
  have hmicroprice : f.microprice = true := by
    rw [← hf]
    change decide (decide ((1 / 2 : ℝ) < microprice (55 / 100) (57 / 100) 10 10) = true) = true
    norm_num [microprice]
  have hcandle : f.candle = true := by
    rw [← hf]
    simp only [trendFilters, recentSpots_flatHistory ind h, candleConfirms]
    norm_num [wantPositive, countedVote, TrendConfirmConfig.default]
  have hprior : f.priorTrend = false := by
    rw [← hf]
    simp only [trendFilters, priorTrendConfirms]
    rw [if_neg]
    simp [countedVote, TrendConfirmConfig.default]
  unfold TrendFilters.confirmations TrendFilters.named
  simp [hfracdiff, hautocorr, hcusum, hmicroprice, hcandle, hprior]

/-- The filters lack one confirmation. -/
theorem lacking_flatHistory (h : FlatHistory recent) :
    lacking realMath countedVote .yesUp (askedTick ind) recent = 1 := by
  have hask : favAskOf (askedTick ind) .yesUp = 57 / 100 := rfl
  have hrequired : requiredConfirmations countedVote (57 / 100) = 3 :=
    if_neg (by norm_num [countedVote, TrendConfirmConfig.default])
  unfold lacking
  rw [hask, hrequired, trendFilters_flatHistory ind h]
  norm_num

/-- So the vote decides: the strategy enters on an estimate of 1, and skips on one of 0. -/
theorem enters_iff_above (h : FlatHistory recent) {choice : ReturnSampler ℝ Bool} {last above : Bool}
    (hestimate : mcProbUp realMath choice countedVote last (askedTick ind) recent =
      if above then 1 else 0) :
    (trendShouldEnter realMath choice countedVote ⟨∅, last⟩ (askedTick ind) recent).1.action =
      .enter ↔ above = true := by
  have hvote : votesFor realMath choice countedVote .yesUp (askedTick ind) recent last = true ↔
      above = true := by
    rw [votesFor_eq_true_iff, hestimate]
    cases above <;> norm_num [countedVote, TrendConfirmConfig.default, wantPositive]
  rw [trendShouldEnter_enter_iff, trendGate_askedTick]
  simp only [Except.ok.injEq, exists_eq_left', trendConfirmed_iff_lacking, lacking_flatHistory ind h,
    hvote]
  simp [countedVote, TrendConfirmConfig.default]

/-- The first thirty ticks come before the entry window. -/
theorem flatTicks_wait : ∀ tick ∈ flatTicks, ¬votingBacktest.entryWindow.Contains tick := by
  have hearly : ∀ i : ℕ, i ≤ 239 → ¬votingBacktest.entryWindow.Contains (votingTick i 64000) := by
    intro i hi hcontains
    have hlow : ((240 : ℤ) : ℝ) ≤ i := hcontains.1
    have hlt : (i : ℝ) ≤ 239 := by exact_mod_cast hi
    norm_num at hlow
    linarith
  intro tick htick
  rcases List.mem_append.mp htick with htick | htick
  · obtain ⟨i, hi, rfl⟩ := List.mem_map.mp htick
    have hlt := (List.mem_range'_1.mp hi).2
    exact hearly i (by omega)
  · rw [List.mem_singleton.mp htick]
    exact hearly 239 le_rfl

/-- The estimate of a generator at the horizon, over any history that the filters read as flat. -/
def Estimates (choice : ReturnSampler ℝ Bool) (last above : Bool) : Prop :=
  ∀ (ind : IndicatorStack ℝ) (recent : List (TickContext ℝ)), FlatHistory recent →
    mcProbUp realMath choice countedVote last (askedTick ind) recent = if above then 1 else 0

/-- The loop counts an entry exactly when the estimate is 1. -/
theorem votingLoop_enters {choice : ReturnSampler ℝ Bool} {last above : Bool}
    (hestimate : Estimates choice last above)
    (st : MarketState ℝ (TrendState Bool) (TrendPayload ℝ) Unit) (hstrategy : st.strategy = ⟨∅, last⟩)
    (hposition : st.position = none) (hrecent : st.recentCtxs = []) :
    ((marketLoop (trendRun choice countedVote votingBacktest)).final st
      (flatTicks ++ [upTick])).decisionCounts.enter =
        st.decisionCounts.enter + if above then 1 else 0 := by
  let cfg := trendRun choice countedVote votingBacktest
  obtain ⟨hstrategy', hposition', hcounts', hrecent'⟩ := waiting_run cfg flatTicks flatTicks_wait st
  rw [Machine.final_concat]
  generalize (marketLoop cfg).final st flatTicks = st' at *
  rw [hrecent, List.map_nil, List.nil_append] at hrecent'
  have hwindow : cfg.entryWindow.Contains (askedTick st'.indicators) := by
    change ((240 : ℤ) : ℝ) ≤ ((240 : ℕ) : ℝ) ∧ ((240 : ℕ) : ℝ) ≤ ((300 : ℤ) : ℝ)
    norm_num
  have hnext : (marketLoop cfg).next st' upTick =
      (evaluate cfg (st'.observe (askedTick st'.indicators)
        (st'.indicators.update realMath upTick).2) (askedTick st'.indicators) st'.recentCtxs).1 :=
    tickStep_bypassed cfg st' upTick rfl (hposition'.trans hposition) hwindow
  rw [hnext, evaluate_enter_count]
  change st'.decisionCounts.enter + (if (trendShouldEnter realMath choice countedVote
    st'.strategy (askedTick st'.indicators) st'.recentCtxs).1.action = .enter then 1 else 0) = _
  rw [hstrategy', hstrategy, hcounts']
  simp only [enters_iff_above st'.indicators hrecent' (hestimate _ _ hrecent')]

/-- So does the run. -/
theorem votingRun_enters {choice : ReturnSampler ℝ Bool} {last above : Bool}
    (hestimate : Estimates choice last above) :
    (runBacktest (trendRun choice countedVote votingBacktest) none ⟨∅, last⟩ RiskState.init ()
      [("btc-updown-5m-1500", flatTicks ++ [upTick])]).decisionCounts.enter =
        if above then 1 else 0 := by
  obtain ⟨terms, hterms⟩ := exists_marketTerms "btc-updown-5m-1500" (flatTicks ++ [upTick])
    (List.append_ne_nil_of_right_ne_nil _ (List.cons_ne_nil upTick []))
  rw [runBacktest_eq, List.foldl_cons, List.foldl_nil,
    replayMarket_of_some _ none _ _ _ terms hterms, closeMarket_eq]
  dsimp only
  rw [votingLoop_enters hestimate _ rfl rfl rfl]
  exact Nat.zero_add _

/-- Only the tick at the horizon is asked about. -/
theorem asked_voting {choice : ReturnSampler ℝ Bool}
    {run : RunState ℝ (TrendState Bool) (TrendPayload ℝ) Unit} {before after : List (TickContext ℝ)}
    {tick : TickContext ℝ} (hticks : flatTicks ++ [upTick] = before ++ tick :: after)
    (hasked : Asked (trendRun choice countedVote votingBacktest)
      ((marketLoop (trendRun choice countedVote votingBacktest)).final
        (MarketState.start (trendRun choice countedVote votingBacktest) run) before) tick) :
    tick = upTick ∧ FlatHistory ((marketLoop (trendRun choice countedVote votingBacktest)).final
      (MarketState.start (trendRun choice countedVote votingBacktest) run) before).recentCtxs := by
  obtain ⟨-, hwindow, -⟩ := hasked
  rcases List.eq_nil_or_concat after with rfl | ⟨later, last, rfl⟩
  · obtain ⟨rfl, htick⟩ := List.append_inj' hticks rfl
    obtain rfl := List.singleton_inj.mp htick
    exact ⟨rfl, (waiting_run (trendRun choice countedVote votingBacktest) flatTicks flatTicks_wait
      (MarketState.start _ run)).2.2.2⟩
  · have hflat : flatTicks = before ++ tick :: later := by
      rw [List.concat_eq_append, ← List.cons_append, ← List.append_assoc] at hticks
      exact (List.append_inj' hticks rfl).1
    exact absurd hwindow (flatTicks_wait tick (by rw [hflat]; simp))

/-- A vote that all draws give alike settles the tick at the horizon. -/
theorem noDrawMatters_laterRises (run : RunState ℝ (TrendState Bool) (TrendPayload ℝ) Unit) :
    NoDrawMatters laterRises countedVote votingBacktest none run
      [("btc-updown-5m-1500", flatTicks ++ [upTick])] := by
  intro pre m post hmarkets _ before tick after hticks hasked side ctx _
  obtain rfl : m = ("btc-updown-5m-1500", flatTicks ++ [upTick]) := by
    have hmem : m ∈ pre ++ m :: post := by simp
    exact List.mem_singleton.mp (hmarkets ▸ hmem)
  obtain ⟨rfl, hflat⟩ := asked_voting hticks hasked
  apply drawIndifferent_of_sameVote
  intro rng rng'
  apply sameVote_of_mcProbUp_eq
  exact (probUp_laterRises _ hflat rng).trans (probUp_laterRises _ hflat rng').symm

/-- The vote is drawn at the horizon and it decides, but all draws give the same: both executions
enter. -/
theorem backtest_reproducible_laterRises :
    let run entropy := runBacktest (trendRun laterRises countedVote votingBacktest) none
      ⟨∅, entropy⟩ RiskState.init () [("btc-updown-5m-1500", flatTicks ++ [upTick])]
    (run true).decisionCounts.enter = 1 ∧ (run true).trades = (run false).trades ∧
      (run true).decisionCounts = (run false).decisionCounts := by
  intro run
  have hestimate : Estimates laterRises true true := fun ind _ hflat =>
    probUp_laterRises ind hflat true
  have henters : (run true).decisionCounts.enter = 1 := by
    dsimp only [run]
    rw [votingRun_enters hestimate, if_pos rfl]
  have hsettled := noDrawMatters_laterRises (startRun ⟨∅, true⟩ RiskState.init ())
  exact ⟨henters, backtest_reproducible laterRises countedVote votingBacktest none RiskState.init ()
    _ true false hsettled⟩

/-- Two executions on the same arguments: one enters and one does not.
SOURCE: engine/monte_carlo.py:15-37, strategies/polymarket_btc5m/trend_confirm_t1_v1.py:285-292 -/
theorem entropy_decides :
    ¬∀ (cfg : BacktestConfig ℝ (TrendState Bool) (TrendPayload ℝ) Unit)
      (choice : ReturnSampler ℝ Bool) (trendCfg : TrendConfirmConfig ℝ)
      (settle : Option (String → Option ℝ)) (risk : RiskState ℝ)
      (markets : List (String × List (TickContext ℝ))) (ambient ambient' : Bool),
      let run entropy := runBacktest (trendRun choice trendCfg cfg) settle ⟨∅, entropy⟩ risk ()
        markets
      (run ambient).trades = (run ambient').trades ∧
        (run ambient).decisionCounts = (run ambient').decisionCounts := by
  intro h
  have hdiffer : ∀ run run' : RunState ℝ (TrendState Bool) (TrendPayload ℝ) Unit,
      run.decisionCounts.enter = 1 → run'.decisionCounts.enter = 0 →
        ¬(run.trades = run'.trades ∧ run.decisionCounts = run'.decisionCounts) := by
    rintro run run' hone hzero ⟨-, hcounts⟩
    rw [hcounts, hzero] at hone
    cases hone
  exact hdiffer _ _ (votingRun_enters fun ind _ hflat => probUp_sameReturn ind hflat true)
    (votingRun_enters fun ind _ hflat => probUp_sameReturn ind hflat false)
    (h votingBacktest sameReturn countedVote none RiskState.init
      [("btc-updown-5m-1500", flatTicks ++ [upTick])] true false)

end Instance

end TradingEdge.Analysis
