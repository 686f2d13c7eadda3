import TradingEdge.Analysis.FillAgreement
import TradingEdge.Analysis.FoldCompleteness
import TradingEdge.Analysis.ReplaySteps
import TradingEdge.Program.RulesReplay

/-!
# What is reported of a replayed fold

The walk forward over the range of a fold has room for one split: its second turn would test the
days behind the range (`walkEnds_of_test_some`).  The split has no attribute of the names that are asked
for, so the report is always of no trades (`rulesFoldResult_figures`).
-/

set_option autoImplicit false

namespace TradingEdge.Analysis

open TradingEdge.Library TradingEdge.Model TradingEdge.Program

/-! ## Days of the calendar -/

/-- Days later is a date of the calendar, and that date. -/
theorem addDays_eq {t u : Datetime} {days : ℤ} (hdays : 0 ≤ days)
    (hu : u.val = t.val + timedeltaDays days) : addDays t days = some u := by
  have hmin := t.property.1
  have hmax := u.property.2
  have hfew : |days| ≤ 999999999 := by
    rw [abs_of_nonneg hdays]
    simp only [timedeltaDays, datetimeMin, datetimeMax] at hu hmin hmax
    omega
  have hon : datetimeMin ≤ t.val + timedeltaDays days ∧
      t.val + timedeltaDays days ≤ datetimeMax := hu ▸ u.property
  rw [addDays, if_pos hfew, dif_pos hon]
  exact congrArg some (Subtype.ext hu.symm)

/-- Days past the calendar raise. -/
theorem addDays_of_offCalendar {t : Datetime} {days : ℤ}
    (h : datetimeMax < t.val + timedeltaDays days) : addDays t days = none := by
  unfold addDays
  split
  · exact dif_neg fun hon => not_lt.mpr hon.2 h
  · rfl

/-! ## The walk over one fold -/

section Walk

variable {R : Type} (runTest : ℕ → Datetime → Datetime → Option R)

/-- A fold as `build_folds` lays it: whole days, at least one of each part, on the calendar. -/
structure WholeDays (fold : FoldWindow) (isDays oosDays : ℤ) (isFrom isTo oosTo : Datetime) :
    Prop where
  isFrom_eq : isFrom.val = fold.isFrom
  isTo_eq : isTo.val = fold.isTo
  oosFrom_eq : fold.oosFrom = fold.isTo
  oosTo_eq : oosTo.val = fold.oosTo
  isDays_pos : 0 < isDays
  oosDays_pos : 0 < oosDays
  isTo_after : isTo.val = isFrom.val + timedeltaDays isDays
  oosTo_after : oosTo.val = isTo.val + timedeltaDays oosDays

/-- Every fold of `build_folds` is laid so. -/
theorem wholeDays_of_mem {tFrom tTo : Datetime} {isDays oosDays stepDays : ℤ}
    {folds : List FoldWindow}
    (h : Raising.buildFolds tFrom tTo isDays oosDays stepDays = .ok folds) {fold : FoldWindow}
    (hfold : fold ∈ folds) :
    ∃ isFrom isTo oosTo, WholeDays fold isDays oosDays isFrom isTo oosTo := by
  have hpos : 0 < isDays ∧ 0 < oosDays ∧ 0 < stepDays := by
    unfold Raising.buildFolds at h
    split at h
    · next hpos => exact hpos
    · cases h
  have htile := foldsTile_buildFolds h
  obtain ⟨hfrom, hto⟩ := htile.inside fold hfold
  obtain ⟨hisTo, hoosFrom, hoosTo⟩ := htile.contiguous fold hfold
  have hmin := tFrom.property.1
  have hmax := tTo.property.2
  obtain ⟨hisDays, hoosDays, -⟩ := hpos
  have hparts : fold.isFrom ≤ fold.isTo ∧ fold.isTo ≤ fold.oosTo := by
    simp only [timedeltaDays] at hisTo hoosTo
    omega
  refine ⟨⟨fold.isFrom, by omega, by omega⟩, ⟨fold.isTo, by omega, by omega⟩,
    ⟨fold.oosTo, by omega, by omega⟩, rfl, rfl, hoosFrom, rfl, hisDays, hoosDays, hisTo, ?_⟩
  show fold.oosTo = fold.isTo + timedeltaDays oosDays
  rw [← hoosFrom, hoosTo]

variable {fold : FoldWindow} {isDays oosDays : ℤ} {isFrom isTo oosTo : Datetime}

/-- The day counts of a fold are those it was laid with. -/
theorem WholeDays.daysBetween (h : WholeDays fold isDays oosDays isFrom isTo oosTo) :
    daysBetween fold.isFrom fold.isTo = isDays ∧ daysBetween fold.oosFrom fold.oosTo = oosDays := by
  have his := h.isTo_after
  have hoos := h.oosTo_after
  rw [h.isFrom_eq, h.isTo_eq] at his
  rw [h.oosTo_eq, h.isTo_eq] at hoos
  simp only [Program.daysBetween, h.oosFrom_eq, timedeltaDays] at his hoos ⊢
  omega

/-- The first split is the fold. -/
theorem WholeDays.splitWindow (h : WholeDays fold isDays oosDays isFrom isTo oosTo) :
    splitWindow isDays oosDays isFrom = some (isTo, oosTo) := by
  have hto := addDays_eq h.isDays_pos.le h.isTo_after
  have hoos := addDays_eq h.oosDays_pos.le h.oosTo_after
  simp [Program.splitWindow, hto, hoos]

/-- Where the second turn starts, and the end of its training. -/
theorem WholeDays.next (h : WholeDays fold isDays oosDays isFrom isTo oosTo) :
    ∃ next, addDays isFrom (max 1 oosDays) = some next ∧ addDays next isDays = some oosTo := by
  have hmin := isFrom.property.1
  have hmax := oosTo.property.2
  have his := h.isTo_after
  have hoos := h.oosTo_after
  have hisDays := h.isDays_pos
  have hoosDays := h.oosDays_pos
  simp only [timedeltaDays] at his hoos
  let next : Datetime := ⟨isFrom.val + timedeltaDays oosDays, by
    simp only [timedeltaDays]
    omega⟩
  have hnext : next.val = isFrom.val + timedeltaDays oosDays := rfl
  refine ⟨next, ?_, ?_⟩
  · rw [max_eq_right hoosDays]
    exact addDays_eq hoosDays.le hnext
  · refine addDays_eq hisDays.le ?_
    simp only [timedeltaDays] at hnext ⊢
    omega

/-- The walk over the range of a fold. -/
def WalkEnds (isDays oosDays : ℤ) (isFrom oosTo : Datetime) (t : SplitLoop R) : Prop :=
  Ends (splitBody runTest oosTo isDays oosDays (max 1 oosDays)) (SplitLoop.start isFrom) t

variable {runTest}

/-- A test that raises ends the walk. -/
theorem walkEnds_of_test_none (h : WholeDays fold isDays oosDays isFrom isTo oosTo)
    (htest : runTest 0 isTo oosTo = none) :
    ∃ t, WalkEnds runTest isDays oosDays isFrom oosTo t ∧ t.raised = true := by
  let raised : SplitLoop R := { SplitLoop.start isFrom with raised := true }
  have hturn : splitBody runTest oosTo isDays oosDays (max 1 oosDays) (SplitLoop.start isFrom) =
      some raised := by
    simp [splitBody, SplitLoop.start, h.splitWindow, htest, raised]
  exact ⟨raised, Ends.of_some hturn (Ends.of_none (by simp [splitBody, raised])), rfl⟩

/-- After a test that does not, the walk ends with one split, or it raises for want of days. -/
theorem walkEnds_of_test_some (h : WholeDays fold isDays oosDays isFrom isTo oosTo) {report : R}
    (htest : runTest 0 isTo oosTo = some report) :
    ∃ t, WalkEnds runTest isDays oosDays isFrom oosTo t ∧
      t.splits = [⟨0, isFrom, isTo, isTo, oosTo, report⟩] ∧
      (t.raised = false ↔ oosTo.val + timedeltaDays oosDays ≤ datetimeMax) := by
  obtain ⟨next, hnext, hrest⟩ := h.next
  let split : WalkForwardSplit R := ⟨0, isFrom, isTo, isTo, oosTo, report⟩
  let once : SplitLoop R := ⟨next, 1, [split], false⟩
  have hturn : splitBody runTest oosTo isDays oosDays (max 1 oosDays) (SplitLoop.start isFrom) =
      some once := by
    simp [splitBody, SplitLoop.start, h.splitWindow, htest, hnext, once, split]
  by_cases hon : oosTo.val + timedeltaDays oosDays ≤ datetimeMax
  · have hover : oosTo.val < oosTo.val + timedeltaDays oosDays := by
      have hpos := h.oosDays_pos
      simp only [timedeltaDays]
      omega
    let later : Datetime :=
      ⟨oosTo.val + timedeltaDays oosDays, oosTo.property.1.trans hover.le, hon⟩
    have hlater : addDays oosTo oosDays = some later := addDays_eq h.oosDays_pos.le rfl
    have hexit : splitBody runTest oosTo isDays oosDays (max 1 oosDays) once = none := by
      simp [splitBody, splitWindow, once, hrest, hlater, later, hover]
    exact ⟨once, Ends.of_some hturn (Ends.of_none hexit), rfl, by simp [once, hon]⟩
  · have hturn' : splitBody runTest oosTo isDays oosDays (max 1 oosDays) once =
        some { once with raised := true } := by
      simp [splitBody, splitWindow, once, hrest, addDays_of_offCalendar (not_le.mp hon)]
    refine ⟨{ once with raised := true },
      Ends.of_some hturn (Ends.of_some hturn' (Ends.of_none (by simp [splitBody]))), rfl, ?_⟩
    simp [hon]

end Walk

/-! ## The report -/

section Report

variable {K R G : Type} [Field K] [LinearOrder K] [FloorRing K] [IsStrictOrderedRing K]
  (lib : MathLib K) (rnd : ReplayRandomness K R G) (cfg : RulesConfig K) (loader : MarketLoader K)

/-- **The names.**  Neither is one of an attribute, so both figures are the default. -/
theorem rulesFoldResult_figures (fold : FoldWindow)
    (splits : List (WalkForwardSplit (SplitReport K))) :
    (rulesFoldResult fold splits).nTradesOos = 0 ∧
      (rulesFoldResult fold splits).pnlOos = some 0 := by
  have hdefault : ∀ name ∈ ["n_trades_oos", "pnl_oos"], splitAttr splits name = 0 := by
    intro name hname
    cases splits with
    | nil => rfl
    | cons split splits =>
      have hother : ∀ b ∈ ["n_trades_oos", "pnl_oos"],
          b ∉ ["fold", "train_from", "train_to", "test_from", "test_to", "n_trades"] := by decide
      have hnames : name ∉ (numericAttrs split).map Prod.fst := hother name hname
      rw [splitAttr, lookup_eq_none_of_notMem hnames, Option.getD_none]
  constructor
  · show truncated (splitAttr splits "n_trades_oos") = 0
    rw [hdefault _ (by simp), truncated, if_pos le_rfl, Int.floor_zero]
  · show some (splitAttr splits "pnl_oos") = some 0
    rw [hdefault _ (by simp)]

/-- **A faithful report.**  The replay of a fold returns; it has tested one split, from the start to
the end of the fold's second part; and what it reports are the number of trades of the backtest of
that split and their total. -/
def ReportsTheRun (polybotDb : String) (fold : FoldWindow) : Prop :=
  ∃ result t split run, ReplaysRulesFold lib rnd ⟨some cfg, polybotDb, some loader⟩ fold result ∧
    FoldWalk lib rnd cfg loader fold t ∧ t.splits = [split] ∧
    split.testFrom.val = fold.oosFrom ∧ split.testTo.val = fold.oosTo ∧
    splitRun lib rnd cfg loader split.fold split.testFrom split.testTo = some run ∧
    result.nTradesOos = run.trades.length ∧
    result.pnlOos = some (run.trades.map fun trade => trade.pnlUsd).sum

/-- The backtest from the start to the end of the fold's second part does not raise, and makes no
trade. -/
def TradesNothing (fold : FoldWindow) : Prop :=
  ∃ testFrom testTo run, testFrom.val = fold.oosFrom ∧ testTo.val = fold.oosTo ∧
    splitRun lib rnd cfg loader 0 testFrom testTo = some run ∧ run.trades = []

/-- The days of a further test are on the calendar. -/
def FurtherOnCalendar (fold : FoldWindow) : Prop :=
  fold.oosTo + (fold.oosTo - fold.oosFrom) ≤ datetimeMax

omit [IsStrictOrderedRing K] in
/-- The walk over a fold is that of its whole days. -/
theorem foldWalk_iff {fold : FoldWindow} {isDays oosDays : ℤ} {isFrom isTo oosTo : Datetime}
    (h : WholeDays fold isDays oosDays isFrom isTo oosTo) (t : SplitLoop (SplitReport K)) :
    FoldWalk lib rnd cfg loader fold t ↔
      WalkEnds (splitTest lib rnd cfg loader) isDays oosDays isFrom oosTo t := by
  obtain ⟨his, hoos⟩ := h.daysBetween
  rw [FoldWalk, his, hoos]
  constructor
  · rintro ⟨fromDt, toDt, hfrom, hto, hends⟩
    obtain rfl : fromDt = isFrom := Subtype.ext (hfrom.trans h.isFrom_eq.symm)
    obtain rfl : toDt = oosTo := Subtype.ext (hto.trans h.oosTo_eq.symm)
    exact hends
  · intro hends
    exact ⟨isFrom, oosTo, h.isFrom_eq, h.oosTo_eq, hends⟩

omit [IsStrictOrderedRing K] in
/-- A backtest that returns is reported. -/
theorem exists_splitTest {fold : ℕ} {testFrom testTo : Datetime}
    {run : RunState K (TrendState R) (TrendPayload K) G}
    (h : splitRun lib rnd cfg loader fold testFrom testTo = some run) :
    ∃ report, splitTest lib rnd cfg loader fold testFrom testTo = some report := by
  rw [splitTest, h]
  exact ⟨_, rfl⟩

/-- A backtest whose trades are reported has none. -/
theorem trades_eq_nil_of_reported {polybotDb : String} {fold : FoldWindow} {result : FoldResult K}
    {run : RunState K (TrendState R) (TrendPayload K) G}
    (hresult : ReplaysRulesFold lib rnd ⟨some cfg, polybotDb, some loader⟩ fold result)
    (htrades : result.nTradesOos = run.trades.length) : run.trades = [] := by
  obtain ⟨t, -, -, rfl⟩ := hresult
  rw [(rulesFoldResult_figures fold t.splits).1] at htrades
  rw [← List.length_eq_zero_iff]
  omega

/-- **Every fold.**  What is reported is what the backtest did exactly when that made no trade, and
the days behind the range are on the calendar.
SOURCE: cli/walk_forward.py:276-358, engine/walk_forward.py:30-109 -/
theorem reportsTheRun_iff {tFrom tTo : Datetime} {isDays oosDays stepDays : ℤ}
    {folds : List FoldWindow}
    (h : Raising.buildFolds tFrom tTo isDays oosDays stepDays = .ok folds) {fold : FoldWindow}
    (hfold : fold ∈ folds) (polybotDb : String) :
    ReportsTheRun lib rnd cfg loader polybotDb fold ↔
      TradesNothing lib rnd cfg loader fold ∧ FurtherOnCalendar fold := by
  obtain ⟨isFrom, isTo, oosTo, hdays⟩ := wholeDays_of_mem h hfold
  have hoosFrom : isTo.val = fold.oosFrom := hdays.isTo_eq.trans hdays.oosFrom_eq.symm
  have hcalendar : FurtherOnCalendar fold ↔ oosTo.val + timedeltaDays oosDays ≤ datetimeMax := by
    have hafter := hdays.oosTo_after
    rw [FurtherOnCalendar, ← hoosFrom, ← hdays.oosTo_eq, hafter]
    omega
  constructor
  · rintro ⟨result, t, split, run, hresult, hwalk, hsplits, hfrom, hto, hrun, htrades, -⟩
    have hnone := trades_eq_nil_of_reported lib rnd cfg loader hresult htrades
    obtain ⟨t', hwalk', hraised, rfl⟩ := hresult
    rw [foldWalk_iff lib rnd cfg loader hdays] at hwalk hwalk'
    obtain rfl := hwalk.unique hwalk'
    cases htest : splitTest lib rnd cfg loader 0 isTo oosTo with
    | none =>
      obtain ⟨s, hs, hsraised⟩ := walkEnds_of_test_none hdays htest
      obtain rfl := hwalk.unique hs
      rw [hraised] at hsraised
      cases hsraised
    | some report =>
      obtain ⟨s, hs, hssplits, hson⟩ := walkEnds_of_test_some hdays htest
      obtain rfl := hwalk.unique hs
      obtain rfl : split = _ := List.singleton_inj.mp (hsplits.symm.trans hssplits)
      exact ⟨⟨isTo, oosTo, run, hfrom, hto, hrun, hnone⟩, hcalendar.mpr (hson.mp hraised)⟩
  · rintro ⟨⟨testFrom, testTo, run, hfrom, hto, hrun, hnone⟩, hon⟩
    obtain rfl : testFrom = isTo := Subtype.ext (hfrom.trans hoosFrom.symm)
    obtain rfl : testTo = oosTo := Subtype.ext (hto.trans hdays.oosTo_eq.symm)
    obtain ⟨report, htest⟩ := exists_splitTest lib rnd cfg loader hrun
    obtain ⟨t, hwalk, hsplits, hraised⟩ := walkEnds_of_test_some hdays htest
    rw [← foldWalk_iff lib rnd cfg loader hdays] at hwalk
    obtain ⟨hzero, hnothing⟩ := rulesFoldResult_figures fold t.splits
    refine ⟨rulesFoldResult fold t.splits, t, _, run,
      ⟨t, hwalk, hraised.mpr (hcalendar.mp hon), rfl⟩, hwalk, hsplits, hfrom, hto, hrun, ?_, ?_⟩
    · rw [hzero, hnone]
      rfl
    · rw [hnothing, hnone]
      rfl

end Report

section Instance

/-- A configuration that asks for no confirmation, with every order filled. -/
def noConfirmation : RulesConfig ℚ where
  params := { TrendConfirmConfig.default with minConfirmations := 0 }
  stakeUsd := some 5
  maxPositionSizeUsd := some 5
  slippageBps := 10
  fillProbability := 1
  earliestEntryTS := 120
  latestEntryTS := 240
  risk := RiskConfig.permissive
  bypassInBacktest := true

/-- Four minutes into a window of the second of January 1970, ten basis points up. -/
def risingTick : TickContext ℚ where
  ts := 87840
  marketSlug := "btc-updown-5m-87900"
  tInWindow := 240
  windowCloseTs := 87900
  spotPrice := 64064
  chainlinkPrice := none
  openPrice := 64000
  pmYesBid := 55 / 100
  pmYesAsk := 57 / 100
  pmNoBid := 43 / 100
  pmNoAsk := 45 / 100
  pmDepthYes := 10
  pmDepthNo := 10
  pmImbalance := 0
  pmSpreadBps := 0
  impliedProbYes := 56 / 100
  modelProbYes := 0
  edge := 0
  zScore := 0
  tToClose := 60
  emaFast := 0
  emaSlow := 0
  rsi14 := 0
  volRealized := 0
  volEwma := 0
  deltaBps := 10

/-- A database with one market of that window, which settles at 64100. -/
def windowLoader (ticks : List (TickContext ℚ)) : MarketLoader ℚ where
  marketOutcomes _ _ := some fun _ => some 64100
  iterMarkets fromTs toTs :=
    some (if fromTs ≤ 87840 ∧ 87840 ≤ toTs then [("btc-updown-5m-87900", ticks)] else [])

/-- The database that has this tick. -/
def risingLoader : MarketLoader ℚ := windowLoader [risingTick]

/-- The rise, three minutes earlier: before the entry window. -/
def earlyTick : TickContext ℚ := { risingTick with ts := 87660, tInWindow := 60, tToClose := 240 }

/-- At the horizon the price is back at the strike. -/
def levelTick : TickContext ℚ := { risingTick with spotPrice := 64000, deltaBps := 0 }

/-- A generator that always draws a half. -/
def evenDraws : ReplayRandomness ℚ Unit Unit where
  random g := (1 / 2, g)
  seeded := ()
  choice r _ _ _ := ([], r)
  entropy _ := ()

/-- A day of training and a day of test. -/
def twoDays : FoldWindow := foldAt 1 1 0 0

/-- Two days make one fold. -/
theorem buildFolds_twoDays :
    Raising.buildFolds ⟨0, by decide⟩ ⟨172800000000, by decide⟩ 1 1 1 = .ok [twoDays] := by
  have hone : addDays ⟨0, by decide⟩ 1 = some ⟨86400000000, by decide⟩ := by decide
  have htwo : addDays ⟨86400000000, by decide⟩ 1 = some ⟨172800000000, by decide⟩ := by decide
  have hthree : addDays ⟨172800000000, by decide⟩ 1 = some ⟨259200000000, by decide⟩ := by decide
  have hrest : Raising.foldsFrom ⟨172800000000, by decide⟩ 1 1 1 (by omega)
      ⟨86400000000, by decide⟩ 1 = .ok [] := by
    rw [Raising.foldsFrom]
    simp [htwo, hthree]
  unfold Raising.buildFolds
  rw [dif_pos (by omega), if_neg (by decide), Raising.foldsFrom]
  simp only [hone, htwo, lt_self_iff_false, if_false]
  split
  · next hnone =>
    rw [hone] at hnone
    cases hnone
  · next next hnext =>
    obtain rfl := Option.some.inj (hone.symm.trans hnext)
    rw [hrest]
    rfl

/-- The backtest of the second day: its trade is what the loop over the ticks leaves. -/
theorem splitRun_windowLoader (ticks : List (TickContext ℚ)) (fold : ℕ) {testFrom testTo : Datetime}
    (hfrom : testFrom.val = 86400000000) (hto : testTo.val = 172800000000) {terms : MarketTerms ℚ}
    (hterms : marketTerms (some fun _ => some 64100) "btc-updown-5m-87900" ticks = some terms) :
    ∃ run, splitRun MathLib.rational evenDraws noConfirmation (windowLoader ticks) fold testFrom
        testTo = some run ∧
      run.trades = marketTrade (rulesBacktest MathLib.rational evenDraws noConfirmation) 0
        "btc-updown-5m-87900" terms
        ((marketLoop (rulesBacktest MathLib.rational evenDraws noConfirmation)).final
          (MarketState.start (rulesBacktest MathLib.rational evenDraws noConfirmation)
            (startRun ⟨∅, ()⟩ RiskState.init ())) ticks) := by
  have hrange : timestamp testFrom ≤ (87840 : ℚ) ∧ (87840 : ℚ) ≤ timestamp testTo := by
    rw [timestamp, timestamp, hfrom, hto]
    norm_num
  have hmarkets : (windowLoader ticks).iterMarkets (timestamp testFrom) (timestamp testTo) =
      some [("btc-updown-5m-87900", ticks)] := congrArg some (if_pos hrange)
  refine ⟨runBacktest (rulesBacktest MathLib.rational evenDraws noConfirmation)
    (some fun _ => some 64100) ⟨∅, ()⟩ RiskState.init () [("btc-updown-5m-87900", ticks)], ?_, ?_⟩
  · unfold splitRun
    rw [hmarkets]
    rfl
  · rw [runBacktest_eq, List.foldl_cons, List.foldl_nil,
      replayMarket_of_some _ _ _ _ _ terms hterms, closeMarket_eq]
    rfl

/-- Without a side the strategy skips the tick. -/
theorem skips_of_no_direction {K R : Type} [Field K] [LinearOrder K] [FloorRing K] (lib : MathLib K)
    (choice : ReturnSampler K R) (cfg : TrendConfirmConfig K) (st : TrendState R)
    (ctx : TickContext K) (recent : List (TickContext K)) (h : cfg.direction ctx.deltaBps = none) :
    (trendShouldEnter lib choice cfg st ctx recent).1.action = .skip := by
  rcases trendShouldEnter_cases lib choice cfg st ctx recent with
    ⟨reason, -, hanswer⟩ | ⟨side, hside, -⟩
  · rw [hanswer]
    rfl
  · rw [trendGate_eq_ok_iff] at hside
    obtain ⟨-, -, hdirection, -⟩ := hside
    rw [h] at hdirection
    cases hdirection

/-- At the strike the strategy takes no side, so the loop goes on without a position. -/
theorem position_levelTick (st : MarketState ℚ (TrendState Unit) (TrendPayload ℚ) Unit)
    (hposition : st.position = none) :
    ((marketLoop (rulesBacktest MathLib.rational evenDraws noConfirmation)).final st
      [earlyTick, levelTick]).position = none := by
  let cfg := rulesBacktest MathLib.rational evenDraws noConfirmation
  show (tickStep cfg (tickStep cfg st earlyTick).1 levelTick).1.position = none
  have hearly : ¬cfg.entryWindow.Contains earlyTick := by
    show ¬(((120 : ℤ) : ℚ) ≤ 60 ∧ (60 : ℚ) ≤ ((240 : ℤ) : ℚ))
    norm_num
  rw [tickStep_waiting cfg st earlyTick hearly]
  generalize hwaited : st.observe _ _ = st'
  have hposition' : st'.position = none := by
    rw [← hwaited, MarketState.observe_position, hposition]
  have hwindow : cfg.entryWindow.Contains (st'.indicators.update cfg.lib levelTick).1 := by
    show ((120 : ℤ) : ℚ) ≤ 240 ∧ (240 : ℚ) ≤ ((240 : ℤ) : ℚ)
    norm_num
  have hskip : (cfg.strategy.shouldEnter st'.strategy (st'.indicators.update cfg.lib levelTick).1
      st'.recentCtxs).1.action = .skip := by
    have hside : noConfirmation.params.direction 0 = none := by
      norm_num [TrendConfirmConfig.direction, noConfirmation, TrendConfirmConfig.default]
    exact skips_of_no_direction _ _ _ _ _ _ hside
  rw [tickStep_bypassed cfg st' levelTick rfl hposition' hwindow]
  exact (evaluate_position_of_skip cfg (st'.observe _ _) _ _ hskip).trans hposition'

/-- A market that is watched to its horizon and not entered: the report of no trades is right. -/
theorem reportsTheRun_levelTick :
    ReportsTheRun MathLib.rational evenDraws noConfirmation
      (windowLoader [earlyTick, levelTick]) "polybot.db" twoDays := by
  refine (reportsTheRun_iff MathLib.rational evenDraws noConfirmation _ buildFolds_twoDays
    (List.mem_singleton_self _) "polybot.db").mpr ⟨?_, ?_⟩
  · let terms : MarketTerms ℚ := ⟨64000, 64100, 87900⟩
    have hterms : marketTerms (some fun _ => some 64100) "btc-updown-5m-87900"
        [earlyTick, levelTick] = some terms := rfl
    let testFrom : Datetime := ⟨86400000000, by decide⟩
    let testTo : Datetime := ⟨172800000000, by decide⟩
    have hfrom : testFrom.val = 86400000000 := rfl
    have hto : testTo.val = 172800000000 := rfl
    obtain ⟨run, hrun, htrades⟩ := splitRun_windowLoader [earlyTick, levelTick] 0 hfrom hto hterms
    refine ⟨testFrom, testTo, run, hfrom, hto, hrun, ?_⟩
    rw [htrades, marketTrade, position_levelTick _ rfl]
    rfl
  · unfold FurtherOnCalendar
    decide

/-- The tick after the indicators. -/
def shownTick (ind : IndicatorStack ℚ) : TickContext ℚ := (ind.update MathLib.rational risingTick).1

/-- The strategy enters at the tick, on the side of the rise. -/
theorem enters_risingTick (ind : IndicatorStack ℚ) (recent : List (TickContext ℚ)) :
    let d := (trendShouldEnter MathLib.rational evenDraws.choice noConfirmation.params ⟨∅, ()⟩
      (shownTick ind) recent).1
    d.action = .enter ∧ d.side = .yesUp := by
  have hgate : trendGate noConfirmation.params ∅ (shownTick ind) = .ok .yesUp := by
    rw [trendGate_eq_ok_iff]
    refine ⟨?_, Finset.notMem_empty _, ?_, rfl, ?_⟩
    · show |(240 : ℚ) - ((240 : ℤ) : ℚ)| ≤ 2
      norm_num
    · refine if_pos ?_
      show (3 : ℚ) < 10
      norm_num
    · have hask : favAskOf (shownTick ind) .yesUp = 57 / 100 := rfl
      unfold priceGate
      rw [hask]
      norm_num [noConfirmation, TrendConfirmConfig.default]
  have hconfirmed : TrendConfirmed MathLib.rational evenDraws.choice noConfirmation.params () .yesUp
      (shownTick ind) recent := by
    have hnone : requiredConfirmations noConfirmation.params
        (favAskOf (shownTick ind) .yesUp) = 0 := by
      have hask : favAskOf (shownTick ind) .yesUp = 57 / 100 := rfl
      rw [hask]
      refine if_neg ?_
      norm_num [noConfirmation, TrendConfirmConfig.default]
    rw [TrendConfirmed, hnone]
    exact Int.natCast_nonneg _
  rcases trendShouldEnter_cases MathLib.rational evenDraws.choice noConfirmation.params ⟨∅, ()⟩
    (shownTick ind) recent with ⟨reason, herror, -⟩ | ⟨side, hside, ⟨hnot, -⟩ | ⟨-, haction, hd, -⟩⟩
  · rw [hgate] at herror
    cases herror
  · obtain rfl := Except.ok.inj (hgate.symm.trans hside)
    exact absurd hconfirmed hnot
  · obtain rfl := Except.ok.inj (hgate.symm.trans hside)
    exact ⟨haction, hd⟩

/-- The order is filled. -/
theorem openPosition_risingTick (ind : IndicatorStack ℚ) (d : Decision (TrendPayload ℚ))
    (hside : d.side = .yesUp) :
    ∃ p, openPosition (rulesBacktest MathLib.rational evenDraws noConfirmation).fillCfg
      (shownTick ind) d = some p := by
  have hprice : ¬min ((57 / 100 : ℚ) + (55 / 100 + 57 / 100) / 2 * 10 / 10000) (99 / 100) ≤ 0 := by
    norm_num
  unfold openPosition
  rw [if_pos hside]
  exact ⟨_, if_neg hprice⟩

/-- The loop over the tick leaves a position. -/
theorem position_risingTick
    (st : MarketState ℚ (TrendState Unit) (TrendPayload ℚ) Unit) (hstrategy : st.strategy = ⟨∅, ()⟩)
    (hposition : st.position = none) :
    ∃ p, ((marketLoop (rulesBacktest MathLib.rational evenDraws noConfirmation)).final st
      [risingTick]).position = some p := by
  obtain ⟨haction, hside⟩ := enters_risingTick st.indicators st.recentCtxs
  rw [← hstrategy] at haction hside
  obtain ⟨p, hp⟩ := openPosition_risingTick st.indicators _ hside
  have hwindow : (rulesBacktest MathLib.rational evenDraws noConfirmation).entryWindow.Contains
      (shownTick st.indicators) := by
    show ((120 : ℤ) : ℚ) ≤ 240 ∧ (240 : ℚ) ≤ ((240 : ℤ) : ℚ)
    norm_num
  have hdraw : (1 / 2 : ℚ) ≤ 1 := by norm_num
  refine ⟨p, ?_⟩
  show (tickStep _ st risingTick).1.position = some p
  rw [tickStep_bypassed _ st risingTick rfl hposition hwindow]
  exact (evaluate_position _ (st.observe _ _) _ _ _ hposition rfl haction hdraw).trans hp

/-- A database with the tick: the backtest makes a trade. -/
theorem trades_risingLoader {fold : ℕ} {testFrom testTo : Datetime}
    (hfrom : testFrom.val = 86400000000) (hto : testTo.val = 172800000000)
    {run : RunState ℚ (TrendState Unit) (TrendPayload ℚ) Unit}
    (hrun : splitRun MathLib.rational evenDraws noConfirmation risingLoader fold testFrom testTo =
      some run) : run.trades ≠ [] := by
  let terms : MarketTerms ℚ := ⟨64000, 64100, 87900⟩
  have hterms : marketTerms (some fun _ => some 64100) "btc-updown-5m-87900" [risingTick] =
      some terms := rfl
  obtain ⟨run', hrun', htrades⟩ := splitRun_windowLoader [risingTick] fold hfrom hto hterms
  obtain rfl := Option.some.inj (hrun.symm.trans hrun')
  obtain ⟨p, hp⟩ := position_risingTick (MarketState.start
    (rulesBacktest MathLib.rational evenDraws noConfirmation)
    (startRun ⟨∅, ()⟩ RiskState.init ())) rfl rfl
  rw [htrades, marketTrade, hp]
  simp

/-- The trade is not reported. -/
theorem not_reportsTheRun_rising :
    ¬ReportsTheRun MathLib.rational evenDraws noConfirmation risingLoader "polybot.db" twoDays := by
  rintro ⟨result, t, split, run, hresult, -, -, hfrom, hto, hrun, htrades, -⟩
  exact trades_risingLoader hfrom hto hrun
    (trades_eq_nil_of_reported MathLib.rational evenDraws noConfirmation risingLoader hresult
      htrades)

end Instance

end TradingEdge.Analysis
