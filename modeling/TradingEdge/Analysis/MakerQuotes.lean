import TradingEdge.Analysis.MakerSteps

/-!
# When a new quote is on its side of the mid

The market maker quotes around a reservation price that its inventory moves away from the mid.
As long as the skew is smaller than half the spread, the bid is below the mid and the ask above
it.  Beyond, the quote of the side that would reduce the inventory is on the wrong side of the
mid, and the matcher fills it in the tick that places it, at its own price.

`optimalBidAsk_fst_lt_iff` and `lt_optimalBidAsk_snd_iff` are the exact conditions on the
numbers, with the clamps and the collapse to one cent.  `placed_is_maker_iff` carries them over
to the orders that the ticks of a run place.
-/

set_option autoImplicit false

namespace TradingEdge.Analysis

open TradingEdge.Library TradingEdge.Model TradingEdge.Program

variable {K : Type} [Field K] [LinearOrder K]

section Prices

variable [IsStrictOrderedRing K] (lib : MathLib K) (p q k t : K) (params : ASParams K)

/-- The spread is positive where its floor is.
SOURCE: strategies/polymarket_btc15m/_mm_features.py:117-123 -/
theorem optimalTotalSpread_pos (hfloor : 0 < params.spreadFloorBps)
    (hceil : params.spreadFloorBps ≤ params.spreadCeilingBps) :
    0 < optimalTotalSpread lib p k params t := by
  have hlo : 0 < params.spreadFloorBps / 10000 := by positivity
  have hhi : 0 < params.spreadCeilingBps / 10000 := by
    have : 0 < params.spreadCeilingBps := lt_of_lt_of_le hfloor hceil
    positivity
  unfold optimalTotalSpread
  exact lt_min hhi (lt_max_of_lt_left hlo)

omit [IsStrictOrderedRing K] in
/-- The reservation price is the mid less the skew, clamped, unless there is no volatility; and
then there is no skew.
SOURCE: strategies/polymarket_btc15m/_mm_features.py:86-93 -/
theorem reservationPrice_cases :
    (reservationPrice lib p q params t = p ∧ inventoryRisk lib p params t = 0) ∨
      reservationPrice lib p q params t =
        min (999 / 1000) (max (1 / 1000) (p - q * inventoryRisk lib p params t)) := by
  unfold reservationPrice inventoryRisk
  by_cases hsigma : sigmaBm lib p t params.windowSeconds = 0
  · left
    simp [hsigma]
  · right
    simp only [if_neg hsigma]
    congr 3
    ring

/-- With a positive spread around a clamped reservation price the bid stays below the ask.
SOURCE: strategies/polymarket_btc15m/_mm_features.py:147-154 -/
theorem clamped_bid_lt_ask {r half : K} (hhalf : 0 < half) (hlo : 1 / 1000 ≤ r)
    (hhi : r ≤ 999 / 1000) :
    max (1 / 1000) (min (999 / 1000) (r - half)) <
      max (1 / 1000) (min (999 / 1000) (r + half)) := by
  have hmin : min (999 / 1000) (r - half) = r - half := min_eq_right (by linarith)
  have hask : max (1 / 1000) (min (999 / 1000) (r + half)) = min (999 / 1000) (r + half) :=
    max_eq_right (le_min (by norm_num) (by linarith))
  rw [hmin, hask, max_lt_iff, lt_min_iff, lt_min_iff]
  exact ⟨⟨by norm_num, by linarith⟩, by linarith, by linarith⟩

/-- The bid is below the mid exactly when the skew towards it is smaller than half the spread,
or the mid is so high that the clamp holds the bid down.
SOURCE: strategies/polymarket_btc15m/_mm_features.py:126-154 -/
theorem optimalBidAsk_fst_lt_iff (hspread : 0 < optimalTotalSpread lib p k params t) :
    (optimalBidAsk lib p q k params t).1 < p ↔
      1 / 1000 < p ∧ (999 / 1000 < p + optimalTotalSpread lib p k params t / 2 ∨
        -(q * inventoryRisk lib p params t) < optimalTotalSpread lib p k params t / 2) := by
  set half := optimalTotalSpread lib p k params t / 2 with hhalfdef
  have hhalf : 0 < half := by positivity
  rcases reservationPrice_cases lib p q t params with ⟨hr, hrisk⟩ | hr
  · -- without volatility the quotes are around the mid itself
    have hbid : (optimalBidAsk lib p q k params t).1 < p ↔ 1 / 1000 < p := by
      unfold optimalBidAsk
      dsimp only
      rw [hr]
      split
      · rw [max_lt_iff]
        exact ⟨And.left, fun h => ⟨h, by linarith⟩⟩
      · rw [max_lt_iff, min_lt_iff]
        exact ⟨And.left, fun h => ⟨h, Or.inr (by linarith)⟩⟩
    rw [hbid, hrisk, mul_zero, neg_zero]
    exact ⟨fun h => ⟨h, Or.inr hhalf⟩, And.left⟩
  · set r := reservationPrice lib p q params t with hrdef
    have hlo : 1 / 1000 ≤ r := hr ▸ le_min (by norm_num) (le_max_left _ _)
    have hhi : r ≤ 999 / 1000 := hr ▸ min_le_left _ _
    have hopen := clamped_bid_lt_ask hhalf hlo hhi
    have hbid : (optimalBidAsk lib p q k params t).1 =
        max (1 / 1000) (min (999 / 1000) (r - half)) := by
      unfold optimalBidAsk
      dsimp only
      rw [← hrdef, ← hhalfdef, if_neg (not_le.mpr hopen)]
    have hskew : r - half < p ↔ 999 / 1000 < p + half ∨
        1 / 1000 < p + half ∧ -(q * inventoryRisk lib p params t) < half := by
      rw [sub_lt_iff_lt_add, hr, min_lt_iff, max_lt_iff]
      refine or_congr_right (and_congr_right fun _ => ?_)
      constructor <;> intro h <;> linarith
    rw [hbid, max_lt_iff, min_lt_iff, hskew]
    refine and_congr_right fun hp => ?_
    constructor
    · rintro (h | h | h)
      · exact Or.inl (by linarith)
      · exact Or.inl h
      · exact Or.inr h.2
    · rintro (h | h)
      · exact Or.inr (Or.inl h)
      · exact Or.inr (Or.inr ⟨by linarith, h⟩)

/-- The ask is above the mid exactly when the skew towards it is smaller than half the spread,
or the mid is so low that the clamp holds the ask up.
SOURCE: strategies/polymarket_btc15m/_mm_features.py:126-154 -/
theorem lt_optimalBidAsk_snd_iff (hspread : 0 < optimalTotalSpread lib p k params t) :
    p < (optimalBidAsk lib p q k params t).2 ↔
      p < 999 / 1000 ∧ (p - optimalTotalSpread lib p k params t / 2 < 1 / 1000 ∨
        q * inventoryRisk lib p params t < optimalTotalSpread lib p k params t / 2) := by
  set half := optimalTotalSpread lib p k params t / 2 with hhalfdef
  have hhalf : 0 < half := by positivity
  rcases reservationPrice_cases lib p q t params with ⟨hr, hrisk⟩ | hr
  · have hask : p < (optimalBidAsk lib p q k params t).2 ↔ p < 999 / 1000 := by
      unfold optimalBidAsk
      dsimp only
      rw [hr]
      split
      · rw [lt_min_iff]
        exact ⟨And.left, fun h => ⟨h, by linarith⟩⟩
      · rename_i hopen
        rw [lt_max_iff, lt_min_iff]
        constructor
        · rintro (h | h)
          · linarith
          · exact h.1
        · exact fun h => Or.inr ⟨h, by linarith⟩
    rw [hask, hrisk, mul_zero]
    exact ⟨fun h => ⟨h, Or.inr hhalf⟩, And.left⟩
  · set r := reservationPrice lib p q params t with hrdef
    have hlo : 1 / 1000 ≤ r := hr ▸ le_min (by norm_num) (le_max_left _ _)
    have hhi : r ≤ 999 / 1000 := hr ▸ min_le_left _ _
    have hopen := clamped_bid_lt_ask hhalf hlo hhi
    have hask : (optimalBidAsk lib p q k params t).2 =
        max (1 / 1000) (min (999 / 1000) (r + half)) := by
      unfold optimalBidAsk
      dsimp only
      rw [← hrdef, ← hhalfdef, if_neg (not_le.mpr hopen)]
    have hskew : p < r + half ↔ p - half < 999 / 1000 ∧
        (p - half < 1 / 1000 ∨ q * inventoryRisk lib p params t < half) := by
      rw [← sub_lt_iff_lt_add, hr, lt_min_iff, lt_max_iff]
      refine and_congr_right fun _ => or_congr_right ?_
      constructor <;> intro h <;> linarith
    have hlow : p < 1 / 1000 → p < 999 / 1000 ∧ p - half < 1 / 1000 := fun h =>
      ⟨by linarith, by linarith⟩
    rw [hask, lt_max_iff, lt_min_iff, hskew]
    constructor
    · rintro (h | ⟨h, -, h'⟩)
      · exact ⟨(hlow h).1, Or.inl (hlow h).2⟩
      · exact ⟨h, h'⟩
    · rintro ⟨h, h'⟩
      exact Or.inr ⟨h, by linarith, h'⟩

end Prices

section Runs

variable (env : MMDriverEnv K) (g : GlobalMMState K) (k : KEstimator K) (paused : Bool)

/-- The bid of a tick is covered: the inventory pulls it up by less than half the spread, or the
mid is so high that the clamp holds it down. -/
def BidCovered (env : MMEnv K) (m : MMRebate K) (ctx : TickContext K) : Prop :=
  let p := ctx.impliedProbYes
  let half := optimalTotalSpread env.lib p (m.k.k (bucketForEstimator p) 2) env.cfg.asParams
    ctx.tInWindow / 2
  let risk := inventoryRisk env.lib p env.cfg.asParams ctx.tInWindow
  1 / 1000 < p ∧ (999 / 1000 < p + half ∨ -(m.safety.inventory ctx.marketSlug * risk) < half)

/-- The ask of a tick is covered: the inventory pulls it down by less than half the spread, or
the mid is so low that the clamp holds it up. -/
def AskCovered (env : MMEnv K) (m : MMRebate K) (ctx : TickContext K) : Prop :=
  let p := ctx.impliedProbYes
  let half := optimalTotalSpread env.lib p (m.k.k (bucketForEstimator p) 2) env.cfg.asParams
    ctx.tInWindow / 2
  let risk := inventoryRisk env.lib p env.cfg.asParams ctx.tInWindow
  p < 999 / 1000 ∧ (p - half < 1 / 1000 ∨ m.safety.inventory ctx.marketSlug * risk < half)

/-- **When a new quote is a maker quote.** Of the orders the ticks of a run place, a bid is
below the mid of its tick, and not filled by it, exactly when it is covered; and likewise an
ask.
SOURCE: strategies/polymarket_btc15m/_mm_features.py:74-154,
strategies/polymarket_btc15m/mm_rebate_v1.py:183-199, paper/mm_driver.py:94-122 -/
theorem placed_is_maker_iff [IsStrictOrderedRing K]
    (hfloor : 0 < env.cfg.asParams.spreadFloorBps)
    (hceil : env.cfg.asParams.spreadFloorBps ≤ env.cfg.asParams.spreadCeilingBps)
    (ls : List (MMLabel K)) (d : TickDict K) (clock fillClock : K) (o : LimitOrder K)
    (hplaced : o ∈ placedOf ((mmMachine env g).emits
      ((mmMachine env g).final (MMPaperDriver.init k paused) ls) (.tick d clock fillClock))) :
    (o.side = "BUY" →
      (o.price < (tickFromDict d).impliedProbYes ∧
          o.fill env.makerFeeBps d.ts ∉ fillsOf ((mmMachine env g).emits
            ((mmMachine env g).final (MMPaperDriver.init k paused) ls)
            (.tick d clock fillClock)) ↔
        BidCovered env.toMMEnv
          ((mmMachine env g).final (MMPaperDriver.init k paused) ls).strategy
          (tickFromDict d))) ∧
    (o.side = "SELL" →
      ((tickFromDict d).impliedProbYes < o.price ∧
          o.fill env.makerFeeBps d.ts ∉ fillsOf ((mmMachine env g).emits
            ((mmMachine env g).final (MMPaperDriver.init k paused) ls)
            (.tick d clock fillClock)) ↔
        AskCovered env.toMMEnv
          ((mmMachine env g).final (MMPaperDriver.init k paused) ls).strategy
          (tickFromDict d))) := by
  set st := (mmMachine env g).final (MMPaperDriver.init k paused) ls
  set ctx := tickFromDict d with hctx
  have hspread := fun k' : K => optimalTotalSpread_pos env.lib ctx.impliedProbYes k'
    ctx.tInWindow env.cfg.asParams hfloor hceil
  obtain ⟨-, side, hmove, -, ho⟩ :=
    placed_mem_sent (placed_mem_handleTick ((mem_placedOf_iff _ _).mp hplaced))
  have hside : side = .yesUp ∨ side = .yesDown := hmove.imp And.left And.left
  have hprice : o.price = st.strategy.priceOf env.toMMEnv ctx side := by
    rw [ho]
    rfl
  have hbook : o.side = sideToBookSide side := by
    rw [ho]
    rfl
  constructor
  · intro hbuy
    obtain rfl : side = .yesUp := by
      rcases hside with rfl | rfl
      · rfl
      · rw [hbuy] at hbook
        exact absurd hbook (by decide)
    have hlt : o.price < ctx.impliedProbYes ↔ BidCovered env.toMMEnv st.strategy ctx := by
      rw [hprice]
      exact optimalBidAsk_fst_lt_iff env.lib _ _ _ _ _ (hspread _)
    rw [← hlt]
    refine ⟨And.left, fun hbelow => ⟨hbelow, fun hfills => ?_⟩⟩
    rcases crossed_of_fills hfills with ⟨-, hle⟩ | ⟨hsell, -⟩
    · exact absurd hbelow (not_lt.mpr hle)
    · rw [hbuy] at hsell
      exact absurd hsell (by decide)
  · intro hsell
    obtain rfl : side = .yesDown := by
      rcases hside with rfl | rfl
      · rw [hsell] at hbook
        exact absurd hbook (by decide)
      · rfl
    have hlt : ctx.impliedProbYes < o.price ↔ AskCovered env.toMMEnv st.strategy ctx := by
      rw [hprice]
      exact lt_optimalBidAsk_snd_iff env.lib _ _ _ _ _ (hspread _)
    rw [← hlt]
    refine ⟨And.left, fun habove => ⟨habove, fun hfills => ?_⟩⟩
    rcases crossed_of_fills hfills with ⟨hbuy, -⟩ | ⟨-, hle⟩
    · rw [hsell] at hbuy
      exact absurd hbuy (by decide)
    · exact absurd habove (not_lt.mpr hle)

end Runs

section Instance

/-- The next tick, with the mid back where it was. -/
def nextTick : TickDict ℚ := btcTick (178479 / 100) (88479 / 100) (1 / 5)

/-- Its bid. -/
def pulledBid : LimitOrder ℚ :=
  (soldEnv 75).toMMEnv.limitOrder (tickFromDict nextTick)
    (((mmMachine (soldEnv 75) (GlobalMMState.init 3500 350)).final
      (MMPaperDriver.init ⟨Dict.empty⟩ false) soldRun).strategy.newQuote (soldEnv 75).toMMEnv
        (tickFromDict nextTick) .yesUp)

/-- The bid is pulled before the price crosses it. -/
theorem placed_is_maker_iff_pulledBid :
    pulledBid.price < 1 / 5 ∧
        pulledBid.fill 10 (178479 / 100) ∉ fillsOf
          ((mmMachine (soldEnv 75) (GlobalMMState.init 3500 350)).emits
            ((mmMachine (soldEnv 75) (GlobalMMState.init 3500 350)).final
              (MMPaperDriver.init ⟨Dict.empty⟩ false) soldRun) (.tick nextTick 1785 1785)) ↔
      BidCovered (soldEnv 75).toMMEnv ((mmMachine (soldEnv 75) (GlobalMMState.init 3500 350)).final
        (MMPaperDriver.init ⟨Dict.empty⟩ false) soldRun).strategy (tickFromDict nextTick) :=
  (placed_is_maker_iff (soldEnv 75) (GlobalMMState.init 3500 350) ⟨Dict.empty⟩ false
    (by decide +kernel) (by decide +kernel) soldRun nextTick 1785 1785 pulledBid
    (by decide +kernel)).1 (by decide +kernel)

/-- After the sale the strategy is short, its reservation price is far above the mid, and the
bid it posts to buy back is filled at once, above four fifths on a mid of one fifth. -/
theorem new_bid_above_mid :
    ¬∀ (env : MMDriverEnv ℚ) (g : GlobalMMState ℚ) (k : KEstimator ℚ) (paused : Bool),
      0 < env.cfg.asParams.spreadFloorBps →
      env.cfg.asParams.spreadFloorBps ≤ env.cfg.asParams.spreadCeilingBps →
      ∀ (ls : List (MMLabel ℚ)) (d : TickDict ℚ) (clock fillClock : ℚ) (o : LimitOrder ℚ),
        o ∈ placedOf ((mmMachine env g).emits
          ((mmMachine env g).final (MMPaperDriver.init k paused) ls) (.tick d clock fillClock)) →
        (o.side = "BUY" → o.price < (tickFromDict d).impliedProbYes) ∧
          (o.side = "SELL" → (tickFromDict d).impliedProbYes < o.price) ∧
          o.fill env.makerFeeBps d.ts ∉ fillsOf ((mmMachine env g).emits
            ((mmMachine env g).final (MMPaperDriver.init k paused) ls)
            (.tick d clock fillClock)) := by
  intro h
  obtain ⟨-, -, hnot⟩ := h (soldEnv 75) (GlobalMMState.init 3500 350) ⟨Dict.empty⟩ false
    (by decide +kernel) (by decide +kernel) soldRun nextTick 1785 1785 pulledBid
    (by decide +kernel)
  exact absurd hnot (by decide +kernel)

end Instance

end TradingEdge.Analysis
