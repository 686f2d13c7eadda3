import TradingEdge.Analysis.QuoteLedger

/-!
# Working off a position that is over the cap

The guard looks at the exposure a quote would leave, not at whether the quote extends it.  Where
the exposure at the price of the quote is within the cap, a quote that takes the inventory no
further from zero always passes.  Where the price has carried it past the cap, the same quote is
held up unless its one fill brings the exposure back under the cap (`reducing_pass_iff`).  A
position that is over the cap by more than one quote is worth is then not quoted at all, on either
side, and stays as it is until the price comes back (`stuck_over_cap`).
-/

set_option autoImplicit false

namespace TradingEdge.Analysis

open TradingEdge.Library TradingEdge.Model TradingEdge.Program

variable {K : Type} [Field K] [LinearOrder K]

/-- The move leaves a quote on its side: a new one, or the one it found. -/
def LeavesQuote (move : SideMove K) : Prop := Posts move ∨ move.kept.isSome

/-- What a tick does on a side, if it quotes. -/
def moveOf (env : MMEnv K) (m : MMRebate K) (ctx : TickContext K) (side : Side) : SideMove K :=
  if side = .yesUp then m.bidMove env ctx else m.askMove env ctx

/-- At the price of a tick the guard holds up only quotes that take the inventory further from
zero and past the cap, and the strategy quotes every side whose fill does not take it further.
SOURCE: engine/mm_safety.py:85-101, strategies/polymarket_btc15m/mm_rebate_v1.py:183-199,
249-261 -/
structure ReducingPasses (env : MMEnv K) (m : MMRebate K) (ctx : TickContext K) : Prop where
  guard : ∀ sign qty, sign = 1 ∨ sign = -1 → 0 ≤ qty →
    (m.safety.blockPostQuote env.cfg.safetyParams ctx.marketSlug sign qty
      ctx.impliedProbYes).isSome →
    |m.safety.inventory ctx.marketSlug| < |m.safety.inventory ctx.marketSlug + sign * qty| ∧
      env.cfg.safetyParams.inventoryCapUsdc <
        |(m.safety.inventory ctx.marketSlug + sign * qty) * ctx.impliedProbYes|
  strategy : ∀ side, side = .yesUp ∨ side = .yesDown →
    |m.safety.inventory ctx.marketSlug + sideSign side * m.qtyOf env ctx| ≤
      |m.safety.inventory ctx.marketSlug| →
    LeavesQuote (moveOf env m ctx side)

/-- A side that the guard lets pass has a quote after its move.
SOURCE: strategies/polymarket_btc15m/mm_rebate_v1.py:258-287 -/
theorem leavesQuote_of_block_eq_none {env : MMEnv K} {g : MMSafetyGuard K}
    {live : List (LiveQuote K)} {slug : String} {side : Side} {price qtyShares pFair : K}
    (h : g.blockPostQuote env.cfg.safetyParams slug (sideSign side) qtyShares pFair = none) :
    LeavesQuote (sideMove env g live slug side price qtyShares pFair) := by
  unfold sideMove
  rw [h]
  cases live.find? fun q => q.side = side with
  | none => exact Or.inl (Or.inl rfl)
  | some old =>
    by_cases hmoved : old.Moved price
    · simp only [hmoved, if_true]
      exact Or.inl (Or.inr ⟨old, rfl⟩)
    · simp only [hmoved, if_false]
      exact Or.inr rfl

/-- So does either side of a tick. -/
theorem moveOf_leavesQuote {env : MMEnv K} {m : MMRebate K} {ctx : TickContext K} {side : Side}
    (hside : side = .yesUp ∨ side = .yesDown)
    (h : m.safety.blockPostQuote env.cfg.safetyParams ctx.marketSlug (sideSign side)
      (m.qtyOf env ctx) ctx.impliedProbYes = none) : LeavesQuote (moveOf env m ctx side) := by
  rcases hside with rfl | rfl
  · exact leavesQuote_of_block_eq_none h
  · exact leavesQuote_of_block_eq_none h

/-- A side that the guard holds up is given up.
SOURCE: strategies/polymarket_btc15m/mm_rebate_v1.py:258-261 -/
theorem actions_of_block_isSome {env : MMEnv K} {g : MMSafetyGuard K}
    {live : List (LiveQuote K)} {slug : String} {side : Side} {price qtyShares pFair : K}
    (h : (g.blockPostQuote env.cfg.safetyParams slug (sideSign side) qtyShares pFair).isSome)
    (new : PostQuote K) :
    ∀ a ∈ (sideMove env g live slug side price qtyShares pFair).actions slug new,
      ∃ coid, a = .cancel coid slug "inventory_cap" := by
  obtain ⟨reason, hreason⟩ := Option.isSome_iff_exists.mp h
  unfold sideMove
  rw [hreason]
  cases live.find? fun q => q.side = side with
  | none =>
    intro a ha
    cases ha
  | some old =>
    intro a ha
    exact ⟨old.clientOrderId, List.mem_singleton.mp ha⟩

section Exposure

variable [IsStrictOrderedRing K]

/-- An inventory that is no further from zero is worth no more. -/
theorem exposure_le {q q' p : K} (h : |q'| ≤ |q|) : |q' * p| ≤ |q * p| := by
  rw [abs_mul, abs_mul]
  exact mul_le_mul_of_nonneg_right h (abs_nonneg p)

/-- One fill takes the exposure down by what the quote is worth at most. -/
theorem exposure_after_ge (q p : K) {sign qty : K} (hsign : |sign| = 1) (hqty : 0 ≤ qty) :
    |q * p| - qty * |p| ≤ |(q + sign * qty) * p| := by
  have hquote : |sign * qty * p| = qty * |p| := by
    rw [abs_mul, abs_mul, hsign, one_mul, abs_of_nonneg hqty]
  have hsplit : q * p = (q + sign * qty) * p - sign * qty * p := by ring
  have htriangle := abs_sub ((q + sign * qty) * p) (sign * qty * p)
  rw [← hsplit, hquote] at htriangle
  exact sub_le_iff_le_add.mpr htriangle

omit [LinearOrder K] [IsStrictOrderedRing K] in
/-- A side counts up or down. -/
theorem sideSign_cases (side : Side) : (sideSign side : K) = 1 ∨ (sideSign side : K) = -1 := by
  unfold sideSign
  split
  · exact Or.inl rfl
  · exact Or.inr rfl

/-- **When a position can be worked off.** Every quote that takes the inventory no further from
zero passes, exactly when the exposure at the price of the tick is within the cap already.
SOURCE: engine/mm_safety.py:85-101, strategies/polymarket_btc15m/mm_rebate_v1.py:183-199,
249-261 -/
theorem reducing_pass_iff (env : MMEnv K) (m : MMRebate K) (ctx : TickContext K) :
    ReducingPasses env m ctx ↔
      |m.safety.inventory ctx.marketSlug * ctx.impliedProbYes| ≤
        env.cfg.safetyParams.inventoryCapUsdc := by
  constructor
  · intro h
    -- the quote of no shares at all
    by_contra hover
    have hblocked : (m.safety.blockPostQuote env.cfg.safetyParams ctx.marketSlug 1 0
        ctx.impliedProbYes).isSome := by
      rw [← Option.not_isNone, Bool.not_eq_true', Bool.eq_false_iff]
      intro hnone
      rw [Option.isNone_iff_eq_none, MMSafetyGuard.blockPostQuote_eq_none_iff, mul_zero,
        add_zero] at hnone
      exact hover hnone
    have hextends := (h.guard 1 0 (Or.inl rfl) (le_refl 0) hblocked).1
    rw [mul_zero, add_zero] at hextends
    exact lt_irrefl _ hextends
  · intro hcap
    refine ⟨?_, ?_⟩
    · intro sign qty _ _ hblocked
      have hpast : env.cfg.safetyParams.inventoryCapUsdc <
          |(m.safety.inventory ctx.marketSlug + sign * qty) * ctx.impliedProbYes| := by
        by_contra hwithin
        rw [(m.safety.blockPostQuote_eq_none_iff env.cfg.safetyParams ctx.marketSlug sign qty
          ctx.impliedProbYes).mpr (not_lt.mp hwithin)] at hblocked
        cases hblocked
      refine ⟨?_, hpast⟩
      by_contra hreduces
      exact absurd ((exposure_le (not_lt.mp hreduces)).trans hcap) (not_le.mpr hpast)
    · intro side hside hreduces
      apply moveOf_leavesQuote hside
      rw [MMSafetyGuard.blockPostQuote_eq_none_iff]
      exact (exposure_le hreduces).trans hcap

/-- **A position over the cap by more than a quote is stuck.** The tick only gives quotes up, and
the inventory stays.
SOURCE: strategies/polymarket_btc15m/mm_rebate_v1.py:183-199, 249-261 -/
theorem stuck_over_cap (env : MMEnv K) (m : MMRebate K) (ctx : TickContext K) (now : K)
    (hquotes : m.Quotes env ctx now) (hqty : 0 ≤ m.qtyOf env ctx)
    (hover : env.cfg.safetyParams.inventoryCapUsdc + m.qtyOf env ctx * |ctx.impliedProbYes| <
      |m.safety.inventory ctx.marketSlug * ctx.impliedProbYes|) :
    (∀ a ∈ (m.onTick env ctx now).1, ∃ coid,
      a = .cancel coid ctx.marketSlug "inventory_cap") ∧
    (m.onTick env ctx now).2.safety.inventory ctx.marketSlug =
      m.safety.inventory ctx.marketSlug := by
  have hblocked : ∀ side, (m.safety.blockPostQuote env.cfg.safetyParams ctx.marketSlug
      (sideSign side) (m.qtyOf env ctx) ctx.impliedProbYes).isSome := by
    intro side
    have hsign : |(sideSign side : K)| = 1 := by
      rcases sideSign_cases (K := K) side with h | h
      · rw [h, abs_one]
      · rw [h, abs_neg, abs_one]
    have hafter := exposure_after_ge (m.safety.inventory ctx.marketSlug) ctx.impliedProbYes
      hsign hqty
    rw [← Option.not_isNone, Bool.not_eq_true', Bool.eq_false_iff]
    intro hnone
    rw [Option.isNone_iff_eq_none, MMSafetyGuard.blockPostQuote_eq_none_iff] at hnone
    linarith
  obtain ⟨hactions, -, hinventory⟩ := m.onTick_of_quotes env ctx now hquotes ctx.marketSlug
  refine ⟨?_, hinventory⟩
  intro a ha
  rw [hactions, List.mem_append] at ha
  rcases ha with hbid | hask
  · exact actions_of_block_isSome (hblocked .yesUp) _ a hbid
  · exact actions_of_block_isSome (hblocked .yesDown) _ a hask

end Exposure

section Instance

/-- 400 shares bought at ten cents, within a cap of 50 dollars. -/
def boughtLow : MMRebate ℚ :=
  { MMRebate.init ⟨Dict.empty⟩ with
    safety := MMSafetyGuard.init.recordInventoryAfterFill "btc-updown-15m-900" 1 400 }

/-- The price has gone up to 20 cents. -/
def tickUp : TickContext ℚ := tickFromDict (btcTick 1775 875 (1 / 5))

/-- An inventory bought low, against the cap. -/
theorem reducing_pass_iff_boughtLow :
    ReducingPasses (soldEnv 50).toMMEnv boughtLow tickUp ↔
      |boughtLow.safety.inventory tickUp.marketSlug * tickUp.impliedProbYes| ≤
        (soldEnv 50).toMMEnv.cfg.safetyParams.inventoryCapUsdc :=
  reducing_pass_iff _ _ _

/-- Selling brings the exposure down, but not under the cap at once: the guard holds the sale up,
and the tick does nothing. -/
theorem sale_held_up :
    ¬∀ (env : MMEnv ℚ) (m : MMRebate ℚ) (ctx : TickContext ℚ), ReducingPasses env m ctx := by
  intro h
  have hguard := (h (soldEnv 50).toMMEnv boughtLow tickUp).guard (-1) 10 (Or.inr rfl)
    (by norm_num) (by decide +kernel)
  exact absurd hguard.1 (by decide +kernel)

end Instance

end TradingEdge.Analysis
