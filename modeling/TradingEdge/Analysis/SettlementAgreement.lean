import TradingEdge.Program.BackfillSettles
import TradingEdge.Program.BacktestDriver
import TradingEdge.Program.PaperDriver

/-!
# Three settlements

A position is settled in three places: by the live driver, by the backfill script from the
order row, and by the backtest.  They share the profit formula and differ in one
comparison.  The backtest resolves a close equal to the strike UP, as the market's terms
say; the other two ask for a close strictly above it, so a tie is the one input on which
the three part.
-/

set_option autoImplicit false

namespace TradingEdge.Analysis

open TradingEdge.Model TradingEdge.Program

/-- The slugs of the exchange are made of letters, digits and dashes; what matters here is
that they have no dot. -/
def IsSlug (slug : String) : Prop := '.' ∉ slug.toList

instance (slug : String) : Decidable (IsSlug slug) :=
  inferInstanceAs (Decidable ('.' ∉ slug.toList))

section Sides

/-- The script reads the side of an order back off its instrument id.
SOURCE: scripts/backfill_paper_settles.py:39-41, paper/exec_client.py:155 -/
theorem sideFromSlug_instrumentId (slug : String) (side : Side) (h : IsSlug slug) :
    sideFromSlug (instrumentId slug side) = .yesUp ↔ side = .yesUp := by
  have hiff : sideFromSlug (instrumentId slug side) = .yesUp ↔
      "-YES.".toList <:+: (instrumentId slug side).toList := by
    unfold sideFromSlug
    split <;> simp_all
  rw [hiff, instrumentId, String.toList_append, String.toList_append]
  by_cases hs : side = .yesUp
  · simp only [hs, if_true, iff_true]
    exact ⟨slug.toList, "POLYMARKET".toList, by simp⟩
  · simp only [hs, if_false, iff_false]
    rintro ⟨pre, post, heq⟩
    -- the only dot of the instrument id ends "-NO", so the infix would end there too
    have hdot : (slug.toList ++ "-NO".toList) ++ '.' :: "POLYMARKET".toList =
        (pre ++ "-YES".toList) ++ '.' :: post := by
      simpa using heq.symm
    have hno : '.' ∉ slug.toList ++ "-NO".toList := by
      simpa [IsSlug] using h
    obtain ⟨hpre, -, -⟩ := (List.append_cons_inj_of_notMem hno (by decide)).mp hdot
    have hlast := congrArg List.getLast? hpre
    simp at hlast

end Sides

variable {K : Type} [Field K] [LinearOrder K]

/-- The order row that the entry of a position wrote. -/
def orderOf (pos : Position K) : OrderRow K where
  orderId := pos.clientOrderId
  strategyId := pos.strategyId
  instrumentId := instrumentId pos.marketSlug pos.side
  qty := pos.stakeUsd / pos.entryPrice
  price := pos.entryPrice
  tsSubmit := pos.entryTs
  tsLastUpdate := pos.entryTs + 100 / 1000

/-- The order an entry writes is the order of the position it returns.
SOURCE: paper/exec_client.py:135-168, 206-219 -/
theorem tryEnter_order (lib : ExecLib K) (cfg : ExecConfig K) (killSwitchActive : Bool)
    (req : EntryRequest K) (a : EntryAttempt K)
    (h : tryEnter lib cfg killSwitchActive req = .ok a) : a.order = orderOf a.position := by
  unfold tryEnter at h
  split at h
  · cases h
  split at h
  · cases h
  split at h
  · cases h
  dsimp only at h
  split at h
  · cases h
  split at h
  · cases h
  cases h
  rfl

/-- A settlement, as the three places report it: won or not, and the gross pnl. -/
structure Settlement (K : Type) where
  won : Prop
  pnl : K

/-- The live driver settles a position.
SOURCE: paper/driver.py:554-562, paper/exec_client.py:232-241 -/
def liveSettlement (pos : Position K) (settleTs openPrice finalPrice : K) : Settlement K :=
  let r := (settleFill pos settleTs (wentUp finalPrice openPrice)).1
  ⟨r.1 = .win, r.2.2⟩

/-- The script settles the order of the position.
SOURCE: scripts/backfill_paper_settles.py:172-183 -/
def backfillSettlement (pos : Position K) (openPrice finalPrice : K) : Settlement K :=
  let r := (settleOrder (orderOf pos) openPrice finalPrice).2
  ⟨r.1 = .win, r.2.2⟩

/-- The backtest settles the same trade.
SOURCE: engine/backtest_driver.py:292-298 -/
def backtestSettlement (pos : Position K) (openPrice finalPrice : K) : Settlement K :=
  let won := wonMarket openPrice finalPrice pos.side
  ⟨won = true, resolvePnl pos.entryPrice pos.stakeUsd won⟩

/-- Two settlements agree on who won and on the pnl. -/
def Settlement.Agrees (a b : Settlement K) : Prop := (a.won ↔ b.won) ∧ a.pnl = b.pnl

/-- With the same outcome, the fill model's settlement without fee and the backtest's pnl
formula give the same result.
SOURCE: engine/fill_model.py:66-86, engine/backtest_driver.py:119-123 -/
theorem settle_eq_resolvePnl (side : Side) (entryPrice stakeUsd : K) (up : Bool)
    (hentry : 0 < entryPrice) :
    ((settle side entryPrice stakeUsd 0 up).1 = .win ↔ (up = true ↔ side = .yesUp)) ∧
      (settle side entryPrice stakeUsd 0 up).2.2 =
        resolvePnl entryPrice stakeUsd (decide (up = true ↔ side = .yesUp)) := by
  unfold settle resolvePnl
  rw [if_neg hentry.not_ge, if_neg hentry.not_ge]
  by_cases hs : side = .yesUp <;> cases up <;> simp [hs]

/-- The backtest's winner at positive prices. -/
theorem wonMarket_iff (openPrice finalPrice : K) (side : Side) (hopen : 0 < openPrice)
    (hfinal : 0 < finalPrice) :
    wonMarket openPrice finalPrice side = true ↔
      (openPrice ≤ finalPrice ↔ side = .yesUp) := by
  unfold wonMarket
  rw [if_neg fun h => h.elim hopen.not_ge hfinal.not_ge]
  by_cases hs : side = .yesUp <;> simp [hs]

/-- The script settles a position as the live driver does: it recovers side and stake from
the order, and compares the prices the same way.
SOURCE: scripts/backfill_paper_settles.py:172-183 -/
theorem backfillSettlement_eq_live (pos : Position K) (settleTs openPrice finalPrice : K)
    (hslug : IsSlug pos.marketSlug) (hentry : 0 < pos.entryPrice) :
    (backfillSettlement pos openPrice finalPrice).Agrees
      (liveSettlement pos settleTs openPrice finalPrice) := by
  have hstake : (orderOf pos).qty * (orderOf pos).price = pos.stakeUsd :=
    div_mul_cancel₀ _ hentry.ne'
  have hside : sideFromSlug (orderOf pos).instrumentId = .yesUp ↔ pos.side = .yesUp :=
    sideFromSlug_instrumentId _ _ hslug
  have hscript := settle_eq_resolvePnl (sideFromSlug (orderOf pos).instrumentId)
    pos.entryPrice pos.stakeUsd (wentUp finalPrice openPrice) hentry
  have hlive := settle_eq_resolvePnl pos.side pos.entryPrice pos.stakeUsd
    (wentUp finalPrice openPrice) hentry
  have hback : (settleOrder (orderOf pos) openPrice finalPrice).2 =
      settle (sideFromSlug (orderOf pos).instrumentId) pos.entryPrice pos.stakeUsd 0
        (wentUp finalPrice openPrice) := by
    simp only [settleOrder, hstake]
    rfl
  simp only [Settlement.Agrees, backfillSettlement, liveSettlement, settleFill, hback]
  constructor
  · rw [hscript.1, hlive.1, hside]
  · rw [hscript.2, hlive.2]
    simp only [hside]

/-- The live driver and the backtest settle a position alike exactly when the strict and
the weak comparison of close and strike say the same. -/
theorem liveSettlement_agrees_iff (pos : Position K) (settleTs openPrice finalPrice : K)
    (hentry : 0 < pos.entryPrice) (hopen : 0 < openPrice) (hfinal : 0 < finalPrice) :
    (liveSettlement pos settleTs openPrice finalPrice).Agrees
        (backtestSettlement pos openPrice finalPrice) ↔
      (openPrice < finalPrice ↔ openPrice ≤ finalPrice) := by
  have hlive := settle_eq_resolvePnl pos.side pos.entryPrice pos.stakeUsd
    (wentUp finalPrice openPrice) hentry
  have hwon := wonMarket_iff openPrice finalPrice pos.side hopen hfinal
  have hup : wentUp finalPrice openPrice = true ↔ openPrice < finalPrice := by
    simp [wentUp]
  simp only [Settlement.Agrees, liveSettlement, backtestSettlement, settleFill]
  rw [hlive.1, hlive.2, hwon]
  constructor
  · rintro ⟨h, -⟩
    rw [hup] at h
    by_cases hside : pos.side = .yesUp
    · simpa only [hside, iff_true] using h
    · simpa only [hside, iff_false, not_iff_not] using h
  · intro h
    refine ⟨by rw [hup, h], ?_⟩
    congr 1
    rw [Bool.eq_iff_iff, decide_eq_true_iff, hwon, hup, h]

/-- **The three settlements agree exactly away from the tie.** For a position with a positive
entry price and positive open and final prices, live driver, script and backtest agree on
win or loss and on the gross pnl, and all three resolve a tie UP, exactly when the final
price is not the open price.
SOURCE: paper/driver.py:554, scripts/backfill_paper_settles.py:172,
engine/backtest_driver.py:106-123 -/
theorem settlements_agree_iff (pos : Position K) (settleTs openPrice finalPrice : K)
    (hslug : IsSlug pos.marketSlug) (hentry : 0 < pos.entryPrice) (hopen : 0 < openPrice)
    (hfinal : 0 < finalPrice) :
    ((liveSettlement pos settleTs openPrice finalPrice).Agrees
        (backtestSettlement pos openPrice finalPrice) ∧
      (backfillSettlement pos openPrice finalPrice).Agrees
        (backtestSettlement pos openPrice finalPrice) ∧
      (finalPrice = openPrice → wentUp finalPrice openPrice = true ∧
        (settleOrder (orderOf pos) openPrice finalPrice).1 = true ∧
        wonMarket openPrice finalPrice .yesUp = true)) ↔
      finalPrice ≠ openPrice := by
  have hlive := liveSettlement_agrees_iff pos settleTs openPrice finalPrice hentry hopen hfinal
  have hback := backfillSettlement_eq_live pos settleTs openPrice finalPrice hslug hentry
  constructor
  · rintro ⟨hagree, -, -⟩ heq
    exact lt_irrefl _ (heq ▸ (hlive.mp hagree).mpr heq.ge)
  · intro hne
    have hcmp : openPrice < finalPrice ↔ openPrice ≤ finalPrice :=
      ⟨le_of_lt, fun h => lt_of_le_of_ne h (Ne.symm hne)⟩
    have hagree := hlive.mpr hcmp
    exact ⟨hagree, ⟨hback.1.trans hagree.1, hback.2.trans hagree.2⟩,
      fun heq => absurd heq hne⟩

section Instance

/-- A position that bought the YES token of a BTC market at one half. -/
def boughtUp : Position ℚ where
  marketSlug := "btc-updown-5m-1500"
  conditionId := "0x1"
  side := .yesUp
  entryTs := 1400
  entryPrice := 1 / 2
  stakeUsd := 5
  slippage := 0
  fee := 0
  clientOrderId := "a"
  windowCloseTs := 1500
  openPrice := 100
  strategyId := "s"

/-- At a close equal to the strike the live driver and the script lose the stake that the backtest
wins.
SOURCE: paper/driver.py:554 -/
theorem settlements_part_at_tie :
    ¬((liveSettlement boughtUp 1500 100 100).Agrees (backtestSettlement boughtUp 100 100)) ∧
      (liveSettlement boughtUp 1500 100 100).pnl = -5 ∧
      (backfillSettlement boughtUp 100 100).pnl = -5 ∧
      (backtestSettlement boughtUp 100 100).pnl = 5 := by
  have hlive : (liveSettlement boughtUp 1500 100 100).pnl = -5 := by decide +kernel
  have hback : (backtestSettlement boughtUp 100 100).pnl = 5 := by decide +kernel
  refine ⟨fun h => ?_, hlive, by decide +kernel, hback⟩
  have := h.2
  rw [hlive, hback] at this
  exact absurd this (by norm_num)

/-- The comparison at a close above the strike. -/
theorem settlements_agree_boughtUp :
    (liveSettlement boughtUp 1500 100 101).Agrees (backtestSettlement boughtUp 100 101) :=
  ((settlements_agree_iff boughtUp 1500 100 101 (by decide) (by decide +kernel)
    (by norm_num) (by norm_num)).mpr (by norm_num)).1

end Instance

end TradingEdge.Analysis
