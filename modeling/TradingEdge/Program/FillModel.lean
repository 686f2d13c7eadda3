import TradingEdge.Model.Types

/-!
# The fill model

The paper engine's fill simulation and settlement (`engine/fill_model.py`).  The random
generator is a parameter: `deterministic_rng(seed).random()` is a fixed function of the
seed text, and it is drawn from once.
-/

set_option autoImplicit false

namespace TradingEdge.Program

open TradingEdge.Model

variable {K : Type} [Field K] [LinearOrder K]

/-- The parameters of a simulated fill.
SOURCE: engine/fill_model.py:17-21 -/
structure FillParams (K : Type) where
  feeK : K
  slippageBps : K
  fillProbability : K

/-- The outcome of a fill attempt.
SOURCE: engine/fill_model.py:24-29 -/
structure FillResult (K : Type) where
  filled : Bool
  entryPrice : K
  slippage : K
  fee : K

/-- `FillResult(False, 0.0, 0.0, 0.0)`. -/
def FillResult.miss : FillResult K := ⟨false, 0, 0, 0⟩

/-- The ask a side buys at: every side but `yesUp` buys the NO token. -/
def askOf (side : Side) (pmYesAsk pmNoAsk : K) : K :=
  if side = .yesUp then pmYesAsk else pmNoAsk

/-- A paper fill at the ask of the chosen side, with slippage on that ask, capped at 0.99,
and the parabolic fee.
SOURCE: engine/fill_model.py:40-63 -/
def simulateFill (random : String → K) (side : Side) (pmYesAsk pmNoAsk stakeUsd : K)
    (params : FillParams K) (seedSource : String) : FillResult K :=
  if params.fillProbability < random seedSource then FillResult.miss
  else
    let base := askOf side pmYesAsk pmNoAsk
    if base ≤ 0 ∨ 1 ≤ base then FillResult.miss
    else
      let slip := base * params.slippageBps / 10000
      let entry := min (base + slip) (99 / 100)
      let fee := params.feeK * entry * (1 - entry) * stakeUsd
      ⟨true, entry, slip, fee⟩

/-- How a position ended.  `error` is the answer for a non-positive entry price. -/
inductive Resolution where
  | win
  | loss
  | error
deriving DecidableEq, Repr

/-- Settlement at window close: the resolution, the exit price and the pnl.
SOURCE: engine/fill_model.py:66-86 -/
def settle (side : Side) (entryPrice stakeUsd fee : K) (outcomeWentUp : Bool) :
    Resolution × K × K :=
  if entryPrice ≤ 0 then (.error, 0, -stakeUsd - fee)
  else
    let shares := stakeUsd / entryPrice
    let choseUp : Bool := side = .yesUp
    let wins := (choseUp && outcomeWentUp) || (!choseUp && !outcomeWentUp)
    let exitPrice : K := if wins then 1 else 0
    let pnl := shares * exitPrice - stakeUsd - fee
    (if wins then .win else .loss, exitPrice, pnl)

/-- Whatever the resolution, the pnl is shares times exit price less stake and fee: the
error branch has exit price 0. -/
theorem settle_pnl (side : Side) (entryPrice stakeUsd fee : K) (outcomeWentUp : Bool) :
    (settle side entryPrice stakeUsd fee outcomeWentUp).2.2 =
      stakeUsd / entryPrice * (settle side entryPrice stakeUsd fee outcomeWentUp).2.1 -
        stakeUsd - fee := by
  unfold settle
  split
  · simp
  · rfl

/-- The fill of an attempt that goes through, on the ask `base`. -/
def fillAt (base stakeUsd : K) (params : FillParams K) : FillResult K :=
  let entry := min (base + base * params.slippageBps / 10000) (99 / 100)
  ⟨true, entry, base * params.slippageBps / 10000,
    params.feeK * entry * (1 - entry) * stakeUsd⟩

/-- An attempt fills exactly when the draw passes and the ask is strictly inside (0, 1).
SOURCE: engine/fill_model.py:54-63 -/
theorem simulateFill_eq (random : String → K) (side : Side)
    (pmYesAsk pmNoAsk stakeUsd : K) (params : FillParams K) (seedSource : String) :
    simulateFill random side pmYesAsk pmNoAsk stakeUsd params seedSource =
      if random seedSource ≤ params.fillProbability ∧ 0 < askOf side pmYesAsk pmNoAsk ∧
          askOf side pmYesAsk pmNoAsk < 1 then
        fillAt (askOf side pmYesAsk pmNoAsk) stakeUsd params
      else FillResult.miss := by
  unfold simulateFill fillAt
  simp only
  by_cases hr : params.fillProbability < random seedSource
  · rw [if_pos hr, if_neg fun h => hr.not_ge h.1]
  · rw [if_neg hr]
    by_cases hb : askOf side pmYesAsk pmNoAsk ≤ 0 ∨ 1 ≤ askOf side pmYesAsk pmNoAsk
    · rw [if_pos hb, if_neg fun h => hb.elim h.2.1.not_ge h.2.2.not_ge]
    · rw [if_neg hb]
      rw [not_or, not_le, not_le] at hb
      rw [if_pos ⟨not_lt.mp hr, hb⟩]

/-- A fill that went through is the fill on the ask of its side. -/
theorem simulateFill_of_filled (random : String → K) (side : Side)
    (pmYesAsk pmNoAsk stakeUsd : K) (params : FillParams K) (seedSource : String)
    (h : (simulateFill random side pmYesAsk pmNoAsk stakeUsd params seedSource).filled =
      true) :
    simulateFill random side pmYesAsk pmNoAsk stakeUsd params seedSource =
      fillAt (askOf side pmYesAsk pmNoAsk) stakeUsd params := by
  rw [simulateFill_eq] at h ⊢
  split at h
  · rw [if_pos (by assumption)]
  · exact absurd h (by simp [FillResult.miss])

/-- So its ask was positive. -/
theorem askOf_pos_of_filled (random : String → K) (side : Side)
    (pmYesAsk pmNoAsk stakeUsd : K) (params : FillParams K) (seedSource : String)
    (h : (simulateFill random side pmYesAsk pmNoAsk stakeUsd params seedSource).filled =
      true) : 0 < askOf side pmYesAsk pmNoAsk := by
  rw [simulateFill_eq] at h
  split at h
  · rename_i hfills
    exact hfills.2.1
  · exact absurd h (by simp [FillResult.miss])

/-- The fee of a fill is the parabolic fee of its own entry price.
SOURCE: engine/fill_model.py:62 -/
theorem fillAt_fee (base stakeUsd : K) (params : FillParams K) :
    (fillAt base stakeUsd params).fee =
      params.feeK * (fillAt base stakeUsd params).entryPrice *
        (1 - (fillAt base stakeUsd params).entryPrice) * stakeUsd := rfl

/-- No fill is above 0.99, so the parabolic fee does not vanish at the upper end. -/
theorem fillAt_entryPrice_lt_one [IsStrictOrderedRing K] (base stakeUsd : K)
    (params : FillParams K) : (fillAt base stakeUsd params).entryPrice < 1 :=
  (min_le_right _ _).trans_lt (by norm_num)

/-- The price is positive, unless slippage takes all of the ask. -/
theorem fillAt_entryPrice_pos [IsStrictOrderedRing K] (base stakeUsd : K)
    (params : FillParams K) (hbase : 0 < base) (hslippage : -10000 < params.slippageBps) :
    0 < (fillAt base stakeUsd params).entryPrice := by
  have hfactor : 0 < 1 + params.slippageBps / 10000 := by linarith
  have hentry : base + base * params.slippageBps / 10000 =
      base * (1 + params.slippageBps / 10000) := by ring
  refine lt_min ?_ (by norm_num)
  rw [hentry]
  exact mul_pos hbase hfactor

end TradingEdge.Program
