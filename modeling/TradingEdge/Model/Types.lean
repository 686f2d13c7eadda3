import Mathlib.Algebra.Order.Field.Basic
import Mathlib.Algebra.Order.Floor.Ring
import Mathlib.Algebra.Order.Ring.Rat
import Mathlib.Data.Rat.Floor
import Mathlib.Tactic.FieldSimp
import Mathlib.Tactic.Linarith
import Mathlib.Tactic.NormNum
import Mathlib.Tactic.Positivity
import Mathlib.Tactic.Ring

/-!
# The shared data of the trading engine

`Side`, `Action`, `TickContext` and `Decision` are the records every engine of the
repository passes around (`engine/types.py`).  Prices, times and probabilities are
elements of an ordered field `K`: the Python code uses floats, and what is studied here
is the arithmetic it spells out.  The transcendental functions it calls are the fields of
`MathLib`.

`TickContext.recent_ticks` is not a field here.  The drivers set it right before they
call a strategy, so it is the second argument of `Strategy.shouldEnter`.
-/

set_option autoImplicit false

namespace TradingEdge.Model

section Numerals

-- Every numeral of a definition carries the proof that it is at least two; with one named
-- proof for each numeral that recurs, all modules' definitions carry the same one.

instance atLeastTwo_2 : Nat.AtLeastTwo 2 := ⟨by decide⟩
instance atLeastTwo_3 : Nat.AtLeastTwo 3 := ⟨by decide⟩
instance atLeastTwo_4 : Nat.AtLeastTwo 4 := ⟨by decide⟩
instance atLeastTwo_5 : Nat.AtLeastTwo 5 := ⟨by decide⟩
instance atLeastTwo_7 : Nat.AtLeastTwo 7 := ⟨by decide⟩
instance atLeastTwo_10 : Nat.AtLeastTwo 10 := ⟨by decide⟩
instance atLeastTwo_15 : Nat.AtLeastTwo 15 := ⟨by decide⟩
instance atLeastTwo_20 : Nat.AtLeastTwo 20 := ⟨by decide⟩
instance atLeastTwo_24 : Nat.AtLeastTwo 24 := ⟨by decide⟩
instance atLeastTwo_25 : Nat.AtLeastTwo 25 := ⟨by decide⟩
instance atLeastTwo_30 : Nat.AtLeastTwo 30 := ⟨by decide⟩
instance atLeastTwo_40 : Nat.AtLeastTwo 40 := ⟨by decide⟩
instance atLeastTwo_50 : Nat.AtLeastTwo 50 := ⟨by decide⟩
instance atLeastTwo_55 : Nat.AtLeastTwo 55 := ⟨by decide⟩
instance atLeastTwo_60 : Nat.AtLeastTwo 60 := ⟨by decide⟩
instance atLeastTwo_90 : Nat.AtLeastTwo 90 := ⟨by decide⟩
instance atLeastTwo_94 : Nat.AtLeastTwo 94 := ⟨by decide⟩
instance atLeastTwo_99 : Nat.AtLeastTwo 99 := ⟨by decide⟩
instance atLeastTwo_100 : Nat.AtLeastTwo 100 := ⟨by decide⟩
instance atLeastTwo_150 : Nat.AtLeastTwo 150 := ⟨by decide⟩
instance atLeastTwo_300 : Nat.AtLeastTwo 300 := ⟨by decide⟩
instance atLeastTwo_365 : Nat.AtLeastTwo 365 := ⟨by decide⟩
instance atLeastTwo_999 : Nat.AtLeastTwo 999 := ⟨by decide⟩
instance atLeastTwo_1000 : Nat.AtLeastTwo 1000 := ⟨by decide⟩
instance atLeastTwo_1200 : Nat.AtLeastTwo 1200 := ⟨by decide⟩
instance atLeastTwo_1500 : Nat.AtLeastTwo 1500 := ⟨by decide⟩
instance atLeastTwo_3600 : Nat.AtLeastTwo 3600 := ⟨by decide⟩
instance atLeastTwo_10000 : Nat.AtLeastTwo 10000 := ⟨by decide⟩
instance atLeastTwo_64000 : Nat.AtLeastTwo 64000 := ⟨by decide⟩
instance atLeastTwo_86400 : Nat.AtLeastTwo 86400 := ⟨by decide⟩
instance atLeastTwo_100000 : Nat.AtLeastTwo 100000 := ⟨by decide⟩
instance atLeastTwo_1000000 : Nat.AtLeastTwo 1000000 := ⟨by decide⟩
instance atLeastTwo_1000000000 : Nat.AtLeastTwo 1000000000 := ⟨by decide⟩

end Numerals

/-- What a strategy asks for.
SOURCE: engine/types.py:8-10 -/
inductive Action where
  | enter
  | skip
deriving DecidableEq, Repr

/-- The token a position holds; `none` is the default of a decision.
SOURCE: engine/types.py:13-16 -/
inductive Side where
  | yesUp
  | yesDown
  | none
deriving DecidableEq, Repr

/-- The text of a side, as it enters the client order id. -/
def Side.value : Side → String
  | .yesUp => "YES_UP"
  | .yesDown => "YES_DOWN"
  | .none => "NONE"

/-- How an order is placed: taken at once, or left to rest in the book.
SOURCE: engine/types.py:19-21 -/
inductive OrderType where
  | market
  | gtc
deriving DecidableEq, Repr

/-- One tick of one market, as the strategies see it.
SOURCE: engine/types.py:24-62 -/
structure TickContext (K : Type) where
  ts : K
  marketSlug : String
  tInWindow : K
  windowCloseTs : K
  spotPrice : K
  chainlinkPrice : Option K
  openPrice : K
  pmYesBid : K
  pmYesAsk : K
  pmNoBid : K
  pmNoAsk : K
  pmDepthYes : K
  pmDepthNo : K
  pmImbalance : K
  pmSpreadBps : K
  impliedProbYes : K
  modelProbYes : K
  edge : K
  zScore : K
  tToClose : K
  emaFast : K
  emaSlow : K
  rsi14 : K
  volRealized : K
  volEwma : K
  deltaBps : K

/-- What a strategy answers: an action, the side to buy, and `payload` for everything the
drivers carry along without looking at it (reason, features, breakdown, order type).
SOURCE: engine/types.py:65-76 -/
structure Decision (P : Type) where
  action : Action
  side : Side
  payload : P

/-- The functions of Python's `math` and of NumPy that the engine calls. -/
structure MathLib (K : Type) where
  log : K → K
  exp : K → K
  sqrt : K → K
  erf : K → K

/-- Rational stand-ins, for running the model where the values do not matter. -/
def MathLib.rational : MathLib ℚ where
  log x := x - 1
  exp x := x + 1
  sqrt x := x
  erf x := x

/-- A strategy is its state and one function of that state, of the tick and of the ticks
before it.  The state includes whatever else `should_enter` reads or changes.
SOURCE: engine/strategy_base.py -/
structure Strategy (K S P : Type) where
  name : String
  shouldEnter : S → TickContext K → List (TickContext K) → Decision P × S

/-- The strategy that always gives the same answer. -/
def Strategy.always {K P : Type} (d : Decision P) : Strategy K Unit P where
  name := "always"
  shouldEnter s _ _ := (d, s)

section Time

variable {K : Type} [Field K] [LinearOrder K] [FloorRing K]

/-- The UTC day of a timestamp, counted from 1970-01-01.  The code writes it as text
(`strftime("%Y-%m-%d")`) and only ever compares two such texts. -/
def utcDay (ts : K) : ℤ := ⌊ts / 86400⌋

/-- Timestamps in order lie on days in order. -/
theorem utcDay_mono [IsStrictOrderedRing K] {a b : K} (h : a ≤ b) : utcDay a ≤ utcDay b :=
  Int.floor_le_floor (div_le_div_of_nonneg_right h (by norm_num))

/-- A market that closes at a multiple of 300 lies inside one UTC day: a day is 288
windows long. -/
theorem utcDay_of_window [IsStrictOrderedRing K] {c : ℤ} {a b : K}
    (ha : 300 * (c : K) - 300 ≤ a) (hab : a ≤ b) (hb : b < 300 * (c : K)) :
    utcDay b = utcDay a := by
  refine le_antisymm ?_ (utcDay_mono hab)
  have key : ∀ d : ℤ, (d : K) ≤ b / 86400 → (d : K) ≤ a / 86400 := by
    intro d hd
    rw [le_div_iff₀ (by norm_num)] at hd ⊢
    have hlt : ((288 * d : ℤ) : K) < (c : K) := by
      push_cast
      linarith
    have hle : ((288 * d : ℤ) : K) ≤ ((c - 1 : ℤ) : K) := by
      exact_mod_cast Int.le_sub_one_of_lt (by exact_mod_cast hlt)
    push_cast at hle
    linarith
  exact Int.le_floor.mpr (key _ (Int.floor_le _))

end Time

end TradingEdge.Model
