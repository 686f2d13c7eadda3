import TradingEdge.Library.Dict
import TradingEdge.Model.Types

/-!
# The safety guard of the market maker

`MMSafetyGuard` of `engine/mm_safety.py`, as far as the strategy calls it: the inventory cap,
the terminal window, and the ratio of cancels to fills that can kill a market for a while.
The list of alerts, which nothing reads, is left out; the taker fee canary, which nothing calls, is
apart.  A reason is the data its text is made of.
-/

set_option autoImplicit false

namespace TradingEdge.Program

open TradingEdge.Model TradingEdge.Library

/-- SOURCE: engine/mm_safety.py:40-51 -/
structure MMSafetyParams (K : Type) where
  inventoryCapUsdc : K
  cancelFillRatioMax : K
  cancelFillWindowMinutes : ℤ
  cancelFillKillThreshold : ℤ
  cancelFillKillWindowMin : ℤ
  cancelFillResumeMin : ℤ
  tauTerminalS : K
  autoKillOnBreach : Bool

/-- SOURCE: engine/mm_safety.py:54-60 -/
structure MarketMMState (K : Type) where
  cancels : List K
  fills : List K
  breachEvents : List K
  killedUntil : Option K

/-- A market nothing has happened in. -/
def MarketMMState.init {K : Type} : MarketMMState K := ⟨[], [], [], none⟩

/-- SOURCE: engine/mm_safety.py:70-81 -/
structure MMSafetyGuard (K : Type) where
  marketState : Dict String (MarketMMState K)
  inventoryShares : Dict String K

/-- The guard before anything happened. -/
def MMSafetyGuard.init {K : Type} : MMSafetyGuard K := ⟨Dict.empty, Dict.empty⟩

/-- Why a quote is blocked. -/
inductive QuoteBlock (K : Type) where
  | inventoryCap (projectedUsdc : K)
  | terminalWindow (tInWindowS : K)
deriving DecidableEq

variable {K : Type} [Field K] [LinearOrder K]

/-- The inventory of a market in signed shares.
SOURCE: engine/mm_safety.py:113-114 -/
def MMSafetyGuard.inventory (g : MMSafetyGuard K) (slug : String) : K :=
  (g.inventoryShares.get? slug).getD 0

/-- A quote that would take the inventory past the cap, filled in full at the market's price.
SOURCE: engine/mm_safety.py:85-101 -/
def MMSafetyGuard.blockPostQuote (params : MMSafetyParams K) (g : MMSafetyGuard K)
    (slug : String) (sideSign qtyShares pMarket : K) : Option (QuoteBlock K) :=
  let projectedQ := g.inventory slug + sideSign * qtyShares
  let projectedUsdc := |projectedQ * pMarket|
  if params.inventoryCapUsdc < projectedUsdc then some (.inventoryCap projectedUsdc) else none

/-- SOURCE: engine/mm_safety.py:103-107 -/
def MMSafetyParams.blockPostQuoteTerminal (params : MMSafetyParams K) (tInWindowS : K)
    (windowSeconds : ℤ) : Option (QuoteBlock K) :=
  if (windowSeconds : K) - params.tauTerminalS < tInWindowS then
    some (.terminalWindow tInWindowS)
  else none

/-- SOURCE: engine/mm_safety.py:109-111 -/
def MMSafetyGuard.recordInventoryAfterFill (g : MMSafetyGuard K) (slug : String)
    (sideSign qtyShares : K) : MMSafetyGuard K :=
  { g with
    inventoryShares := g.inventoryShares.set slug (g.inventory slug + sideSign * qtyShares) }

/-- SOURCE: engine/mm_safety.py:141-149 -/
def MarketMMState.gcWindow (params : MMSafetyParams K) (st : MarketMMState K) (now : K) :
    MarketMMState K :=
  let cutoff := now - (params.cancelFillWindowMinutes : K) * 60
  let killCutoff := now - (params.cancelFillKillWindowMin : K) * 60
  { st with
    cancels := st.cancels.dropWhile (· < cutoff)
    fills := st.fills.dropWhile (· < cutoff)
    breachEvents := st.breachEvents.dropWhile (· < killCutoff) }

/-- A ratio of cancels to fills above the limit is a breach, at most once a minute; with
enough breaches, and if the guard is told to, the market is killed for a while.
SOURCE: engine/mm_safety.py:151-174 -/
def MarketMMState.maybeBreach (params : MMSafetyParams K) (st : MarketMMState K) (now : K) :
    MarketMMState K :=
  let nFills := max 1 st.fills.length
  let ratio := (st.cancels.length : K) / (nFills : K)
  if ratio ≤ params.cancelFillRatioMax then st
  else if (st.breachEvents.getLast?).any fun last => now - last < 60 then st
  else
    let breachEvents := st.breachEvents ++ [now]
    { st with
      breachEvents := breachEvents
      killedUntil :=
        if params.cancelFillKillThreshold ≤ breachEvents.length ∧ params.autoKillOnBreach then
          some (now + (params.cancelFillResumeMin : K) * 60)
        else st.killedUntil }

/-- SOURCE: engine/mm_safety.py:118-123 -/
def MMSafetyGuard.recordCancel (params : MMSafetyParams K) (g : MMSafetyGuard K)
    (slug : String) (now : K) : MMSafetyGuard K :=
  let st := (g.marketState.get? slug).getD MarketMMState.init
  let st := ({ st with cancels := st.cancels ++ [now] }.gcWindow params now).maybeBreach params now
  { g with marketState := g.marketState.set slug st }

/-- SOURCE: engine/mm_safety.py:125-129 -/
def MMSafetyGuard.recordFill (params : MMSafetyParams K) (g : MMSafetyGuard K)
    (slug : String) (now : K) : MMSafetyGuard K :=
  let st := (g.marketState.get? slug).getD MarketMMState.init
  let st := { st with fills := st.fills ++ [now] }.gcWindow params now
  { g with marketState := g.marketState.set slug st }

/-- Whether a market is killed; a kill that has run out is taken back.
SOURCE: engine/mm_safety.py:131-139 -/
def MMSafetyGuard.isMarketKilled (g : MMSafetyGuard K) (slug : String) (now : K) :
    Bool × MMSafetyGuard K :=
  match g.marketState.get? slug with
  | none => (false, g)
  | some st =>
    match st.killedUntil with
    | none => (false, g)
    | some killedUntil =>
      if killedUntil ≤ now then
        (false, { g with marketState := g.marketState.set slug { st with killedUntil := none } })
      else (true, g)

section Inventory

variable (params : MMSafetyParams K) (g : MMSafetyGuard K) (slug : String) (now : K)

omit [LinearOrder K] in
/-- At first there is no inventory. -/
@[simp] theorem MMSafetyGuard.inventory_init (slug : String) :
    (MMSafetyGuard.init : MMSafetyGuard K).inventory slug = 0 := rfl

/-- A cancel leaves the inventory alone. -/
@[simp] theorem MMSafetyGuard.inventory_recordCancel (slug' : String) :
    (g.recordCancel params slug now).inventory slug' = g.inventory slug' := rfl

/-- Recording a fill leaves the inventory alone. -/
@[simp] theorem MMSafetyGuard.inventory_recordFill (slug' : String) :
    (g.recordFill params slug now).inventory slug' = g.inventory slug' := rfl

/-- Asking leaves the inventory alone. -/
@[simp] theorem MMSafetyGuard.inventory_isMarketKilled (slug' : String) :
    (g.isMarketKilled slug now).2.inventory slug' = g.inventory slug' := by
  unfold isMarketKilled
  split
  · rfl
  · split
    · rfl
    · split <;> rfl

omit [LinearOrder K] in
/-- A fill changes the inventory of its market only. -/
theorem MMSafetyGuard.inventory_recordInventoryAfterFill (sideSign qtyShares : K)
    (slug' : String) :
    (g.recordInventoryAfterFill slug sideSign qtyShares).inventory slug' =
      if slug' = slug then g.inventory slug + sideSign * qtyShares else g.inventory slug' := by
  rw [inventory, recordInventoryAfterFill, Dict.get?_set]
  split
  · rfl
  · rfl

/-- A side is not blocked exactly when its fill keeps the inventory within the cap.
SOURCE: engine/mm_safety.py:85-101 -/
theorem MMSafetyGuard.blockPostQuote_eq_none_iff (sideSign qtyShares pMarket : K) :
    g.blockPostQuote params slug sideSign qtyShares pMarket = none ↔
      |(g.inventory slug + sideSign * qtyShares) * pMarket| ≤ params.inventoryCapUsdc := by
  unfold blockPostQuote
  dsimp only
  split
  · rename_i h
    simp [h]
  · rename_i h
    simpa using h

end Inventory

end TradingEdge.Program
