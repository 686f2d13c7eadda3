import TradingEdge.Library.Table
import TradingEdge.Program.FillModel

/-!
# The simulated execution client

`SimulatedExecutionClient` of `paper/exec_client.py`.  `tryEnter` is the part of
`try_enter` before its first `await`: the guards, the fill, and the two rows and the
position that the rest of the call persists and returns.  `settleFill` is the part of
`settle` before its `await`.  The two database writes of an entry and the one of a
settlement are steps of the paper driver.
-/

set_option autoImplicit false

namespace TradingEdge.Program

open TradingEdge.Model TradingEdge.Library

/-- The functions of the standard library an entry goes through: the first sixteen hex
digits of SHA-256, the `.6f` format, and the first draw of a generator seeded with a text. -/
structure ExecLib (K : Type) where
  sha16 : String → String
  fmt6 : K → String
  random : String → K

/-- SOURCE: paper/exec_client.py:72-74 -/
structure ExecConfig (K : Type) where
  strategyId : String
  fillParams : FillParams K

/-- SOURCE: paper/exec_client.py:38-57 -/
structure Position (K : Type) where
  marketSlug : String
  conditionId : String
  side : Side
  entryTs : K
  entryPrice : K
  stakeUsd : K
  slippage : K
  fee : K
  clientOrderId : String
  windowCloseTs : K
  openPrice : K
  strategyId : String

/-- A row of `trading.orders`, less the columns that are constant in this client.
SOURCE: paper/exec_client.py:135-168 -/
structure OrderRow (K : Type) where
  orderId : String
  strategyId : String
  instrumentId : String
  qty : K
  price : K
  tsSubmit : K
  tsLastUpdate : K

/-- The `metadata` of a fill. -/
inductive FillMetadata (K : Type) where
  | entry
  | settle (resolution : Resolution) (pnl : K)

/-- A row of `trading.fills`, less the columns that are constant in this client.
SOURCE: paper/exec_client.py:169-199, 243-272 -/
structure FillRow (K : Type) where
  fillId : String
  orderId : String
  ts : K
  price : K
  qty : K
  fee : K
  metadata : FillMetadata K

/-- The primary key of `trading.orders`. -/
def OrderRow.key {K : Type} (r : OrderRow K) : String × K := (r.orderId, r.tsSubmit)

/-- The primary key of `trading.fills`. -/
def FillRow.key {K : Type} (r : FillRow K) : String × K := (r.fillId, r.ts)

/-- The arguments of `try_enter`.
SOURCE: paper/exec_client.py:80-95 -/
structure EntryRequest (K : Type) where
  ts : K
  conditionId : String
  slug : String
  side : Side
  stakeUsd : K
  pmYesAsk : K
  pmNoAsk : K
  bookLastUpdateTs : K
  tInWindow : K
  latestEntryT : K
  windowCloseTs : K
  openPrice : K

/-- Why `try_enter` returns `None` before it writes anything.  `persistErr` is the
exception that building the rows raises on an entry price of zero. -/
inductive EntryReject where
  | killSwitch
  | lateEntry
  | staleBook
  | fillMiss
  | persistErr
deriving DecidableEq, Repr

/-- What an entry that passed its guards is about to persist and return. -/
structure EntryAttempt (K : Type) where
  position : Position K
  order : OrderRow K
  fill : FillRow K

variable {K : Type} [Field K] [LinearOrder K]

/-- The id of an order, the same for the same strategy, market, time and side.
SOURCE: paper/exec_client.py:60-62 -/
def clientOrderId (lib : ExecLib K) (strategy slug : String) (ts : K) (side : Side) :
    String :=
  lib.sha16 (strategy ++ "|" ++ slug ++ "|" ++ lib.fmt6 ts ++ "|" ++ side.value)

/-- The token an order buys. -/
def instrumentId (slug : String) (side : Side) : String :=
  slug ++ (if side = .yesUp then "-YES" else "-NO") ++ ".POLYMARKET"

/-- The guards, the fill and the rows of an entry.
SOURCE: paper/exec_client.py:80-230 -/
def tryEnter (lib : ExecLib K) (cfg : ExecConfig K) (killSwitchActive : Bool)
    (req : EntryRequest K) : Except EntryReject (EntryAttempt K) :=
  if killSwitchActive then .error .killSwitch
  else if req.latestEntryT - 5 < req.tInWindow then .error .lateEntry
  else if 10 < req.ts - req.bookLastUpdateTs then .error .staleBook
  else
    let coid := clientOrderId lib cfg.strategyId req.slug req.ts req.side
    let fill := simulateFill lib.random req.side req.pmYesAsk req.pmNoAsk req.stakeUsd
      cfg.fillParams coid
    if ¬fill.filled then .error .fillMiss
    else if fill.entryPrice = 0 then .error .persistErr
    else
      let tsFill := req.ts + 100 / 1000
      .ok {
        position := {
          marketSlug := req.slug
          conditionId := req.conditionId
          side := req.side
          entryTs := req.ts
          entryPrice := fill.entryPrice
          stakeUsd := req.stakeUsd
          slippage := fill.slippage
          fee := fill.fee
          clientOrderId := coid
          windowCloseTs := req.windowCloseTs
          openPrice := req.openPrice
          strategyId := cfg.strategyId }
        order := {
          orderId := coid
          strategyId := cfg.strategyId
          instrumentId := instrumentId req.slug req.side
          qty := req.stakeUsd / fill.entryPrice
          price := fill.entryPrice
          tsSubmit := req.ts
          tsLastUpdate := tsFill }
        fill := {
          fillId := coid ++ "-fill"
          orderId := coid
          ts := tsFill
          price := fill.entryPrice
          qty := req.stakeUsd / fill.entryPrice
          fee := fill.fee
          metadata := .entry } }

/-- What `settle` returns, and the exit fill it offers to the database.  The fee it passes
to the fill model is zero.
SOURCE: paper/exec_client.py:232-285 -/
def settleFill (position : Position K) (settleTs : K) (outcomeWentUp : Bool) :
    (Resolution × K × K) × FillRow K :=
  let r := settle position.side position.entryPrice position.stakeUsd 0 outcomeWentUp
  (r, {
    fillId := position.clientOrderId ++ "-exit"
    orderId := position.clientOrderId
    ts := settleTs
    price := r.2.1
    qty := position.stakeUsd / max position.entryPrice (1 / 1000000000)
    fee := 0
    metadata := .settle r.1 r.2.2 })

/-- What an entry that passes has gone through, and what it is going to leave behind.
SOURCE: paper/exec_client.py:96-230 -/
theorem tryEnter_ok (lib : ExecLib K) (cfg : ExecConfig K) (killSwitchActive : Bool)
    (req : EntryRequest K) (a : EntryAttempt K)
    (h : tryEnter lib cfg killSwitchActive req = .ok a) :
    a.position.marketSlug = req.slug ∧ a.position.windowCloseTs = req.windowCloseTs ∧
      a.position.conditionId = req.conditionId ∧ a.position.stakeUsd = req.stakeUsd ∧
      a.position.entryPrice = (fillAt (askOf req.side req.pmYesAsk req.pmNoAsk)
        req.stakeUsd cfg.fillParams).entryPrice ∧
      a.position.fee = (fillAt (askOf req.side req.pmYesAsk req.pmNoAsk) req.stakeUsd
        cfg.fillParams).fee ∧
      a.position.entryPrice ≠ 0 ∧ a.fill.fee = a.position.fee ∧
      a.fill.orderId = a.position.clientOrderId := by
  unfold tryEnter at h
  split at h
  · cases h
  split at h
  · cases h
  split at h
  · cases h
  dsimp only at h
  split at h
  · cases h
  rename_i hfilled
  rw [not_not] at hfilled
  have hfill := simulateFill_of_filled _ _ _ _ _ _ _ hfilled
  split at h
  · cases h
  rename_i hne
  cases h
  rw [hfill] at hne ⊢
  exact ⟨rfl, rfl, rfl, rfl, rfl, rfl, hne, rfl, rfl⟩

/-- The pnl of a settlement, with the zero fee it is computed with. -/
theorem settleFill_pnl (position : Position K) (settleTs : K) (outcomeWentUp : Bool) :
    (settleFill position settleTs outcomeWentUp).1.2.2 =
      position.stakeUsd / position.entryPrice *
        (settleFill position settleTs outcomeWentUp).1.2.1 - position.stakeUsd := by
  simp only [settleFill]
  rw [settle_pnl, sub_zero]

end TradingEdge.Program
