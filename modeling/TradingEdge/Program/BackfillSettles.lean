import Mathlib.Data.List.Sort
import TradingEdge.Library.Rounding
import TradingEdge.Program.ExecClient
import TradingEdge.Program.PriceTables

/-!
# The backfill of missing settlements

The script `scripts/backfill_paper_settles.py` settles the paper orders that have no settle
fill, from the order row alone: the side is read off the instrument id, the stake is
quantity times price, and the open and close prices come from the price tables.  A run reads
the orders, then the prices, and at last writes the exit fills of the orders that are due.
-/

set_option autoImplicit false

namespace TradingEdge.Program

open TradingEdge.Model TradingEdge.Library

variable {K : Type} [Field K] [LinearOrder K]

/-- The side of an order, from the text of its instrument.
SOURCE: scripts/backfill_paper_settles.py:39-41 -/
def sideFromSlug (instrumentId : String) : Side :=
  if "-YES.".toList <:+: instrumentId.toList then .yesUp else .yesDown

/-- Why an order is left unsettled.
SOURCE: scripts/backfill_paper_settles.py:155-171 -/
inductive SkipReason where
  | noMarketRow
  | stillOpen
  | noOhlcvClose
  | noOpenPrice
deriving DecidableEq, Repr

/-- The outcome, resolution, exit price and pnl of an order at given prices.
SOURCE: scripts/backfill_paper_settles.py:172-183 -/
def settleOrder (order : OrderRow K) (openPrice settlePrice : K) :
    Bool × Resolution × K × K :=
  let wentUp : Bool := openPrice < settlePrice
  let stakeUsd := order.qty * order.price
  let side := sideFromSlug order.instrumentId
  (wentUp, settle side order.price stakeUsd 0 wentUp)

/-- The first positive recorded open price of a market.
SOURCE: scripts/backfill_paper_settles.py:100-119 -/
def paperOpenPrice (ticks : List (PaperTickRow K)) (conditionId : String) : Option K :=
  ((ticks.filter fun r =>
      r.conditionId = conditionId ∧ r.openPrice.any fun p => 0 < p).argmin (fun r => r.ts)).bind (·.openPrice)

/-- The prices the script settles an order at, or why it skips it.
SOURCE: scripts/backfill_paper_settles.py:154-172 -/
def backfillPrices [FloorRing K] (tables : PriceTables K) (now : K)
    (market : Option (MarketRow K)) : Except SkipReason (K × K) :=
  match market.bind (·.closeTime), market with
  | some closeTime, some m =>
    if now < closeTime then .error .stillOpen
    else
      match (candleAt tables.candles (minuteOf closeTime)).map (·.close) with
      | none => .error .noOhlcvClose
      | some settlePrice =>
        let recorded := (paperOpenPrice tables.paperTicks m.conditionId).filter (· ≠ 0)
        let openPrice := recorded.or
          ((candleAt tables.candles (minuteOf (closeTime - 300))).map (·.close))
        match openPrice with
        | none => .error .noOpenPrice
        | some openPrice =>
          if openPrice ≤ 0 then .error .noOpenPrice
          else .ok (openPrice, settlePrice)
  | _, _ => .error .noMarketRow

/-- The text without a suffix, if it ends in it. -/
def stripSuffix (suffix text : List Char) : Option (List Char) :=
  if suffix <:+ text then some (text.take (text.length - suffix.length)) else none

/-- The slug of an order, from the text of its instrument.
SOURCE: scripts/backfill_paper_settles.py:44-48, 66 -/
def slugFromInstrument (instrumentId : String) : String :=
  let text := instrumentId.toList
  String.ofList (((stripSuffix "-YES.POLYMARKET".toList text).or
    (stripSuffix "-NO.POLYMARKET".toList text)).getD text)

/-- Python's `round(x, 6)`: to the nearest millionth, ties to the even one. -/
def roundMillionths [FloorRing K] (x : K) : K :=
  let n := ⌊x * 1000000⌋
  let rest := x * 1000000 - n
  (if rest < 1 / 2 ∨ rest = 1 / 2 ∧ n % 2 = 0 then (n : K) else n + 1) / 1000000

/-- The orders without a settle fill, in the order of their submission.
SOURCE: scripts/backfill_paper_settles.py:61-80 -/
def pendingOrders (orders : List (OrderRow K)) (settled : String → Bool) : List (OrderRow K) :=
  (orders.filter fun o => ¬settled o.orderId).insertionSort fun o p => o.tsSubmit ≤ p.tsSubmit

/-- The market rows an order is joined to, or none at all.
SOURCE: scripts/backfill_paper_settles.py:76-79 -/
def joinMarkets (markets : List (MarketRow K)) (order : OrderRow K) :
    List (Option (MarketRow K)) :=
  match markets.filter fun m => m.slug = slugFromInstrument order.instrumentId with
  | [] => [none]
  | ms => ms.map some

/-- An order the script settles, with what it settles it at. -/
structure DueOrder (K : Type) where
  order : OrderRow K
  closeTime : K
  openPrice : K
  settlePrice : K

/-- An order is due if its market has closed and both prices are there.
SOURCE: scripts/backfill_paper_settles.py:154-172 -/
def dueOrder [FloorRing K] (tables : PriceTables K) (now : K) (order : OrderRow K)
    (market : Option (MarketRow K)) : Option (DueOrder K) :=
  match market.bind (·.closeTime), backfillPrices tables now market with
  | some closeTime, .ok (openPrice, settlePrice) => some ⟨order, closeTime, openPrice, settlePrice⟩
  | _, _ => none

/-- The orders a run of the script settles.
SOURCE: scripts/backfill_paper_settles.py:129-172 -/
def dueOrders [FloorRing K] (tables : PriceTables K) (markets : List (MarketRow K)) (now : K)
    (orders : List (OrderRow K)) (settled : String → Bool) : List (DueOrder K) :=
  (pendingOrders orders settled).flatMap fun o =>
    (joinMarkets markets o).filterMap (dueOrder tables now o)

/-- The exit fill it writes for one of them.
SOURCE: scripts/backfill_paper_settles.py:173-200 -/
def DueOrder.exitFill [FloorRing K] (d : DueOrder K) : FillRow K :=
  let (_, resolution, exitPrice, pnl) := settleOrder d.order d.openPrice d.settlePrice
  { fillId := d.order.orderId ++ "-exit"
    orderId := d.order.orderId
    ts := d.closeTime
    price := exitPrice
    qty := d.order.qty
    fee := 0
    metadata := .settle resolution (roundMillionths pnl) }

section Rounding

variable [FloorRing K] [IsStrictOrderedRing K]

/-- Rounding gives the nearest millionth. -/
theorem roundMillionths_nearestEven (x : K) :
    ∃ m : ℤ, roundMillionths x = m / 1000000 ∧ NearestEven (x * 1000000) m := by
  refine ⟨_, ?_, nearestEven_floor (x * 1000000)⟩
  unfold roundMillionths
  push_cast
  rfl

/-- Gains and losses are rounded alike. -/
theorem roundMillionths_neg (x : K) : roundMillionths (-x) = -roundMillionths x := by
  obtain ⟨m, hm, hnearest⟩ := roundMillionths_nearestEven x
  obtain ⟨n, hn, hnearest'⟩ := roundMillionths_nearestEven (-x)
  rw [neg_mul] at hnearest'
  rw [hm, hn, hnearest'.unique hnearest.neg, Int.cast_neg, neg_div]

/-- Up to half a millionth rounds to zero, and nothing else does. -/
theorem roundMillionths_eq_zero_iff (x : K) :
    roundMillionths x = 0 ↔ |x| ≤ 1 / 2000000 := by
  obtain ⟨m, hm, hnearest⟩ := roundMillionths_nearestEven x
  have hzero : roundMillionths x = 0 ↔ m = 0 := by
    rw [hm, div_eq_zero_iff, or_iff_left (by norm_num : (1000000 : K) ≠ 0), Int.cast_eq_zero]
  have hscale : |x| ≤ 1 / 2000000 ↔ NearestEven (x * 1000000) 0 := by
    rw [nearestEven_zero_iff, abs_mul, abs_of_pos (by norm_num : (0 : K) < 1000000)]
    constructor <;> intro h <;> linarith
  rw [hzero, hscale]
  constructor
  · rintro rfl
    exact hnearest
  · exact hnearest.unique

end Rounding

omit [Field K] in
/-- The pending orders are those without a settlement. -/
theorem mem_pendingOrders_iff (orders : List (OrderRow K)) (settled : String → Bool)
    (o : OrderRow K) : o ∈ pendingOrders orders settled ↔ o ∈ orders ∧ settled o.orderId = false := by
  rw [pendingOrders, List.mem_insertionSort, List.mem_filter]
  simp

/-- An order that is due is a row without a settle fill. -/
theorem mem_dueOrders [FloorRing K] {tables : PriceTables K} {markets : List (MarketRow K)}
    {now : K} {orders : List (OrderRow K)} {settled : String → Bool} {d : DueOrder K}
    (h : d ∈ dueOrders tables markets now orders settled) :
    d.order ∈ orders ∧ settled d.order.orderId = false := by
  obtain ⟨o, ho, hd⟩ := List.mem_flatMap.mp h
  obtain ⟨market, -, hdue⟩ := List.mem_filterMap.mp hd
  have horder : d.order = o := by
    unfold dueOrder at hdue
    split at hdue
    · obtain rfl := Option.some.inj hdue
      rfl
    · cases hdue
  rw [horder]
  exact (mem_pendingOrders_iff orders settled o).mp ho

end TradingEdge.Program
