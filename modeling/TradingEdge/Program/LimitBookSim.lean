import Mathlib.Data.List.Sort
import TradingEdge.Library.Dict
import TradingEdge.Library.Machine
import TradingEdge.Model.Types

/-!
# The limit order book

`LimitBookSim` of `paper/limit_book_sim.py`, as far as it lives in memory: the map of
resting orders and the four operations on it.  Each of them does its work under the lock
without an `await`, so it is one function of the book.  What an operation goes on to write to
the database is in `Program.OrderStatements`.

The side of an order is a text, as in the source: `place` is where a wrong one is refused.
The metadata of an order and the constant `liquidity_side` of a fill are left out.
-/

set_option autoImplicit false

namespace TradingEdge.Program

open TradingEdge.Model TradingEdge.Library

/-- SOURCE: paper/limit_book_sim.py:51-64 -/
structure LimitOrder (K : Type) where
  coid : String
  strategyId : String
  instrumentId : String
  side : String
  price : K
  qty : K
  tsPlaced : K
  ttlS : Option K
deriving DecidableEq

/-- SOURCE: paper/limit_book_sim.py:67-77 -/
structure LimitFill (K : Type) where
  coid : String
  strategyId : String
  instrumentId : String
  side : String
  price : K
  qty : K
  ts : K
  fee : K
deriving DecidableEq

/-- The `ValueError` of `place`.
SOURCE: paper/limit_book_sim.py:130-133 -/
inductive PlaceError where
  | invalidSide (side : String)
  | notPositive
deriving DecidableEq

/-- The text of the exception. -/
def PlaceError.message : PlaceError → String
  | .invalidSide side => "invalid side: " ++ side
  | .notPositive => "price and qty must be > 0"

/-- The resting orders, each under its own id. -/
structure LimitBook (K : Type) where
  orders : Dict String (LimitOrder K)
  keyed : ∀ coid o, orders.get? coid = some o → o.coid = coid

/-- What a filter of `cancel_all` lets through. -/
structure CancelFilter where
  strategyId : Option String
  instrumentId : Option String
  side : Option String

variable {K : Type}

/-- The book without orders. -/
def LimitBook.empty : LimitBook K :=
  ⟨Dict.empty, fun coid o h => by simp at h⟩

/-- SOURCE: paper/limit_book_sim.py:125-126 -/
def LimitBook.get? (b : LimitBook K) (coid : String) : Option (LimitOrder K) :=
  b.orders.get? coid

/-- SOURCE: paper/limit_book_sim.py:122-123 -/
def LimitBook.snapshot (b : LimitBook K) : List (LimitOrder K) := b.orders.values

/-- `self._orders.pop(coid, None)` seen as the book that is left. -/
def LimitBook.pop (b : LimitBook K) (coid : String) : LimitBook K where
  orders := b.orders.pop coid
  keyed := by
    intro coid' o h
    rw [Dict.get?_pop] at h
    split at h
    · cases h
    · exact b.keyed coid' o h

/-- The book without the orders of a list. -/
def LimitBook.popAll (b : LimitBook K) (victims : List (LimitOrder K)) : LimitBook K :=
  victims.foldl (fun b o => b.pop o.coid) b

/-- `cancel` takes the order out; it returns whether there was one.
SOURCE: paper/limit_book_sim.py:156-164 -/
def LimitBook.cancel (b : LimitBook K) (coid : String) : LimitBook K × Option (LimitOrder K) :=
  (b.pop coid, b.get? coid)

/-- An empty book has no orders. -/
@[simp] theorem LimitBook.get?_empty (coid : String) :
    (LimitBook.empty : LimitBook K).get? coid = none := rfl

/-- An order stands under its own id. -/
theorem LimitBook.coid_of_get? (b : LimitBook K) {coid : String} {o : LimitOrder K}
    (h : b.get? coid = some o) : o.coid = coid :=
  b.keyed coid o h

/-- An order rests exactly when the book has it under its own id. -/
theorem LimitBook.mem_snapshot_iff (b : LimitBook K) (o : LimitOrder K) :
    o ∈ b.snapshot ↔ b.get? o.coid = some o := by
  rw [snapshot, Dict.mem_values_iff]
  constructor
  · rintro ⟨coid, h⟩
    exact b.coid_of_get? h ▸ h
  · intro h
    exact ⟨o.coid, h⟩

/-- No two resting orders have the same id. -/
theorem LimitBook.nodup_coids (b : LimitBook K) : (b.snapshot.map (·.coid)).Nodup := by
  have hkeys : b.snapshot.map (·.coid) = b.orders.entries.map Prod.fst := by
    rw [snapshot, Dict.values, List.map_map]
    apply List.map_congr_left
    intro e he
    exact b.keyed e.1 e.2 ((b.orders.mem_entries_iff e.1 e.2).mp he)
  rw [hkeys]
  exact b.orders.nodup_keys

/-- Popping an order removes that one only. -/
theorem LimitBook.get?_pop (b : LimitBook K) (coid k : String) :
    (b.pop coid).get? k = if k = coid then none else b.get? k :=
  Dict.get?_pop _ _ _

/-- Popping several removes those only. -/
theorem LimitBook.get?_popAll (b : LimitBook K) (victims : List (LimitOrder K)) (k : String) :
    (b.popAll victims).get? k = if k ∈ victims.map (·.coid) then none else b.get? k := by
  unfold popAll
  induction victims generalizing b with
  | nil => simp
  | cons o victims ih =>
    rw [List.foldl_cons, ih, get?_pop, List.map_cons]
    by_cases hk : k = o.coid
    · simp [hk]
    · simp [hk]

/-- SOURCE: paper/limit_book_sim.py:182-188 -/
def CancelFilter.Admits (f : CancelFilter) (o : LimitOrder K) : Prop :=
  (f.strategyId = none ∨ some o.strategyId = f.strategyId) ∧
    (f.instrumentId = none ∨ some o.instrumentId = f.instrumentId) ∧
    (f.side = none ∨ some o.side = f.side)

instance (f : CancelFilter) (o : LimitOrder K) : Decidable (f.Admits o) :=
  inferInstanceAs (Decidable (_ ∧ _ ∧ _))

/-- The orders `cancel_all` takes out; it returns their number.
SOURCE: paper/limit_book_sim.py:166-200 -/
def LimitBook.cancelAll (b : LimitBook K) (f : CancelFilter) :
    LimitBook K × List (LimitOrder K) :=
  let victims := b.snapshot.filter fun o => f.Admits o
  (b.popAll victims, victims)

variable [Field K] [LinearOrder K]

/-- What `place` accepts as an order. -/
def LimitOrder.check (o : LimitOrder K) : Option PlaceError :=
  if o.side ≠ "BUY" ∧ o.side ≠ "SELL" then some (.invalidSide o.side)
  else if o.price ≤ 0 ∨ o.qty ≤ 0 then some .notPositive
  else none

/-- `place` returns whether the order was taken; an id that rests is not placed again.
SOURCE: paper/limit_book_sim.py:129-154 -/
def LimitBook.place (b : LimitBook K) (o : LimitOrder K) :
    Except PlaceError (LimitBook K × Bool) :=
  match o.check with
  | some e => .error e
  | none =>
    if (b.get? o.coid).isSome then .ok (b, false)
    else
      .ok (⟨b.orders.set o.coid o, by
        intro coid p h
        rw [Dict.get?_set] at h
        split at h
        · rename_i hcoid
          cases h
          exact hcoid.symm
        · exact b.keyed coid p h⟩, true)

/-- A placement that returns `True` puts the order under its id, which was free, and changes
nothing else. -/
theorem LimitBook.place_true (b b' : LimitBook K) (o : LimitOrder K)
    (h : b.place o = .ok (b', true)) :
    o.check = none ∧ b.get? o.coid = none ∧
      ∀ k, b'.get? k = if k = o.coid then some o else b.get? k := by
  unfold place at h
  split at h
  · cases h
  · rename_i hcheck
    split at h
    · cases h
    · rename_i hfree
      cases h
      exact ⟨hcheck, Option.not_isSome_iff_eq_none.mp hfree, fun k => Dict.get?_set _ _ _ _⟩

/-- A placement that returns `False` met its own id, and changes nothing. -/
theorem LimitBook.place_false (b b' : LimitBook K) (o : LimitOrder K)
    (h : b.place o = .ok (b', false)) : (b.get? o.coid).isSome = true ∧ b' = b := by
  unfold place at h
  split at h
  · cases h
  · split at h
    · rename_i hheld
      cases h
      exact ⟨hheld, rfl⟩
    · cases h

/-- SOURCE: paper/limit_book_sim.py:63-64 -/
def LimitOrder.ExpiredAt (o : LimitOrder K) (now : K) : Prop :=
  ∃ ttl ∈ o.ttlS, o.tsPlaced + ttl ≤ now

instance (o : LimitOrder K) (now : K) : Decidable (o.ExpiredAt now) :=
  match h : o.ttlS with
  | none => isFalse fun ⟨ttl, hmem, _⟩ => by simp [h] at hmem
  | some ttl =>
    decidable_of_iff (o.tsPlaced + ttl ≤ now)
      ⟨fun hle => ⟨ttl, h, hle⟩, fun ⟨t, ht, hle⟩ => by
        rw [h, Option.mem_some_iff] at ht
        exact ht ▸ hle⟩

/-- SOURCE: paper/limit_book_sim.py:222-224 -/
def LimitOrder.Crossed (o : LimitOrder K) (px : K) : Prop :=
  (o.side = "BUY" ∧ px ≤ o.price) ∨ (o.side = "SELL" ∧ o.price ≤ px)

instance (o : LimitOrder K) (px : K) : Decidable (o.Crossed px) :=
  inferInstanceAs (Decidable (_ ∨ _))

/-- The fill of an order: at its limit price, in full.
SOURCE: paper/limit_book_sim.py:227-239 -/
def LimitOrder.fill (makerFeeBps : K) (o : LimitOrder K) (ts : K) : LimitFill K where
  coid := o.coid
  strategyId := o.strategyId
  instrumentId := o.instrumentId
  side := o.side
  price := o.price
  qty := o.qty
  ts := ts
  fee := makerFeeBps * (1 / 10000) * o.price * o.qty

/-- The orders of an instrument, first placed first; orders placed at the same time stay in
the order of the book.
SOURCE: paper/limit_book_sim.py:213-217 -/
def LimitBook.fifo (b : LimitBook K) (instrumentId : String) : List (LimitOrder K) :=
  (b.snapshot.filter fun o => o.instrumentId = instrumentId).insertionSort
    fun o p => o.tsPlaced ≤ p.tsPlaced

/-- The orders a tick expires. -/
def LimitBook.expired (b : LimitBook K) (instrumentId : String) (ts : K) :
    List (LimitOrder K) :=
  (b.fifo instrumentId).filter fun o => o.ExpiredAt ts

/-- The orders a tick fills: an expired one is not looked at any further. -/
def LimitBook.hit (b : LimitBook K) (instrumentId : String) (px ts : K) :
    List (LimitOrder K) :=
  (b.fifo instrumentId).filter fun o => ¬o.ExpiredAt ts ∧ o.Crossed px

/-- A tick of the matcher: the book it leaves and the fills it returns.
SOURCE: paper/limit_book_sim.py:202-245, 259 -/
def LimitBook.onTick (makerFeeBps : K) (b : LimitBook K) (instrumentId : String) (px ts : K) :
    LimitBook K × List (LimitFill K) :=
  ((b.popAll (b.hit instrumentId px ts)).popAll (b.expired instrumentId ts),
    (b.hit instrumentId px ts).map fun o => o.fill makerFeeBps ts)

omit [Field K] in
/-- The orders of an instrument are the resting ones. -/
theorem LimitBook.mem_fifo_iff (b : LimitBook K) (instrumentId : String) (o : LimitOrder K) :
    o ∈ b.fifo instrumentId ↔ b.get? o.coid = some o ∧ o.instrumentId = instrumentId := by
  rw [fifo, List.mem_insertionSort, List.mem_filter, mem_snapshot_iff, decide_eq_true_eq]

/-- The expired orders are those of the instrument past their time. -/
theorem LimitBook.mem_expired_iff (b : LimitBook K) (instrumentId : String) (ts : K)
    (o : LimitOrder K) :
    o ∈ b.expired instrumentId ts ↔
      b.get? o.coid = some o ∧ o.instrumentId = instrumentId ∧ o.ExpiredAt ts := by
  rw [expired, List.mem_filter, mem_fifo_iff, decide_eq_true_eq, and_assoc]

/-- The orders hit are those of the instrument that have not expired and that the price crosses. -/
theorem LimitBook.mem_hit_iff (b : LimitBook K) (instrumentId : String) (px ts : K)
    (o : LimitOrder K) :
    o ∈ b.hit instrumentId px ts ↔
      b.get? o.coid = some o ∧ o.instrumentId = instrumentId ∧ ¬o.ExpiredAt ts ∧
        o.Crossed px := by
  rw [hit, List.mem_filter, mem_fifo_iff, decide_eq_true_eq, and_assoc]

omit [Field K] in
/-- No order is in the queue twice. -/
theorem LimitBook.nodup_fifo (b : LimitBook K) (instrumentId : String) :
    ((b.fifo instrumentId).map (·.coid)).Nodup := by
  have hperm : (b.fifo instrumentId).Perm
      (b.snapshot.filter fun o => o.instrumentId = instrumentId) :=
    List.perm_insertionSort _ _
  rw [(hperm.map _).nodup_iff]
  exact b.nodup_coids.sublist (List.filter_sublist.map _)

/-- What a tick leaves under an id: the order there, unless it is one of the instrument that
the tick expired or filled.
SOURCE: paper/limit_book_sim.py:219-245 -/
theorem LimitBook.get?_onTick (makerFeeBps : K) (b : LimitBook K) (instrumentId : String)
    (px ts : K) (coid : String) :
    (b.onTick makerFeeBps instrumentId px ts).1.get? coid =
      (b.get? coid).filter fun o =>
        ¬(o.instrumentId = instrumentId ∧ (o.ExpiredAt ts ∨ o.Crossed px)) := by
  rw [onTick, get?_popAll, get?_popAll]
  cases hget : b.get? coid with
  | none => simp
  | some o =>
    obtain rfl := b.coid_of_get? hget
    have hexp : o.coid ∈ (b.expired instrumentId ts).map (·.coid) ↔
        o.instrumentId = instrumentId ∧ o.ExpiredAt ts := by
      rw [List.mem_map]
      constructor
      · rintro ⟨p, hp, hcoid⟩
        obtain ⟨hpget, hrest⟩ := (b.mem_expired_iff _ _ p).mp hp
        rw [hcoid, hget] at hpget
        obtain rfl := Option.some.inj hpget
        exact hrest
      · intro h
        exact ⟨o, (b.mem_expired_iff _ _ o).mpr ⟨hget, h⟩, rfl⟩
    have hhit : o.coid ∈ (b.hit instrumentId px ts).map (·.coid) ↔
        o.instrumentId = instrumentId ∧ ¬o.ExpiredAt ts ∧ o.Crossed px := by
      rw [List.mem_map]
      constructor
      · rintro ⟨p, hp, hcoid⟩
        obtain ⟨hpget, hrest⟩ := (b.mem_hit_iff _ _ _ p).mp hp
        rw [hcoid, hget] at hpget
        obtain rfl := Option.some.inj hpget
        exact hrest
      · intro h
        exact ⟨o, (b.mem_hit_iff _ _ _ o).mpr ⟨hget, h⟩, rfl⟩
    simp only [hexp, hhit, Option.filter_some, decide_eq_true_eq]
    by_cases hinst : o.instrumentId = instrumentId
    · by_cases hold : o.ExpiredAt ts
      · simp [hinst, hold]
      · by_cases hcross : o.Crossed px
        · simp [hinst, hold, hcross]
        · simp [hinst, hold, hcross]
    · simp [hinst]

/-- A call of one of the four operations. -/
inductive BookCall (K : Type) where
  | place (o : LimitOrder K)
  | cancel (coid : String)
  | cancelAll (f : CancelFilter)
  | onTick (instrumentId : String) (px ts : K)

/-- Why an order left the book. -/
inductive Departure (K : Type) where
  | fill (f : LimitFill K)
  | cancel
  | ttl
deriving DecidableEq

/-- What a call does to the book, and what it answers. -/
inductive BookEvent (K : Type) where
  | raised (e : PlaceError)
  | duplicate (coid : String)
  | accepted (o : LimitOrder K)
  | left (o : LimitOrder K) (how : Departure K)
  | filled (fills : List (LimitFill K))
deriving DecidableEq

/-- One call. -/
def bookStep (makerFeeBps : K) (b : LimitBook K) (call : BookCall K) :
    LimitBook K × List (BookEvent K) :=
  match call with
  | .place o =>
    match b.place o with
    | .error e => (b, [.raised e])
    | .ok (b, true) => (b, [.accepted o])
    | .ok (b, false) => (b, [.duplicate o.coid])
  | .cancel coid =>
    let (b, gone) := b.cancel coid
    (b, gone.toList.map fun o => .left o .cancel)
  | .cancelAll f =>
    let (b, victims) := b.cancelAll f
    (b, victims.map fun o => .left o .cancel)
  | .onTick instrumentId px ts =>
    let (b', fills) := b.onTick makerFeeBps instrumentId px ts
    (b', (b.hit instrumentId px ts).map (fun o => .left o (.fill (o.fill makerFeeBps ts))) ++
      (b.expired instrumentId ts).map (fun o => .left o .ttl) ++ [.filled fills])

/-- The book as a machine. -/
def bookMachine (makerFeeBps : K) : Machine (LimitBook K) (BookCall K) (BookEvent K) :=
  ⟨bookStep makerFeeBps⟩

end TradingEdge.Program
