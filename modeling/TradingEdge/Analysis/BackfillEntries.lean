import TradingEdge.Analysis.OrderStatus
import TradingEdge.Analysis.Provenance
import TradingEdge.Analysis.SettleUniqueness
import TradingEdge.Analysis.SettlementAgreement
import TradingEdge.Program.MMDriver
import TradingEdge.Program.SharedTables

/-!
# What the backfill script settles

The script settles every paper order that has no settle fill, from the order row alone.  For
the orders of the driver that is right: each of them was bought.  An order of the limit book
may never have been filled, and it may be a sale.

`WellKept` says what the script can rely on: an order is for a token of a market, at a
positive price, and a fill that is no settlement has the price and the quantity of its order.
Whatever the drivers and the limit books write is well kept (`Produced.wellKept`).  In such
tables an order is settled rightly exactly when it has such a fill and is no sale; a sale too
small to make a difference apart (`settlesEntry_iff`).
-/

set_option autoImplicit false

namespace TradingEdge.Analysis

open TradingEdge.Model TradingEdge.Program TradingEdge.Library

/-- The token of an instrument. -/
def tokenOf (instrumentId : String) : Side :=
  if "-NO.POLYMARKET".toList <:+ instrumentId.toList then .yesDown else .yesUp

/-- The token of an instrument is the one it was made for, NO for every side but `yesUp`. -/
theorem tokenOf_instrumentId (slug : String) (side : Side) :
    tokenOf (instrumentId slug side) = .yesUp ↔ side = .yesUp := by
  unfold tokenOf instrumentId
  by_cases hside : side = .yesUp
  · have hno : ¬"-NO.POLYMARKET".toList <:+ (slug ++ "-YES" ++ ".POLYMARKET").toList := by
      intro hsuffix
      rw [String.append_assoc, String.toList_append] at hsuffix
      have hshort := List.suffix_of_suffix_length_le hsuffix (List.suffix_append _ _) (by decide)
      exact absurd hshort (by decide)
    rw [if_pos hside, if_neg hno]
    simp [hside]
  · have hno : "-NO.POLYMARKET".toList <:+ (slug ++ "-NO" ++ ".POLYMARKET").toList := by
      rw [String.append_assoc, String.toList_append]
      exact List.suffix_append _ _
    rw [if_neg hside, if_pos hno]
    simp [hside]

section Pnl

variable {K : Type} [Field K] [LinearOrder K]

/-- What one token pays when its market resolves. -/
def payoff (instrumentId : String) (wentUp : Bool) : K :=
  if wentUp = true ↔ tokenOf instrumentId = .yesUp then 1 else 0

/-- What a fill of an order has made when its market resolves: the seller of a token loses what
its buyer wins. -/
def entryPnl (o : StoredOrder K) (f : StoredFill K) (wentUp : Bool) : K :=
  let bought := f.qty * (payoff o.instrumentId wentUp - f.price)
  if o.side = "SELL" then -bought else bought

/-- The fill that opened or added to a position, of an order. -/
def IsEntryOf (f : StoredFill K) (o : StoredOrder K) : Prop :=
  f.orderId = o.orderId ∧ f.isSettle = false

/-- What the tables hold that the script can rely on. -/
structure WellKept (t : PaperTables K) : Prop where
  token : ∀ o ∈ t.orders, ∃ slug side, IsSlug slug ∧ o.instrumentId = instrumentId slug side
  priced : ∀ o ∈ t.orders, 0 < o.price
  matched : ∀ o ∈ t.orders, ∀ f ∈ t.fills, IsEntryOf f o → f.price = o.price ∧ f.qty = o.qty

variable [FloorRing K] [IsStrictOrderedRing K]

/-- The fill that the script writes for an order settles an entry of it: in its quantity, and with
what it made on the side it was on. -/
def SettlesEntry (t : PaperTables K) (d : DueOrder K) (o : StoredOrder K) : Prop :=
  ∃ f ∈ t.fills, IsEntryOf f o ∧ d.exitFill.qty = f.qty ∧
    d.exitFill.settlePnl = some (roundMillionths (entryPnl o f (d.openPrice < d.settlePrice)))

omit [IsStrictOrderedRing K] in
/-- The pnl that the script computes is that of a purchase. -/
theorem settlePnl_exitFill (d : DueOrder K) (slug : String) (side : Side) (hslug : IsSlug slug)
    (hinstrument : d.order.instrumentId = instrumentId slug side) (hprice : 0 < d.order.price) :
    d.exitFill.settlePnl = some (roundMillionths (d.order.qty *
      (payoff d.order.instrumentId (d.openPrice < d.settlePrice) - d.order.price))) := by
  have hside : (sideFromSlug d.order.instrumentId = .yesUp) ↔
      (tokenOf d.order.instrumentId = .yesUp) := by
    rw [hinstrument, sideFromSlug_instrumentId _ _ hslug, tokenOf_instrumentId]
  have hexit : (settle (sideFromSlug d.order.instrumentId) d.order.price
      (d.order.qty * d.order.price) 0 (d.openPrice < d.settlePrice)).2.1 =
        payoff d.order.instrumentId (d.openPrice < d.settlePrice) := by
    unfold settle payoff
    rw [if_neg hprice.not_ge]
    by_cases hs : sideFromSlug d.order.instrumentId = .yesUp <;>
      by_cases hup : d.openPrice < d.settlePrice <;> simp [hs, hup, ← hside]
  have hpnl := settle_pnl (sideFromSlug d.order.instrumentId) d.order.price
    (d.order.qty * d.order.price) 0 (d.openPrice < d.settlePrice)
  rw [hexit, mul_div_cancel_right₀ _ hprice.ne', sub_zero, ← mul_sub] at hpnl
  unfold DueOrder.exitFill FillRow.settlePnl settleOrder
  dsimp only
  rw [hpnl]

/-- **When an order is settled rightly.** -/
theorem settlesEntry_iff (t : PaperTables K) (ht : WellKept t) (d : DueOrder K)
    (o : StoredOrder K) (ho : o ∈ t.orders) (horder : o.toOrderRow = d.order) :
    SettlesEntry t d o ↔ (∃ f ∈ t.fills, IsEntryOf f o) ∧ (o.side = "SELL" →
      |o.qty * (payoff o.instrumentId (d.openPrice < d.settlePrice) - o.price)| ≤
        1 / 2000000) := by
  obtain ⟨slug, side, hslug, hinstrument⟩ := ht.token o ho
  have hprice := ht.priced o ho
  have hscript := settlePnl_exitFill d slug side hslug (horder ▸ hinstrument) (horder ▸ hprice)
  rw [← horder] at hscript
  have hqty : d.exitFill.qty = o.qty := congrArg OrderRow.qty horder.symm
  have hfill : ∀ f ∈ t.fills, IsEntryOf f o → (d.exitFill.settlePnl =
      some (roundMillionths (entryPnl o f (d.openPrice < d.settlePrice))) ↔
        (o.side = "SELL" → |o.qty * (payoff o.instrumentId (d.openPrice < d.settlePrice) -
          o.price)| ≤ 1 / 2000000)) := by
    intro f hf hentry
    obtain ⟨hfprice, hfqty⟩ := ht.matched o ho f hf hentry
    rw [hscript, Option.some_inj, entryPnl, hfprice, hfqty]
    by_cases hsell : o.side = "SELL"
    · rw [if_pos hsell, roundMillionths_neg, self_eq_neg, roundMillionths_eq_zero_iff]
      simp [hsell]
    · simp [hsell]
  constructor
  · rintro ⟨f, hf, hentry, -, hpnl⟩
    exact ⟨⟨f, hf, hentry⟩, (hfill f hf hentry).mp hpnl⟩
  · rintro ⟨⟨f, hf, hentry⟩, hsell⟩
    have hfqty := (ht.matched o ho f hf hentry).2
    exact ⟨f, hf, hentry, by rw [hqty, hfqty], (hfill f hf hentry).mpr hsell⟩

end Pnl

/-! ## One entry an id

The orders and fills of a writer are filed under the ids of the orders: what is on its way to a
table as well as what is in it.  While no id stands for two entries, a fill has the price and
the quantity of its order.
-/

section Entries

variable {K : Type}

/-- What an order is filed as: its id, price and quantity. -/
def orderEntry (o : StoredOrder K) : String × K × K := (o.orderId, o.price, o.qty)

def fillEntry (f : StoredFill K) : String × K × K := (f.orderId, f.price, f.qty)

/-- New entries under ids that are free keep one entry an id. -/
theorem injOn_of_grows {xs ys new : Set (String × K × K)} (hxs : Set.InjOn Prod.fst xs)
    (hgrow : ys ⊆ xs ∪ new) (hnew : Set.InjOn Prod.fst new)
    (hfresh : ∀ x ∈ xs, ∀ y ∈ new, x.1 ≠ y.1) : Set.InjOn Prod.fst ys := by
  have hdisjoint : Disjoint xs new := by
    rw [Set.disjoint_left]
    intro x hx hx'
    exact hfresh x hx x hx' rfl
  exact ((Set.injOn_union hdisjoint).mpr ⟨hxs, hnew, hfresh⟩).mono hgrow

variable [Field K] [LinearOrder K]

/-- An order for a token of a market, at a positive price. -/
def IsPaperOrder (o : StoredOrder K) : Prop :=
  (∃ slug side, IsSlug slug ∧ o.instrumentId = instrumentId slug side) ∧ 0 < o.price

/-- Tables that stem from entries with different ids are well kept. -/
theorem wellKept_of_entries (t : PaperTables K) (entries : Set (String × K × K))
    (hone : Set.InjOn Prod.fst entries) (hpaper : ∀ o ∈ t.orders, IsPaperOrder o)
    (horders : ∀ o ∈ t.orders, orderEntry o ∈ entries)
    (hfills : ∀ f ∈ t.fills, f.isSettle = false → fillEntry f ∈ entries) : WellKept t := by
  refine ⟨fun o ho => (hpaper o ho).1, fun o ho => (hpaper o ho).2, ?_⟩
  intro o ho f hf hentry
  have heq := hone (hfills f hf hentry.2) (horders o ho) hentry.1
  exact ⟨congrArg (fun e => e.2.1) heq, congrArg (fun e => e.2.2) heq⟩

end Entries

/-! ## What the limit book writes -/

section Book

variable {K : Type}

/-- The orders of a book: resting, on their way to the table, or in it. -/
def storeOrders (s : BookStore K) : Set (StoredOrder K) :=
  {o | (∃ p, s.book.get? p.coid = some p ∧ o = p.newRow) ∨ .insertOrder o ∈ inFlight s ∨
    o ∈ s.orders.rows}

/-- Its fills, on their way to the table or in it. -/
def storeFills (s : BookStore K) : Set (StoredFill K) :=
  {f | (∃ fills g, .insertFills fills ∈ inFlight s ∧ g ∈ fills ∧ f = g.row) ∨ f ∈ s.fills.rows}

/-- What a book has filed. -/
def storeEntries (s : BookStore K) : Set (String × K × K) :=
  orderEntry '' storeOrders s ∪ fillEntry '' storeFills s

variable [Field K] [LinearOrder K]

/-- The step puts the order into the book. -/
def TakesUp (s : BookStore K) (l : StoreLabel K) (p : LimitOrder K) : Prop :=
  l = .call (.place p) ∧ s.book.get? p.coid = none ∧ p.check = none

/-- An order that a step puts into the book is for the YES token of a market, as the drivers'
orders are, and its id is new.
SOURCE: paper/mm_driver.py:134-172 -/
def PostsFresh (s : BookStore K) (l : StoreLabel K) : Prop :=
  ∀ p, TakesUp s l p → (∃ slug, IsSlug slug ∧ p.instrumentId = instrumentIdYes slug) ∧
    ∀ e ∈ storeEntries s, e.1 ≠ p.coid

/-- A call that is accepted takes the order up. -/
theorem takesUp_of_accepted (makerFeeBps : K) (s : BookStore K) (call : BookCall K)
    (p : LimitOrder K) (h : .accepted p ∈ (bookMachine makerFeeBps).emits s.book call) :
    TakesUp s (.call call) p := by
  obtain ⟨rfl, hfree, -⟩ := call_of_accepted makerFeeBps s.book call p h
  refine ⟨rfl, hfree, ?_⟩
  change .accepted p ∈ (bookStep makerFeeBps s.book (.place p)).2 at h
  simp only [bookStep] at h
  rcases hplace : s.book.place p with e | ⟨b, taken⟩
  · rw [hplace] at h
    simp at h
  · rw [hplace] at h
    cases taken with
    | true => exact (s.book.place_true b p hplace).1
    | false => simp at h

/-- The fills that a call hands to the database are those of resting orders. -/
theorem resting_of_mem_persist (makerFeeBps : K) (b : LimitBook K) (call : BookCall K)
    (fills : List (LimitFill K)) (h : .insertFills fills ∈ persist makerFeeBps b call)
    (g : LimitFill K) (hg : g ∈ fills) :
    ∃ o ts, b.get? o.coid = some o ∧ g = o.fill makerFeeBps ts := by
  cases call with
  | place p =>
    simp only [persist] at h
    split at h <;> simp at h
  | cancel coid => simp [persist, LimitOrder.persistCancel] at h
  | cancelAll f => simp [persist, LimitOrder.persistCancel] at h
  | onTick instrumentId px ts =>
    simp only [persist, persistFills, LimitOrder.persistCancel] at h
    split at h
    · simp at h
    · obtain rfl : fills = (b.onTick makerFeeBps instrumentId px ts).2 := by simpa using h
      obtain ⟨o, ho, rfl⟩ := List.mem_map.mp hg
      exact ⟨o, ts, ((b.mem_hit_iff _ _ _ o).mp ho).1, rfl⟩

omit [Field K] in
/-- A statement changes no more of a row than its status and the time of its last update. -/
theorem rows_runOrders (st : Statement K) (clock : K)
    (orders : Table (StoredOrder.key (K := K))) (row : StoredOrder K)
    (h : row ∈ (st.runOrders clock orders).rows) :
    st = .insertOrder row ∨ ∃ r ∈ orders.rows,
      row = { r with status := row.status, tsLastUpdate := row.tsLastUpdate } := by
  cases st with
  | insertOrder new =>
    rcases Table.mem_of_mem_insertNew orders new h with hold | rfl
    · exact Or.inr ⟨row, hold, rfl⟩
    · exact Or.inl rfl
  | insertFills fills => exact Or.inr ⟨row, h, rfl⟩
  | cancelOrder orderId tsSubmit ttl =>
    obtain ⟨r, hr, rfl⟩ := List.mem_map.mp h
    refine Or.inr ⟨r, hr, ?_⟩
    split <;> rfl
  | fillOrder orderId ts =>
    obtain ⟨r, hr, rfl⟩ := List.mem_map.mp h
    refine Or.inr ⟨r, hr, ?_⟩
    split <;> rfl

omit [Field K] in
/-- A fill in the table after a statement was there, or the statement inserts it. -/
theorem rows_runFills (st : Statement K) (fills : Table (StoredFill.key (K := K)))
    (f : StoredFill K) (h : f ∈ (st.runFills fills).rows) :
    f ∈ fills.rows ∨ ∃ fs g, st = .insertFills fs ∧ g ∈ fs ∧ f = g.row := by
  cases st with
  | insertFills fs =>
    suffices hfold : ∀ (gs : List (LimitFill K)) (t : Table (StoredFill.key (K := K))),
        f ∈ (gs.foldl (fun t g => t.insertNew g.row) t).rows →
          f ∈ t.rows ∨ ∃ g ∈ gs, f = g.row by
      rcases hfold fs fills h with hold | ⟨g, hg, rfl⟩
      · exact Or.inl hold
      · exact Or.inr ⟨fs, g, rfl, hg, rfl⟩
    intro gs
    induction gs with
    | nil =>
      intro t ht
      exact Or.inl ht
    | cons g gs ih =>
      intro t ht
      rcases ih _ ht with hin | ⟨g', hg', rfl⟩
      · rcases Table.mem_of_mem_insertNew t g.row hin with hold | rfl
        · exact Or.inl hold
        · exact Or.inr ⟨g, List.mem_cons_self, rfl⟩
      · exact Or.inr ⟨g', List.mem_cons_of_mem _ hg', rfl⟩
  | _ => exact Or.inl h

/-- An order after a step is one from before, or the step placed it. -/
theorem storeOrders_step (makerFeeBps : K) (s : BookStore K) (l : StoreLabel K)
    (o : StoredOrder K) (h : o ∈ storeOrders ((storeMachine makerFeeBps).next s l)) :
    (∃ r ∈ storeOrders s, o = { r with status := o.status, tsLastUpdate := o.tsLastUpdate }) ∨
      ∃ p, TakesUp s l p ∧ o = p.newRow := by
  cases l with
  | call call =>
    rcases h with ⟨p, hp, rfl⟩ | hflight | hrow
    · by_cases hacc : ∃ q, .accepted q ∈ (bookMachine makerFeeBps).emits s.book call
      · obtain ⟨q, hq⟩ := hacc
        have hget := (call_of_accepted makerFeeBps s.book call q hq).2.2.2.2 p.coid
        change ((bookMachine makerFeeBps).next s.book call).get? p.coid = some p at hp
        rw [hget] at hp
        split at hp
        · obtain rfl := Option.some.inj hp
          exact Or.inr ⟨q, takesUp_of_accepted makerFeeBps s call q hq, rfl⟩
        · exact Or.inl ⟨p.newRow, Or.inl ⟨p, hp, rfl⟩, rfl⟩
      · have hkeep := (call_of_not_accepted makerFeeBps s.book call
          (fun q hq => hacc ⟨q, hq⟩)).1 p.coid p hp
        exact Or.inl ⟨p.newRow, Or.inl ⟨p, hkeep, rfl⟩, rfl⟩
    · rw [inFlight_call, List.mem_append] at hflight
      rcases hflight with hold | hnew
      · exact Or.inl ⟨o, Or.inr (Or.inl hold), rfl⟩
      · obtain ⟨p, hp, rfl⟩ := (inserted_mem_persist_iff makerFeeBps s.book call o).mp hnew
        exact Or.inr ⟨p, takesUp_of_accepted makerFeeBps s call p hp, rfl⟩
    · exact Or.inl ⟨o, Or.inr (Or.inr hrow), rfl⟩
  | execute i clock =>
    refine Or.inl ?_
    change o ∈ storeOrders (storeStep makerFeeBps s (.execute i clock)).1 at h
    simp only [storeStep] at h
    split at h
    · rename_i st rest hpending
      have hperm := flatten_perm_of_getElem? s.pending i st rest hpending
      rcases h with ⟨p, hp, rfl⟩ | hflight | hrow
      · exact ⟨p.newRow, Or.inl ⟨p, hp, rfl⟩, rfl⟩
      · exact ⟨o, Or.inr (Or.inl (hperm.mem_iff.mpr (List.mem_cons_of_mem _ hflight))), rfl⟩
      · rcases rows_runOrders st clock s.orders o hrow with rfl | ⟨r, hr, heq⟩
        · exact ⟨o, Or.inr (Or.inl (hperm.mem_iff.mpr List.mem_cons_self)), rfl⟩
        · exact ⟨r, Or.inr (Or.inr hr), heq⟩
    · exact ⟨o, h, rfl⟩

/-- A fill after a step is one from before, or that of a resting order. -/
theorem storeFills_step (makerFeeBps : K) (s : BookStore K) (l : StoreLabel K)
    (f : StoredFill K) (h : f ∈ storeFills ((storeMachine makerFeeBps).next s l)) :
    f ∈ storeFills s ∨ ∃ o ∈ storeOrders s, fillEntry f = orderEntry o := by
  cases l with
  | call call =>
    rcases h with ⟨fills, g, hflight, hg, rfl⟩ | hrow
    · rw [inFlight_call, List.mem_append] at hflight
      rcases hflight with hold | hnew
      · exact Or.inl (Or.inl ⟨fills, g, hold, hg, rfl⟩)
      · obtain ⟨o, ts, ho, rfl⟩ := resting_of_mem_persist makerFeeBps s.book call fills hnew g hg
        exact Or.inr ⟨o.newRow, Or.inl ⟨o, ho, rfl⟩, rfl⟩
    · exact Or.inl (Or.inr hrow)
  | execute i clock =>
    refine Or.inl ?_
    change f ∈ storeFills (storeStep makerFeeBps s (.execute i clock)).1 at h
    simp only [storeStep] at h
    split at h
    · rename_i st rest hpending
      have hperm := flatten_perm_of_getElem? s.pending i st rest hpending
      rcases h with ⟨fills, g, hflight, hg, rfl⟩ | hrow
      · exact Or.inl ⟨fills, g, hperm.mem_iff.mpr (List.mem_cons_of_mem _ hflight), hg, rfl⟩
      · rcases rows_runFills st s.fills f hrow with hold | ⟨fs, g, rfl, hg, rfl⟩
        · exact Or.inr hold
        · exact Or.inl ⟨fs, g, hperm.mem_iff.mpr List.mem_cons_self, hg, rfl⟩
    · exact h

/-- A step files nothing but the order it places. -/
theorem storeEntries_step (makerFeeBps : K) (s : BookStore K) (l : StoreLabel K) :
    storeEntries ((storeMachine makerFeeBps).next s l) ⊆
      storeEntries s ∪ {e | ∃ p, TakesUp s l p ∧ e = orderEntry p.newRow} := by
  have horder : ∀ o ∈ storeOrders ((storeMachine makerFeeBps).next s l), orderEntry o ∈
      storeEntries s ∪ {e | ∃ p, TakesUp s l p ∧ e = orderEntry p.newRow} := by
    intro o ho
    rcases storeOrders_step makerFeeBps s l o ho with ⟨r, hr, heq⟩ | ⟨p, hp, rfl⟩
    · have hentry : orderEntry o = orderEntry r := by
        rw [heq]
        rfl
      rw [hentry]
      exact Or.inl (Or.inl (Set.mem_image_of_mem _ hr))
    · exact Or.inr ⟨p, hp, rfl⟩
  rintro e (⟨o, ho, rfl⟩ | ⟨f, hf, rfl⟩)
  · exact horder o ho
  · rcases storeFills_step makerFeeBps s l f hf with hold | ⟨o, ho, heq⟩
    · exact Or.inl (Or.inr (Set.mem_image_of_mem _ hold))
    · rw [heq]
      exact Or.inl (Or.inl (Set.mem_image_of_mem _ ho))

omit [Field K] [LinearOrder K] in
/-- An empty store has no orders. -/
theorem storeOrders_init : storeOrders (BookStore.init Table.empty Table.empty :
    BookStore K) = ∅ := by
  ext o
  simp [storeOrders, BookStore.init, inFlight]

omit [Field K] [LinearOrder K] in
/-- An empty store has no entries. -/
theorem storeEntries_init : storeEntries (BookStore.init Table.empty Table.empty :
    BookStore K) = ∅ := by
  rw [storeEntries, storeOrders_init]
  ext e
  simp [storeFills, BookStore.init, inFlight]

/-- An order that passes its check has a positive price. -/
theorem price_pos_of_check (p : LimitOrder K) (h : p.check = none) : 0 < p.price := by
  unfold LimitOrder.check at h
  split at h
  · cases h
  · split at h
    · cases h
    · rename_i hpos
      exact not_le.mp fun hle => hpos (Or.inl hle)

/-- A step that posts a fresh order keeps one entry an id, and paper orders. -/
theorem storeKept_step (makerFeeBps : K) (s : BookStore K) (l : StoreLabel K)
    (hposts : PostsFresh s l) (hone : Set.InjOn Prod.fst (storeEntries s))
    (horders : ∀ o ∈ storeOrders s, IsPaperOrder o) :
    Set.InjOn Prod.fst (storeEntries ((storeMachine makerFeeBps).next s l)) ∧
      ∀ o ∈ storeOrders ((storeMachine makerFeeBps).next s l), IsPaperOrder o := by
  constructor
  · refine injOn_of_grows hone (storeEntries_step makerFeeBps s l) ?_ ?_
    · rintro e ⟨p, ⟨rfl, -⟩, rfl⟩ e' ⟨p', ⟨heq, -⟩, rfl⟩ -
      obtain rfl := BookCall.place.inj (StoreLabel.call.inj heq)
      rfl
    · rintro e he e' ⟨p, hp, rfl⟩
      exact (hposts p hp).2 e he
  · intro o ho
    rcases storeOrders_step makerFeeBps s l o ho with ⟨r, hr, heq⟩ | ⟨p, hp, rfl⟩
    · rw [heq]
      exact horders r hr
    · obtain ⟨⟨slug, hslug, hinstrument⟩, -⟩ := hposts p hp
      refine ⟨⟨slug, .yesUp, hslug, ?_⟩, price_pos_of_check p hp.2.2⟩
      rw [instrumentId, if_pos rfl, String.append_assoc]
      exact hinstrument

/-- **What a limit book writes is well kept**, in every run that posts fresh orders. -/
theorem wellKept_book (makerFeeBps : K) (ls : List (StoreLabel K))
    (hposts : (storeMachine makerFeeBps).Along PostsFresh
      (BookStore.init Table.empty Table.empty) ls) :
    WellKept ((storeMachine makerFeeBps).final
      (BookStore.init Table.empty Table.empty) ls).paperTables := by
  have hrun := (storeMachine makerFeeBps).invariant _
    (fun _ s _ => Set.InjOn Prod.fst (storeEntries s) ∧ ∀ o ∈ storeOrders s, IsPaperOrder o)
    (BookStore.init Table.empty Table.empty) ?_ ?_ ls hposts
  · obtain ⟨hone, horders⟩ := hrun
    refine wellKept_of_entries _ _ hone ?_ ?_ ?_
    · intro o ho
      exact horders o (Or.inr (Or.inr ho))
    · intro o ho
      exact Or.inl (Set.mem_image_of_mem orderEntry (Or.inr (Or.inr ho)))
    · intro f hf _
      exact Or.inr (Set.mem_image_of_mem fillEntry (Or.inr hf))
  · rw [storeEntries_init, storeOrders_init]
    refine ⟨Set.injOn_empty _, fun o ho => ?_⟩
    cases ho
  · intro pre l hl ih
    exact storeKept_step makerFeeBps _ l hl ih.1 ih.2

end Book

/-! ## What the driver writes -/

section Driver

variable {K S P : Type} [Field K] [LinearOrder K] [FloorRing K] (env : DriverEnv K S P)

/-- What the driver has filed: the entry under way and the rows, but for its settlements. -/
def driverEntries (w : World K S) : Set (String × K × K) :=
  {e | (∃ a, attemptOf w.consumer = some a ∧ e = orderEntry a.order.stored) ∨
    (∃ o ∈ w.orders.rows, e = orderEntry o.stored) ∨
    ∃ f ∈ w.fills.rows, f.isSettle = false ∧ e = fillEntry f.stored}

/-- The market of a tick has a slug, and a tick enters under an id that is new. -/
def EntersFresh (w : World K S) (l : DriverLabel K) : Prop :=
  (∀ d ks, l.action = .tick d ks → IsSlug d.marketSlug) ∧
    ∀ id ∈ newIds env w l, ∀ e ∈ driverEntries w, e.1 ≠ id

/-- A step without a tick enters nothing. -/
theorem entersFresh_of_no_tick (w : World K S) (l : DriverLabel K)
    (h : ∀ d ks, l.action ≠ .tick d ks) : EntersFresh env w l := by
  refine ⟨fun d ks htick => absurd htick (h d ks), ?_⟩
  intro id hid
  unfold newIds at hid
  split at hid
  · rename_i d ks htick _
    exact absurd htick (h d ks)
  · cases hid

variable {env}

omit [FloorRing K] in
/-- The rows of a prepared entry belong together. -/
theorem Prepared.rows {Q : EntryRequest K → Prop} {a : EntryAttempt K}
    (h : Prepared env Q a) : fillEntry a.fill.stored = orderEntry a.order.stored ∧
      a.fill.isSettle = false := by
  obtain ⟨ks, req, -, hok⟩ := h
  obtain ⟨-, -, -, -, -, -, -, hid, -, hprice, hqty, hkind⟩ := tryEnter_rows _ _ _ _ _ hok
  refine ⟨?_, by rw [FillRow.isSettle, hkind]⟩
  unfold fillEntry orderEntry FillRow.stored OrderRow.stored
  rw [hid, hprice, hqty]

/-- An entry under a slug prepares its rows for a slug. -/
theorem Enters.prepared {w : World K S} {l : DriverLabel K} {a : EntryAttempt K}
    (h : Enters env w l a) (hl : EntersFresh env w l) :
    Prepared env (fun req => IsSlug req.slug) a := by
  obtain ⟨-, d, ks, risk, dec, strategy, action, -, hok⟩ := h
  exact ⟨ks, _, hl.1 d ks action, hok⟩

variable (env)

/-- A step files nothing but the entry it prepares. -/
theorem driverEntries_step {Q : EntryRequest K → Prop} (w : World K S) (l : DriverLabel K)
    (hstems : Stems env Q [] [] w) :
    driverEntries ((driverMachine env).next w l) ⊆
      driverEntries w ∪ {e | ∃ a, Enters env w l a ∧ e = orderEntry a.order.stored} := by
  obtain ⟨horders, hfills⟩ := rows_step env w l
  rintro e (⟨a, ha, rfl⟩ | ⟨o, ho, rfl⟩ | ⟨f, hf, hkind, rfl⟩)
  · rcases attempt_step env w l a ha with hold | hnew
    · exact Or.inl (Or.inl ⟨a, hold, rfl⟩)
    · exact Or.inr ⟨a, hnew, rfl⟩
  · rcases horders o ho with hold | ⟨a, ha, rfl⟩
    · exact Or.inl (Or.inr (Or.inl ⟨o, hold, rfl⟩))
    · exact Or.inl (Or.inl ⟨a, ha, rfl⟩)
  · rcases hfills f hf with hold | ⟨a, ha, rfl⟩ | ⟨point, hwaits, pos, settleTs, pnl, rfl⟩
    · exact Or.inl (Or.inr (Or.inr ⟨f, hold, hkind, rfl⟩))
    · exact Or.inl (Or.inl ⟨a, ha, (hstems.attempt a ha).rows.1⟩)
    · have hpoint : SettlesEntered env Q pos settleTs pnl f := by
        rcases hwaits with hwaits | hwaits
        · exact hstems.consumer _ hwaits
        · exact hstems.watchdog _ hwaits
      obtain ⟨-, up, -, rfl⟩ := hpoint
      cases hkind

variable [IsStrictOrderedRing K]

omit [FloorRing K] in
/-- A fill at a positive ask has a positive price. -/
theorem tryEnter_entryPrice_pos (lib : ExecLib K) (cfg : ExecConfig K) (killSwitchActive : Bool)
    (req : EntryRequest K) (a : EntryAttempt K)
    (h : tryEnter lib cfg killSwitchActive req = .ok a)
    (hslippage : -10000 < cfg.fillParams.slippageBps) : 0 < a.position.entryPrice := by
  have hentry := (tryEnter_ok _ _ _ _ _ h).2.2.2.2.1
  rw [hentry]
  apply fillAt_entryPrice_pos _ _ _ ?_ hslippage
  unfold tryEnter at h
  split at h
  · cases h
  split at h
  · cases h
  split at h
  · cases h
  dsimp only at h
  split at h
  · cases h
  rename_i hfilled
  exact askOf_pos_of_filled _ _ _ _ _ _ _ (not_not.mp hfilled)

omit [FloorRing K] in
/-- A prepared entry has a positive price, unless the slippage takes more than the ask. -/
theorem Prepared.isPaperOrder {a : EntryAttempt K}
    (h : Prepared env (fun req => IsSlug req.slug) a)
    (hslippage : -10000 < env.execCfg.fillParams.slippageBps) : IsPaperOrder a.order.stored := by
  obtain ⟨ks, req, hslug, hok⟩ := h
  obtain ⟨-, -, hinstrument, hprice, -⟩ := tryEnter_rows _ _ _ _ _ hok
  refine ⟨⟨req.slug, req.side, hslug, hinstrument⟩, ?_⟩
  change 0 < a.order.price
  rw [hprice]
  exact tryEnter_entryPrice_pos _ _ _ _ _ hok hslippage

/-- **What the driver writes is well kept**, in every run that enters under fresh ids. -/
theorem wellKept_driver (strategy : S) (paused : Bool) (rows : Option (List String))
    (dailyPnl : K) (dailyTrades : ℤ) (hslippage : -10000 < env.execCfg.fillParams.slippageBps)
    (ls : List (DriverLabel K))
    (hfresh : (driverMachine env).Along (EntersFresh env) (World.boot
      (DriverState.boot strategy paused rows dailyPnl dailyTrades) Table.empty Table.empty) ls) :
    WellKept ((driverMachine env).final (World.boot
      (DriverState.boot strategy paused rows dailyPnl dailyTrades) Table.empty Table.empty)
        ls).paperTables := by
  have hrun := (driverMachine env).invariant _
    (fun _ w _ => Stems env (fun req => IsSlug req.slug) [] [] w ∧
      Set.InjOn Prod.fst (driverEntries w))
    (World.boot (DriverState.boot strategy paused rows dailyPnl dailyTrades) Table.empty
      Table.empty) ?_ ?_ ls hfresh
  · obtain ⟨hstems, hone⟩ := hrun
    refine wellKept_of_entries _ _ hone ?_ ?_ ?_
    · intro o ho
      obtain ⟨r, hr, rfl⟩ := List.mem_map.mp ho
      rcases hstems.orderRows r hr with hold | ⟨a, ha, rfl⟩
      · cases hold
      · exact ha.isPaperOrder env hslippage
    · intro o ho
      obtain ⟨r, hr, rfl⟩ := List.mem_map.mp ho
      exact Or.inr (Or.inl ⟨r, hr, rfl⟩)
    · intro f hf hkind
      obtain ⟨r, hr, rfl⟩ := List.mem_map.mp hf
      exact Or.inr (Or.inr ⟨r, hr, r.isSettle_stored ▸ hkind, rfl⟩)
  · refine ⟨stems_boot env _ strategy paused rows dailyPnl dailyTrades Table.empty Table.empty, ?_⟩
    have hempty : driverEntries (World.boot (DriverState.boot strategy paused rows dailyPnl
        dailyTrades) Table.empty Table.empty) = ∅ := by
      ext e
      simp [driverEntries, World.boot, attemptOf]
    rw [hempty]
    exact Set.injOn_empty _
  · intro pre l hl ih
    obtain ⟨hstems, hone⟩ := ih
    refine ⟨stems_step env _ [] [] _ l hstems fun a ha => ha.prepared hl, ?_⟩
    refine injOn_of_grows hone (driverEntries_step env _ l hstems) ?_ ?_
    · rintro e ⟨a, ha, rfl⟩ e' ⟨b, hb, rfl⟩ -
      rw [ha.unique hb]
    · rintro e he e' ⟨a, ha, rfl⟩
      exact hl.2 a.order.orderId ha.mem_newIds e he

end Driver

/-! ## What the paper engine can leave in the tables -/

section Content

variable {K : Type} [Field K] [LinearOrder K] [FloorRing K]

/-- The ids of the orders that the tables know of. -/
def orderIds (t : PaperTables K) : List String :=
  t.orders.map (·.orderId) ++ t.fills.map (·.orderId)

/-- What drivers, limit books and earlier runs of the script can leave: an id is used for one
order, and slippage never takes all of the ask. -/
inductive Produced : PaperTables K → Prop where
  | driver {S P : Type} (env : DriverEnv K S P) (strategy : S) (paused : Bool)
      (rows : Option (List String)) (dailyPnl : K) (dailyTrades : ℤ)
      (hslippage : -10000 < env.execCfg.fillParams.slippageBps) (ls : List (DriverLabel K))
      (hfresh : (driverMachine env).Along (EntersFresh env) (World.boot
        (DriverState.boot strategy paused rows dailyPnl dailyTrades) Table.empty
          Table.empty) ls) :
      Produced ((driverMachine env).final (World.boot
        (DriverState.boot strategy paused rows dailyPnl dailyTrades) Table.empty Table.empty)
          ls).paperTables
  | book (makerFeeBps : K) (ls : List (StoreLabel K))
      (hposts : (storeMachine makerFeeBps).Along PostsFresh
        (BookStore.init Table.empty Table.empty) ls) :
      Produced ((storeMachine makerFeeBps).final
        (BookStore.init Table.empty Table.empty) ls).paperTables
  | join (t u : PaperTables K) (ht : Produced t) (hu : Produced u)
      (hids : ∀ id ∈ orderIds t, id ∉ orderIds u) : Produced (t.join u)
  | backfill (t : PaperTables K) (ht : Produced t) (now : K) (tables : PriceTables K)
      (markets : List (MarketRow K)) : Produced (t.backfill now tables markets)

omit [FloorRing K] in
/-- Two well kept pairs of tables without a common id are well kept together. -/
theorem WellKept.join {t u : PaperTables K} (ht : WellKept t) (hu : WellKept u)
    (hids : ∀ id ∈ orderIds t, id ∉ orderIds u) : WellKept (t.join u) := by
  refine ⟨?_, ?_, ?_⟩
  · intro o ho
    rcases List.mem_append.mp ho with ho | ho
    · exact ht.token o ho
    · exact hu.token o ho
  · intro o ho
    rcases List.mem_append.mp ho with ho | ho
    · exact ht.priced o ho
    · exact hu.priced o ho
  · intro o ho f hf hentry
    rcases List.mem_append.mp ho with ho | ho
    · rcases List.mem_append.mp hf with hf | hf
      · exact ht.matched o ho f hf hentry
      · have hid : o.orderId ∈ orderIds u :=
          hentry.1 ▸ List.mem_append_right _ (List.mem_map_of_mem hf)
        exact absurd hid (hids _ (List.mem_append_left _ (List.mem_map_of_mem ho)))
    · rcases List.mem_append.mp hf with hf | hf
      · have hid : o.orderId ∈ orderIds t :=
          hentry.1 ▸ List.mem_append_right _ (List.mem_map_of_mem hf)
        exact absurd (List.mem_append_left _ (List.mem_map_of_mem ho)) (hids _ hid)
      · exact hu.matched o ho f hf hentry

omit [FloorRing K] in
/-- A settle fill is no entry. -/
theorem WellKept.insertFill {t : PaperTables K} (ht : WellKept t) (f : StoredFill K)
    (hf : f.isSettle = true) : WellKept (t.insertFill f) := by
  unfold PaperTables.insertFill
  split
  · exact ht
  · refine ⟨ht.token, ht.priced, ?_⟩
    intro o ho f' hf' hentry
    rcases List.mem_append.mp hf' with hold | hnew
    · exact ht.matched o ho f' hold hentry
    · rw [List.mem_singleton.mp hnew] at hentry
      exact absurd hentry.2 (by rw [hf]; exact Bool.true_eq_false_eq_False)

/-- A backfill keeps the tables well kept. -/
theorem WellKept.backfill {t : PaperTables K} (ht : WellKept t) (now : K)
    (tables : PriceTables K) (markets : List (MarketRow K)) :
    WellKept (t.backfill now tables markets) := by
  unfold PaperTables.backfill
  generalize t.due now tables markets = due
  induction due generalizing t with
  | nil => exact ht
  | cons d due ih =>
    rw [List.map_cons, List.foldl_cons]
    exact ih (ht.insertFill _ rfl)

variable [IsStrictOrderedRing K]

/-- **What the paper engine leaves is well kept.** -/
theorem Produced.wellKept {t : PaperTables K} (h : Produced t) : WellKept t := by
  induction h with
  | driver env strategy paused rows dailyPnl dailyTrades hslippage ls hfresh =>
    exact wellKept_driver env strategy paused rows dailyPnl dailyTrades hslippage ls hfresh
  | book makerFeeBps ls hposts => exact wellKept_book makerFeeBps ls hposts
  | join t u ht hu hids iht ihu => exact iht.join ihu hids
  | backfill t ht now tables markets ih => exact ih.backfill now tables markets

/-- A run of the script settles entries only, and each as what it was. -/
def SettlesEntriesOnly (t : PaperTables K) (now : K) (tables : PriceTables K)
    (markets : List (MarketRow K)) : Prop :=
  ∀ d ∈ t.due now tables markets, ∀ o ∈ t.orders, o.toOrderRow = d.order → SettlesEntry t d o

/-- Every order that is due has been filled, and bought; or sold for a gain or loss that rounds
to nothing. -/
def DueWereBought (t : PaperTables K) (now : K) (tables : PriceTables K)
    (markets : List (MarketRow K)) : Prop :=
  ∀ d ∈ t.due now tables markets, ∀ o ∈ t.orders, o.toOrderRow = d.order →
    (∃ f ∈ t.fills, IsEntryOf f o) ∧ (o.side = "SELL" →
      |o.qty * (payoff o.instrumentId (d.openPrice < d.settlePrice) - o.price)| ≤ 1 / 2000000)

/-- **When the script settles entries only.** For all tables that the paper engine can leave: just
when every order it finds due was bought and filled.
SOURCE: scripts/backfill_paper_settles.py:39-81, 152-200, paper/limit_book_sim.py:261-317 -/
theorem settles_entries_iff (t : PaperTables K) (ht : Produced t) (now : K)
    (tables : PriceTables K) (markets : List (MarketRow K)) :
    SettlesEntriesOnly t now tables markets ↔ DueWereBought t now tables markets := by
  have hwell := ht.wellKept
  constructor
  · intro h d hd o ho horder
    exact (settlesEntry_iff t hwell d o ho horder).mp (h d hd o ho horder)
  · intro h d hd o ho horder
    exact (settlesEntry_iff t hwell d o ho horder).mpr (h d hd o ho horder)

end Content

section Instance

/-- The candles of a window that ended 1 % above its start. -/
def risingCandles (openTs closeTs : ℚ) : PriceTables ℚ where
  paperTicks := []
  candles := [⟨"binance", "BTCUSDT", "1m", openTs, 100, 100⟩,
    ⟨"binance", "BTCUSDT", "1m", closeTs, 101, 101⟩]

/-- The tables after the driver has bought a position. -/
def boughtTables : PaperTables ℚ :=
  ((driverMachine (eagerDriver 0)).final (eagerBoot [])
    (entryLabels (quotedDict "btc-updown-5m-1200" 1300 100 1500))).paperTables

/-- A position bought and due is settled. -/
theorem settles_entries_iff_bought :
    (boughtTables.due 1600 (risingCandles 1200 1500)
      [⟨"btc-updown-5m-1200", "0x1", some 1500⟩]).length = 1 ∧
    SettlesEntriesOnly boughtTables 1600 (risingCandles 1200 1500)
      [⟨"btc-updown-5m-1200", "0x1", some 1500⟩] := by
  refine ⟨by decide +kernel, ?_⟩
  have hproduced : Produced boughtTables := by
    apply Produced.driver (eagerDriver 0) () false (some []) 0 0 (by decide +kernel)
    simp only [Machine.Along, entryLabels, Obeys.cons_iff]
    refine ⟨⟨?_, ?_⟩, entersFresh_of_no_tick _ _ _ ?_, entersFresh_of_no_tick _ _ _ ?_,
      entersFresh_of_no_tick _ _ _ ?_, Obeys.nil⟩
    · rintro d ks ⟨⟩
      decide
    · rintro id hid e (⟨a, ha, -⟩ | ⟨o, ho, -⟩ | ⟨f, hf, -⟩)
      · cases ha
      · cases ho
      · cases hf
    all_goals
      rintro d ks ⟨⟩
  refine (settles_entries_iff boughtTables hproduced 1600 _ _).mpr ?_
  have hbought : ∀ o ∈ boughtTables.orders, o.side ≠ "SELL" ∧
      ∃ f ∈ boughtTables.fills, f.orderId = o.orderId ∧ f.isSettle = false := by
    decide +kernel
  intro d hd o ho horder
  obtain ⟨hside, f, hf, hentry⟩ := hbought o ho
  exact ⟨⟨f, hf, hentry⟩, fun hsell => absurd hsell hside⟩

/-- An order is placed and its row inserted. -/
def placedAndStored (o : LimitOrder ℚ) : List (StoreLabel ℚ) := [.call (.place o), .execute 0 1000]

/-- The tables of a limit book with an order that rests. -/
def restingTables : PaperTables ℚ :=
  ((storeMachine (0 : ℚ)).final (BookStore.init Table.empty Table.empty)
    (placedAndStored (restingBuy "a" 1000))).paperTables

/-- The tables after a sale has been filled. -/
def soldTables : PaperTables ℚ :=
  ((storeMachine (0 : ℚ)).final (BookStore.init Table.empty Table.empty)
    (placedAndStored { restingBuy "a" 1000 with side := "SELL" } ++
      [.call (.onTick "btc-updown-15m-900-YES.POLYMARKET" (2 / 5) 1001), .execute 1 1001,
        .execute 1 1001])).paperTables

/-- The first placement is fresh. -/
theorem postsFresh_first (o : LimitOrder ℚ)
    (h : o.instrumentId = instrumentIdYes "btc-updown-15m-900") :
    PostsFresh (BookStore.init Table.empty Table.empty) (.call (.place o)) := by
  rintro p ⟨heq, -, -⟩
  obtain rfl := BookCall.place.inj (StoreLabel.call.inj heq)
  refine ⟨⟨"btc-updown-15m-900", by decide, h⟩, fun e he => ?_⟩
  rw [storeEntries_init] at he
  cases he

/-- An order that still rests is settled as if it had been filled, and a sale is settled as if it
had been a purchase. -/
theorem settles_resting_and_sold :
    (Produced restingTables ∧ ¬SettlesEntriesOnly restingTables 1900 (risingCandles 1500 1800)
      [⟨"btc-updown-15m-900", "0x1", some 1800⟩]) ∧
    (Produced soldTables ∧ ¬SettlesEntriesOnly soldTables 1900 (risingCandles 1500 1800)
      [⟨"btc-updown-15m-900", "0x1", some 1800⟩]) := by
  refine ⟨⟨?_, ?_⟩, ⟨?_, ?_⟩⟩
  · apply Produced.book 0
    simp only [Machine.Along, placedAndStored, Obeys.cons_iff]
    refine ⟨postsFresh_first _ rfl, ?_, Obeys.nil⟩
    rintro p ⟨⟨⟩, -⟩
  · intro h
    obtain ⟨d, hd⟩ := List.exists_mem_of_length_pos (l := restingTables.due 1900
      (risingCandles 1500 1800) [⟨"btc-updown-15m-900", "0x1", some 1800⟩]) (by decide +kernel)
    obtain ⟨o, ho, horder⟩ := List.mem_map.mp (mem_dueOrders hd).1
    obtain ⟨f, hf, -⟩ := h d hd o ho horder
    have hnone : restingTables.fills.length = 0 := by decide +kernel
    rw [List.eq_nil_of_length_eq_zero hnone] at hf
    cases hf
  · apply Produced.book 0
    simp only [Machine.Along, placedAndStored, List.cons_append, List.nil_append, Obeys.cons_iff]
    refine ⟨postsFresh_first _ rfl, ?_, ?_, ?_, ?_, Obeys.nil⟩
    all_goals rintro p ⟨⟨⟩, -⟩
  · intro h
    obtain ⟨d, hd⟩ := List.exists_mem_of_length_pos (l := soldTables.due 1900
      (risingCandles 1500 1800) [⟨"btc-updown-15m-900", "0x1", some 1800⟩]) (by decide +kernel)
    obtain ⟨o, ho, horder⟩ := List.mem_map.mp (mem_dueOrders hd).1
    obtain ⟨f, hf, -, -, hpnl⟩ := h d hd o ho horder
    have hwrong : ∀ d ∈ soldTables.due 1900 (risingCandles 1500 1800)
        [⟨"btc-updown-15m-900", "0x1", some 1800⟩], ∀ o ∈ soldTables.orders,
        ∀ f ∈ soldTables.fills, d.exitFill.settlePnl ≠
          some (roundMillionths (entryPnl o f (d.openPrice < d.settlePrice))) := by
      decide +kernel
    exact hwrong d hd o ho f hf hpnl

end Instance

end TradingEdge.Analysis
