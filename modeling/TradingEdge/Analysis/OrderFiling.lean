import TradingEdge.Analysis.TableEffects

/-!
# The rows of the orders in hand

While every write goes through and every entry is under an id that the tables do not know, each
order the driver has in hand is one row of `trading.orders`, and the fill it is going to write
next is not there yet (`Filing`).
-/

set_option autoImplicit false

namespace TradingEdge.Analysis

open TradingEdge.Model TradingEdge.Program TradingEdge.Library

variable {K S P : Type} [Field K] [LinearOrder K]

/-! ## Orders in hand and their rows -/

/-- How often the join has a fill of the order. -/
def joinCount (strategyId : String) (orders : List (OrderRow K)) (orderId : String) : ℕ :=
  (orders.filter fun o => o.orderId = orderId ∧ o.strategyId = strategyId).length

section Join

omit [Field K] [LinearOrder K]

/-- One more row is one more fill of the join, if it is of the order. -/
theorem joinCount_concat (strategyId : String) (orders : List (OrderRow K)) (o : OrderRow K)
    (orderId : String) : joinCount strategyId (orders ++ [o]) orderId =
      joinCount strategyId orders orderId +
        if o.orderId = orderId ∧ o.strategyId = strategyId then 1 else 0 := by
  unfold joinCount
  rw [List.filter_append, List.length_append]
  congr 1
  by_cases h : o.orderId = orderId ∧ o.strategyId = strategyId
  · rw [if_pos h, List.filter_cons_of_pos (by simpa using h)]
    rfl
  · rw [if_neg h, List.filter_cons_of_neg (by simpa using h)]
    rfl

/-- An order without a row is not in the join. -/
theorem joinCount_eq_zero (strategyId : String) (orders : List (OrderRow K)) (orderId : String)
    (h : ∀ o ∈ orders, o.orderId ≠ orderId) : joinCount strategyId orders orderId = 0 := by
  unfold joinCount
  rw [List.length_eq_zero_iff, List.filter_eq_nil_iff]
  intro o ho heq
  exact h o ho (of_decide_eq_true heq).1

end Join

/-- No fill is of the order, and none has the id of its fills. -/
def NoFills (fills : List (FillRow K)) (orderId : String) : Prop :=
  ∀ f ∈ fills, f.orderId ≠ orderId ∧ f.fillId ≠ orderId ++ "-fill" ∧
    f.fillId ≠ orderId ++ "-exit"

/-- Neither table knows the order. -/
def Unknown (w : World K S) (orderId : String) : Prop :=
  (∀ o ∈ w.orders.rows, o.orderId ≠ orderId) ∧ NoFills w.fills.rows orderId

instance (fills : List (FillRow K)) (orderId : String) : Decidable (NoFills fills orderId) :=
  inferInstanceAs (Decidable (∀ f ∈ fills, _))

instance (w : World K S) (orderId : String) : Decidable (Unknown w orderId) :=
  inferInstanceAs (Decidable (_ ∧ _))

/-- The order is one row of `trading.orders`, and its exit fill is not written. -/
def Filed (strategyId : String) (w : World K S) (orderId : String) : Prop :=
  joinCount strategyId w.orders.rows orderId = 1 ∧
    ∀ f ∈ w.fills.rows, f.fillId ≠ orderId ++ "-exit"

/-- The order of the entry under way. -/
def attemptIds (w : World K S) : List String :=
  (attemptOf w.consumer).toList.map (·.position.clientOrderId)

/-- The other orders in hand: those that are open, or being settled. -/
def filedIds (w : World K S) : List String :=
  (consumerPoint w.consumer).toList.flatMap pointIds ++ openIds w.driver ++
    watchdogIds w.watchdog

/-- Each order is in one hand; each one that the driver has is one row, and the fill it writes
next is not there. -/
structure Filing (strategyId : String) (w : World K S) : Prop where
  once : ∀ id, (attemptIds w).count id + (filedIds w).count id ≤ 1
  filed : ∀ id ∈ filedIds w, Filed strategyId w id
  order : ∀ a, w.consumer = .persistingOrder a → Unknown w a.position.clientOrderId
  fill : ∀ a, w.consumer = .persistingFill a →
    joinCount strategyId w.orders.rows a.position.clientOrderId = 1 ∧
      NoFills w.fills.rows a.position.clientOrderId

section Ids

omit [Field K] [LinearOrder K]

/-- An exit and an entry have different ids. -/
theorem exit_ne_fill (id id' : String) : id ++ "-exit" ≠ id' ++ "-fill" := by
  intro h
  have hlast := congrArg (fun s => s.toList.getLast?) h
  simp at hlast

/-- Exits of different orders have different ids. -/
theorem exit_inj {id id' : String} (h : id ++ "-exit" = id' ++ "-exit") : id = id' :=
  (String.append_left_inj _).mp h

/-- An order in hand is being entered or filed. -/
theorem count_heldIds_eq (w : World K S) (id : String) :
    (heldIds w).count id = (attemptIds w).count id + (filedIds w).count id := by
  rw [count_heldIds, attemptIds, filedIds, List.count_append, List.count_append]
  cases hc : w.consumer with
  | idle => simp [consumerIds, attemptOf, consumerPoint]
  | settling job point => simp [consumerIds, attemptOf, consumerPoint]
  | persistingOrder a =>
    simp only [consumerIds, attemptOf, consumerPoint, Option.toList_some, Option.toList_none,
      List.map_cons, List.map_nil, List.flatMap_nil, List.count_nil]
    omega
  | persistingFill a =>
    simp only [consumerIds, attemptOf, consumerPoint, Option.toList_some, Option.toList_none,
      List.map_cons, List.map_nil, List.flatMap_nil, List.count_nil]
    omega
  | notifyingOpen => simp [consumerIds, attemptOf, consumerPoint]

/-- Without an entry under way no order is being entered. -/
theorem attemptIds_eq_nil {w : World K S} (h : attemptOf w.consumer = none) :
    attemptIds w = [] := by
  unfold attemptIds
  rw [h]
  rfl

/-- The order of the entry under way. -/
theorem attemptIds_of_some {w : World K S} {a : EntryAttempt K}
    (h : attemptOf w.consumer = some a) : attemptIds w = [a.position.clientOrderId] := by
  unfold attemptIds
  rw [h]
  rfl

/-- The same entry is of the same order. -/
theorem SameEntry.attemptIds_eq {w w' : World K S} (h : SameEntry w w') :
    attemptIds w' = attemptIds w := by
  rcases h with h | ⟨hbefore, hafter⟩
  · unfold attemptIds
    rw [h]
  · rw [attemptIds_eq_nil hbefore, attemptIds_eq_nil hafter]

/-- A settlement that waits for its write has the order of its fill. -/
theorem mem_filedIds_of_waits {w : World K S} {pos : Position K} {settleTs pnl : K}
    {fill : FillRow K}
    (h : consumerPoint w.consumer = some (.settleFill pos settleTs pnl fill) ∨
      watchdogPoint w.watchdog = some (.settleFill pos settleTs pnl fill)) :
    fill.orderId ∈ filedIds w := by
  unfold filedIds
  rcases h with h | h
  · refine List.mem_append_left _ (List.mem_append_left _ ?_)
    rw [h]
    exact List.mem_singleton_self _
  · refine List.mem_append_right _ ?_
    cases hw : w.watchdog with
    | sleeping =>
      rw [hw] at h
      cases h
    | settling job point rest =>
      rw [hw] at h
      cases h
      exact List.mem_singleton_self _

end Ids

section Rows

variable [FloorRing K] (env : DriverEnv K S P) (Q : EntryRequest K → Prop)

omit [FloorRing K] in
/-- The ids of what a prepared entry writes. -/
theorem Prepared.ids {env : DriverEnv K S P} {Q : EntryRequest K → Prop} {a : EntryAttempt K}
    (h : Prepared env Q a) :
    a.order.orderId = a.position.clientOrderId ∧
      a.order.strategyId = env.execCfg.strategyId ∧
      a.fill.orderId = a.position.clientOrderId ∧
      a.fill.fillId = a.position.clientOrderId ++ "-fill" ∧
      fillMark a.fill = (a.position.entryTs + 100 / 1000, none) := by
  obtain ⟨ks, req, -, hok⟩ := h
  obtain ⟨-, hid, -, -, hstrategy, hts, hfillId, hfill, hfillTs, -, -, hkind⟩ :=
    tryEnter_rows _ _ _ _ _ hok
  refine ⟨hid, hstrategy, hfill.trans hid, by rw [hfillId, hid], ?_⟩
  rw [fillMark, FillRow.settlePnl, hkind, hfillTs, hts]

omit [FloorRing K] in
/-- What a settlement is going to write stems from an entry. -/
theorem Stems.settles {env : DriverEnv K S P} {Q : EntryRequest K → Prop}
    {orders : List (OrderRow K)} {fills : List (FillRow K)} {w : World K S} {pos : Position K}
    {settleTs pnl : K} {fill : FillRow K} (h : Stems env Q orders fills w)
    (waits : consumerPoint w.consumer = some (.settleFill pos settleTs pnl fill) ∨
      watchdogPoint w.watchdog = some (.settleFill pos settleTs pnl fill)) :
    SettlesEntered env Q pos settleTs pnl fill := by
  rcases waits with waits | waits
  · exact h.consumer _ waits
  · exact h.watchdog _ waits

omit [FloorRing K] in
/-- The ids of what a settlement writes. -/
theorem SettlesEntered.ids {env : DriverEnv K S P} {Q : EntryRequest K → Prop}
    {pos : Position K} {settleTs pnl : K} {fill : FillRow K}
    (h : SettlesEntered env Q pos settleTs pnl fill) :
    fill.orderId = pos.clientOrderId ∧ fill.fillId = fill.orderId ++ "-exit" ∧
      fill.isSettle = true ∧ fill.settlePnl = some pnl := by
  obtain ⟨-, up, rfl, rfl⟩ := h
  exact ⟨rfl, rfl, rfl, rfl⟩

omit [Field K] in
/-- A fill of another order leaves an order without fills. -/
theorem NoFills.insertNew {t : Table (FillRow.key (K := K))} {id : String} {f : FillRow K}
    (h : NoFills t.rows id) (horder : f.orderId ≠ id) (hfill : f.fillId ≠ id ++ "-fill")
    (hexit : f.fillId ≠ id ++ "-exit") : NoFills (t.insertNew f).rows id :=
  t.forall_mem_insertNew f h ⟨horder, hfill, hexit⟩

omit [Field K] in
/-- A fill that is not its exit leaves an order filed. -/
theorem Filed.insertNew {strategyId : String} {w w' : World K S} {id : String} {f : FillRow K}
    (h : Filed strategyId w id) (horders : w'.orders = w.orders)
    (hfills : w'.fills = w.fills.insertNew f) (hexit : f.fillId ≠ id ++ "-exit") :
    Filed strategyId w' id := by
  unfold Filed
  rw [horders, hfills]
  exact ⟨h.1, w.fills.forall_mem_insertNew f h.2 hexit⟩

omit [Field K] in
/-- A fill whose id no row has is added at the end. -/
theorem rows_insertNew_fill (t : Table (FillRow.key (K := K))) (f : FillRow K)
    (h : ∀ r ∈ t.rows, r.fillId ≠ f.fillId) : (t.insertNew f).rows = t.rows ++ [f] :=
  t.rows_insertNew_of_forall f fun r hr heq => h r hr (congrArg Prod.fst heq)

omit [Field K] in
/-- So is an order. -/
theorem rows_insertNew_order (t : Table (OrderRow.key (K := K))) (o : OrderRow K)
    (h : ∀ r ∈ t.rows, r.orderId ≠ o.orderId) : (t.insertNew o).rows = t.rows ++ [o] :=
  t.rows_insertNew_of_forall o fun r hr heq => h r hr (congrArg Prod.fst heq)

/-- An order that a step has in hand besides the entry under way, it had before, or it is the
entry that returns. -/
theorem filed_count_step (w : World K S) (l : DriverLabel K) (hpending : NothingPending w)
    (hentry : EntersByEntry w) (id : String) :
    (filedIds ((driverMachine env).next w l)).count id +
        settleCount ((driverMachine env).next w l).fills.rows id ≤
      (filedIds w).count id + settleCount w.fills.rows id +
        if attemptOf ((driverMachine env).next w l).consumer = none then
          (attemptIds w).count id else 0 := by
  have hheld := driver_hands_on env w l hpending hentry id
  rw [count_heldIds_eq, count_heldIds_eq] at hheld
  have hbusy : w.consumer ≠ .idle → enteringIds env w l = [] := by
    intro hbusy
    unfold enteringIds
    split
    · rename_i idle
      exact absurd idle hbusy
    · rfl
  cases hafter : attemptOf ((driverMachine env).next w l).consumer with
  | none =>
    have hentering : enteringIds env w l = [] := by
      unfold enteringIds
      rw [hafter]
      split <;> rfl
    rw [hentering, attemptIds_eq_nil hafter, List.count_nil] at hheld
    rw [if_pos rfl]
    omega
  | some a =>
    rw [attemptIds_of_some hafter] at hheld
    rw [if_neg (Option.some_ne_none a)]
    rcases attempt_step env w l a hafter with hbefore | henters
    · have hentering : enteringIds env w l = [] := by
        apply hbusy
        intro idle
        rw [idle] at hbefore
        cases hbefore
      rw [hentering, attemptIds_of_some hbefore, List.count_nil] at hheld
      omega
    · have hbefore : attemptOf w.consumer = none := by
        rw [henters.1]
        rfl
      have hentering : enteringIds env w l = [a.position.clientOrderId] := by
        obtain ⟨idle, d, ks, risk, dec, strategy, -, -, hok⟩ := henters
        unfold enteringIds
        rw [idle, hafter]
        dsimp only
        rw [Option.toList_some, List.map_singleton, (tryEnter_rows _ _ _ _ _ hok).2.1]
      rw [hentering, attemptIds_eq_nil hbefore, List.count_nil] at hheld
      omega

/-- A step enters under ids that the tables do not know. -/
def FreshEntry (w : World K S) (l : DriverLabel K) : Prop :=
  ∀ id ∈ newIds env w l, Unknown w id

instance (w : World K S) (l : DriverLabel K) : Decidable (FreshEntry env w l) :=
  inferInstanceAs (Decidable (∀ id ∈ newIds env w l, _))

omit [Field K] [LinearOrder K] [FloorRing K] in
/-- A settlement in hand writes a fill of a filed order, which is then in no hand. -/
theorem Filing.waits {strategyId : String} {w : World K S} {pos : Position K} {settleTs pnl : K}
    {fill : FillRow K} (h : Filing strategyId w)
    (hwaits : consumerPoint w.consumer = some (.settleFill pos settleTs pnl fill) ∨
      watchdogPoint w.watchdog = some (.settleFill pos settleTs pnl fill)) :
    Filed strategyId w fill.orderId ∧ (filedIds w).count fill.orderId = 1 ∧
      (attemptIds w).count fill.orderId = 0 := by
  have hmem := mem_filedIds_of_waits hwaits
  have honce := h.once fill.orderId
  have hpos := List.count_pos_iff.mpr hmem
  exact ⟨h.filed _ hmem, by omega, by omega⟩

omit [Field K] [LinearOrder K] [FloorRing K] in
/-- The entry under way has its order in no other hand. -/
theorem count_filedIds_of_attempt {w : World K S} {a : EntryAttempt K}
    (honce : ∀ id, (attemptIds w).count id + (filedIds w).count id ≤ 1)
    (h : attemptOf w.consumer = some a) :
    (filedIds w).count a.position.clientOrderId = 0 := by
  have hid := honce a.position.clientOrderId
  rw [attemptIds_of_some h, List.count_singleton_self] at hid
  omega

/-- The step hands the orders on: one that is in hand afterwards, besides the entry under way, was
in hand before, or was the entry's, and one whose settle fill is written leaves. -/
def HandsOn (w w' : World K S) : Prop :=
  ∀ id, (filedIds w').count id + settleCount w'.fills.rows id ≤
    (filedIds w).count id + settleCount w.fills.rows id +
      if attemptOf w'.consumer = none then (attemptIds w).count id else 0

omit [Field K] [LinearOrder K] [FloorRing K] in
/-- Around the same entry, the orders in hand stay in hand or are settled. -/
theorem HandsOn.of_sameEntry {w w' : World K S} (h : HandsOn w w') (same : SameEntry w w')
    (id : String) : (filedIds w').count id + settleCount w'.fills.rows id ≤
      (filedIds w).count id + settleCount w.fills.rows id := by
  have hid := h id
  split at hid
  · rename_i hnone
    rw [← same.attemptIds_eq, attemptIds_eq_nil hnone, List.count_nil] at hid
    exact hid
  · exact hid

omit [Field K] [LinearOrder K] [FloorRing K] in
/-- No more hands hold an order than before, so an order in hand was in hand. -/
theorem mem_filedIds_of_le {w w' : World K S}
    (h : ∀ id, (filedIds w').count id ≤ (filedIds w).count id) {id : String}
    (hid : id ∈ filedIds w') : id ∈ filedIds w :=
  List.count_pos_iff.mp ((List.count_pos_iff.mpr hid).trans_le (h id))

omit [Field K] [LinearOrder K] [FloorRing K] in
/-- Nothing is written. -/
theorem Filing.of_aside {strategyId : String} {w w' : World K S} (h : Filing strategyId w)
    (hcount : HandsOn w w') (same : SameEntry w w') (horders : w'.orders = w.orders)
    (hfills : w'.fills = w.fills) : Filing strategyId w' := by
  have hfiled : ∀ id, (filedIds w').count id ≤ (filedIds w).count id := by
    intro id
    have hid := hcount.of_sameEntry same id
    rw [hfills] at hid
    omega
  refine ⟨?_, ?_, ?_, ?_⟩
  · intro id
    have honce := h.once id
    have hid := hfiled id
    rw [same.attemptIds_eq]
    omega
  · intro id hid
    unfold Filed
    rw [horders, hfills]
    have hpos := List.count_pos_iff.mpr hid
    exact h.filed id (List.count_pos_iff.mp (hpos.trans_le (hfiled id)))
  · intro a ha
    rcases same with same | ⟨-, hnone⟩
    · unfold Unknown
      rw [horders, hfills]
      exact h.order a (same ▸ ha)
    · rw [ha] at hnone
      cases hnone
  · intro a ha
    rcases same with same | ⟨-, hnone⟩
    · rw [horders, hfills]
      exact h.fill a (same ▸ ha)
    · rw [ha] at hnone
      cases hnone

/-- An entry is prepared, under an id that the tables do not know. -/
theorem Filing.of_prepares {w w' : World K S} {l : DriverLabel K} {a : EntryAttempt K}
    (h : Filing env.execCfg.strategyId w) (hcount : HandsOn w w')
    (hfresh : FreshEntry env w l) (enters : Enters env w l a) (horders : w'.orders = w.orders)
    (hfills : w'.fills = w.fills) (after : w'.consumer = .persistingOrder a) :
    Filing env.execCfg.strategyId w' := by
  have hattempt : attemptOf w'.consumer = some a := by
    rw [after]
    rfl
  have hid : a.order.orderId = a.position.clientOrderId := by
    obtain ⟨-, d, ks, risk, dec, strategy, -, -, hok⟩ := enters
    exact (tryEnter_rows _ _ _ _ _ hok).2.1
  have hunknown : Unknown w a.position.clientOrderId := by
    rw [← hid]
    exact hfresh _ enters.mem_newIds
  have hfiled : ∀ id, (filedIds w').count id ≤ (filedIds w).count id := by
    intro id
    have hc := hcount id
    rw [if_neg (by rw [hattempt]; exact Option.some_ne_none a), hfills] at hc
    omega
  refine ⟨?_, ?_, ?_, ?_⟩
  · intro id
    rw [attemptIds_of_some hattempt]
    by_cases heq : id = a.position.clientOrderId
    · -- no filed order has the new id, since its row would be known
      have hnone : id ∉ filedIds w' := by
        intro hmem
        have hone := (h.filed id (mem_filedIds_of_le hfiled hmem)).1
        rw [heq, joinCount_eq_zero _ _ _ hunknown.1] at hone
        exact absurd hone Nat.zero_ne_one
      rw [List.count_eq_zero.mpr hnone, heq, List.count_singleton_self]
    · rw [List.count_eq_zero.mpr (fun hmem => heq (List.mem_singleton.mp hmem)), Nat.zero_add]
      have honce := h.once id
      have hle := hfiled id
      omega
  · intro id hid
    unfold Filed
    rw [horders, hfills]
    exact h.filed id (mem_filedIds_of_le hfiled hid)
  · intro b hb
    rw [after] at hb
    cases hb
    unfold Unknown
    rw [horders, hfills]
    exact hunknown
  · intro b hb
    rw [after] at hb
    cases hb

omit [FloorRing K] in
/-- The order of the entry is written. -/
theorem Filing.of_ordered {orders : List (OrderRow K)} {fills : List (FillRow K)}
    {w w' : World K S} {a : EntryAttempt K} (h : Filing env.execCfg.strategyId w)
    (hcount : HandsOn w w') (hstems : Stems env Q orders fills w)
    (before : w.consumer = .persistingOrder a) (after : w'.consumer = .persistingFill a)
    (horders : w'.orders = w.orders.insertNew a.order) (hfills : w'.fills = w.fills) :
    Filing env.execCfg.strategyId w' := by
  have hattempt : attemptOf w.consumer = some a := by
    rw [before]
    rfl
  have hattempt' : attemptOf w'.consumer = some a := by
    rw [after]
    rfl
  obtain ⟨hid, hstrategy, -⟩ := (hstems.attempt a hattempt).ids
  have hunknown := h.order a before
  have hrows : w'.orders.rows = w.orders.rows ++ [a.order] := by
    rw [horders, rows_insertNew_order]
    rw [hid]
    exact hunknown.1
  have hfiled : ∀ id, (filedIds w').count id ≤ (filedIds w).count id := by
    intro id
    have hc := hcount id
    rw [if_neg (by rw [hattempt']; exact Option.some_ne_none a), hfills] at hc
    omega
  refine ⟨?_, ?_, ?_, ?_⟩
  · intro id
    have honce := h.once id
    have hle := hfiled id
    rw [attemptIds_of_some hattempt] at honce
    rw [attemptIds_of_some hattempt']
    omega
  · intro id hid'
    have hmem := mem_filedIds_of_le hfiled hid'
    have hne : a.order.orderId ≠ id := by
      intro heq
      have hzero := count_filedIds_of_attempt h.once hattempt
      rw [← hid, heq] at hzero
      exact List.count_eq_zero.mp hzero hmem
    obtain ⟨hone, hexit⟩ := h.filed id hmem
    unfold Filed
    rw [hrows, joinCount_concat, if_neg (fun heq => hne heq.1), hone, hfills]
    exact ⟨rfl, hexit⟩
  · intro b hb
    rw [after] at hb
    cases hb
  · intro b hb
    rw [after] at hb
    cases hb
    rw [hrows, joinCount_concat, joinCount_eq_zero _ _ _ hunknown.1,
      if_pos ⟨hid, hstrategy⟩, hfills]
    exact ⟨rfl, hunknown.2⟩

omit [FloorRing K] in
/-- The fill of the entry is written, and the entry returns. -/
theorem Filing.of_entered {orders : List (OrderRow K)} {fills : List (FillRow K)}
    {w w' : World K S} {a : EntryAttempt K} (h : Filing env.execCfg.strategyId w)
    (hcount : HandsOn w w') (hstems : Stems env Q orders fills w) (hentry : EntersByEntry w)
    (before : w.consumer = .persistingFill a) (after : attemptOf w'.consumer = none)
    (horders : w'.orders = w.orders) (hfills : w'.fills = w.fills.insertNew a.fill) :
    Filing env.execCfg.strategyId w' := by
  have hattempt : attemptOf w.consumer = some a := by
    rw [before]
    rfl
  obtain ⟨-, -, -, hfillId, -⟩ := (hstems.attempt a hattempt).ids
  obtain ⟨hone, hno⟩ := h.fill a before
  have hmono := settleCount_writeRow_entry .committed a.fill w.fills
  have hfiled : ∀ id, (filedIds w').count id ≤
      (filedIds w).count id + [a.position.clientOrderId].count id := by
    intro id
    have hc := hcount id
    have hwrite : settleCount (w.fills.insertNew a.fill).rows id = settleCount w.fills.rows id :=
      hmono id (hentry a hattempt)
    rw [if_pos after, attemptIds_of_some hattempt, hfills, hwrite] at hc
    omega
  refine ⟨?_, ?_, ?_, ?_⟩
  · intro id
    have honce := h.once id
    have hle := hfiled id
    rw [attemptIds_of_some hattempt] at honce
    rw [attemptIds_eq_nil after, List.count_nil]
    omega
  · intro id hid'
    have hnoExit : a.fill.fillId ≠ id ++ "-exit" := by
      rw [hfillId]
      exact (exit_ne_fill _ _).symm
    have hold : Filed env.execCfg.strategyId w id := by
      have hpos := List.count_pos_iff.mpr hid'
      have hle := hfiled id
      by_cases heq : id = a.position.clientOrderId
      · rw [heq]
        exact ⟨hone, fun f hf => (hno f hf).2.2⟩
      · rw [List.count_eq_zero.mpr (fun hmem => heq (List.mem_singleton.mp hmem))] at hle
        exact h.filed id (List.count_pos_iff.mp (hpos.trans_le hle))
    exact hold.insertNew horders hfills hnoExit
  · intro b hb
    rw [hb] at after
    cases after
  · intro b hb
    rw [hb] at after
    cases after

omit [FloorRing K] in
/-- The exit fill of a settlement is written. -/
theorem Filing.of_booked {orders : List (OrderRow K)} {fills : List (FillRow K)}
    {w w' : World K S} {pos : Position K} {settleTs pnl : K} {fill : FillRow K}
    (h : Filing env.execCfg.strategyId w) (hcount : HandsOn w w')
    (hstems : Stems env Q orders fills w)
    (waits : consumerPoint w.consumer = some (.settleFill pos settleTs pnl fill) ∨
      watchdogPoint w.watchdog = some (.settleFill pos settleTs pnl fill))
    (same : SameEntry w w') (horders : w'.orders = w.orders)
    (hfills : w'.fills = w.fills.insertNew fill) : Filing env.execCfg.strategyId w' := by
  obtain ⟨-, hfillId, hsettle, -⟩ := (hstems.settles waits).ids
  obtain ⟨hfiledFill, hcountFill, hattemptFill⟩ := h.waits waits
  have hrows : w'.fills.rows = w.fills.rows ++ [fill] := by
    rw [hfills, rows_insertNew_fill]
    rw [hfillId]
    exact hfiledFill.2
  -- the written fill takes its order out of hand
  have hfiled : ∀ id, (filedIds w').count id + [fill.orderId].count id ≤
      (filedIds w).count id := by
    intro id
    have hc := hcount.of_sameEntry same id
    have hrow : settleCount [fill] id = [fill.orderId].count id := by
      unfold settleCount
      by_cases heq : fill.orderId = id <;> simp [heq, hsettle]
    rw [hrows, settleCount_append, hrow] at hc
    omega
  have hne : ∀ id ∈ filedIds w', fill.orderId ≠ id := by
    intro id hid' heq
    have hle := hfiled id
    have hpos := List.count_pos_iff.mpr hid'
    rw [heq, List.count_singleton_self] at hle
    rw [heq] at hcountFill
    omega
  have hexit : ∀ id, fill.orderId ≠ id → fill.fillId ≠ id ++ "-exit" := by
    intro id hne heq
    rw [hfillId] at heq
    exact hne (exit_inj heq)
  have hattemptNe : ∀ a, attemptOf w.consumer = some a →
      fill.orderId ≠ a.position.clientOrderId := by
    intro a ha heq
    rw [attemptIds_of_some ha, heq, List.count_singleton_self] at hattemptFill
    exact absurd hattemptFill Nat.one_ne_zero
  have hstill : ∀ a, attemptOf w.consumer = some a → NoFills w.fills.rows a.position.clientOrderId →
      NoFills (w.fills.insertNew fill).rows a.position.clientOrderId := by
    intro a ha hno
    refine hno.insertNew (hattemptNe a ha) ?_ (hexit _ (hattemptNe a ha))
    rw [hfillId]
    exact exit_ne_fill _ _
  refine ⟨?_, ?_, ?_, ?_⟩
  · intro id
    have honce := h.once id
    have hle := hfiled id
    rw [same.attemptIds_eq]
    omega
  · intro id hid'
    have hmem : id ∈ filedIds w := by
      have hpos := List.count_pos_iff.mpr hid'
      have hle := hfiled id
      apply List.count_pos_iff.mp
      omega
    exact (h.filed id hmem).insertNew horders hfills (hexit id (hne id hid'))
  · intro a ha
    rcases same with same | ⟨-, hnone⟩
    · have hbefore := same ▸ ha
      obtain ⟨hknown, hno⟩ := h.order a hbefore
      unfold Unknown
      rw [horders, hfills]
      exact ⟨hknown, hstill a (by rw [hbefore]; rfl) hno⟩
    · rw [ha] at hnone
      cases hnone
  · intro a ha
    rcases same with same | ⟨-, hnone⟩
    · have hbefore := same ▸ ha
      obtain ⟨hone, hno⟩ := h.fill a hbefore
      rw [horders, hfills]
      exact ⟨hone, hstill a (by rw [hbefore]; rfl) hno⟩
    · rw [ha] at hnone
      cases hnone

/-- **A step keeps the orders filed**, if its writes go through and it enters under a fresh
id. -/
theorem filing_step (orders : List (OrderRow K)) (fills : List (FillRow K)) (w : World K S)
    (l : DriverLabel K) (hstems : Stems env Q orders fills w) (hpending : NothingPending w)
    (hentry : EntersByEntry w) (hpersists : Persists l) (hfresh : FreshEntry env w l)
    (h : Filing env.execCfg.strategyId w) :
    Filing env.execCfg.strategyId ((driverMachine env).next w l) := by
  have hcount : HandsOn w ((driverMachine env).next w l) :=
    filed_count_step env w l hpending hentry
  have heffect := driver_tableEffect env w l hpersists
  generalize (driverMachine env).next w l = w' at hcount heffect ⊢
  generalize (driverMachine env).emits w l = es at heffect
  cases heffect with
  | aside horders hfills same marks => exact h.of_aside hcount same horders hfills
  | prepares a enters horders hfills after marks =>
    exact h.of_prepares env hcount hfresh enters horders hfills after
  | ordered a before after horders hfills events =>
    exact h.of_ordered env Q hcount hstems before after horders hfills
  | entered a before after horders hfills events =>
    exact h.of_entered env Q hcount hstems hentry before after horders hfills
  | booked pos settleTs pnl fill waits same horders hfills events =>
    exact h.of_booked env Q hcount hstems waits same horders hfills

end Rows

end TradingEdge.Analysis
