import TradingEdge.Analysis.OrderFiling

/-!
# The journal of the driver's fills

While every write goes through and every entry is under an id that the tables do not know, the
fills that the reconciliation query finds are a history: those it found at the boot, and then one
for every entry and every booking of the run, in their order (`Journaled`).  The rows whose write
is committed before its coroutine goes on come after them (`strategyMarks_committed`).
-/

set_option autoImplicit false

namespace TradingEdge.Analysis

open TradingEdge.Model TradingEdge.Program TradingEdge.Library

variable {K S P : Type} [Field K] [LinearOrder K]

/-! ## The query's fills -/

/-- The fills of a strategy, as the reconciliation reads them. -/
def strategyMarks (strategyId : String) (orders : List (OrderRow K)) (fills : List (FillRow K)) :
    List (K × Option K) :=
  (strategyFills strategyId orders fills).map fillMark

section Join

omit [Field K] [LinearOrder K]

/-- The marks of a table continued. -/
theorem strategyMarks_append (strategyId : String) (orders : List (OrderRow K))
    (fills fills' : List (FillRow K)) :
    strategyMarks strategyId orders (fills ++ fills') =
      strategyMarks strategyId orders fills ++ strategyMarks strategyId orders fills' := by
  unfold strategyMarks strategyFills
  rw [List.flatMap_append, List.map_append]

/-- The fills of orders that have one row each. -/
theorem strategyMarks_of_joinCount (strategyId : String) (orders : List (OrderRow K))
    (fills : List (FillRow K)) (h : ∀ f ∈ fills, joinCount strategyId orders f.orderId = 1) :
    strategyMarks strategyId orders fills = fills.map fillMark := by
  induction fills with
  | nil => rfl
  | cons f fills ih =>
    rw [List.forall_mem_cons] at h
    obtain ⟨o, ho⟩ := List.length_eq_one_iff.mp h.1
    rw [← List.singleton_append, strategyMarks_append, ih h.2]
    unfold strategyMarks strategyFills
    rw [List.flatMap_singleton, ho]
    rfl

/-- An order that no fill is of is not in the join. -/
theorem strategyMarks_concat_order (strategyId : String) (orders : List (OrderRow K))
    (o : OrderRow K) (fills : List (FillRow K)) (h : ∀ f ∈ fills, f.orderId ≠ o.orderId) :
    strategyMarks strategyId (orders ++ [o]) fills = strategyMarks strategyId orders fills := by
  unfold strategyMarks strategyFills
  congr 1
  rw [List.flatMap_def, List.flatMap_def]
  congr 1
  apply List.map_congr_left
  intro f hf
  have hne : ¬(o.orderId = f.orderId ∧ o.strategyId = strategyId) :=
    fun heq => h f hf heq.1.symm
  rw [List.filter_append, List.filter_cons_of_neg (by simpa using hne), List.filter_nil,
    List.append_nil]

end Join

/-! ## The journal -/

section Journal

variable [FloorRing K] (env : DriverEnv K S P) (Q : EntryRequest K → Prop)

/-- After a run with these events the fills are those of the boot and the marks of the events. -/
structure Journaled (orders : List (OrderRow K)) (fills : List (FillRow K)) (w : World K S)
    (es : List (DriverEvent K P)) : Prop where
  stems : Stems env Q orders fills w
  pending : NothingPending w
  filing : Filing env.execCfg.strategyId w
  marks : strategyMarks env.execCfg.strategyId w.orders.rows w.fills.rows =
    strategyMarks env.execCfg.strategyId orders fills ++ es.flatMap eventMarks

omit [FloorRing K] in
/-- What stems from entries enters by an entry fill. -/
theorem Stems.entersByEntry {env : DriverEnv K S P} {Q : EntryRequest K → Prop}
    {orders : List (OrderRow K)} {fills : List (FillRow K)} {w : World K S}
    (h : Stems env Q orders fills w) : EntersByEntry w := by
  intro a ha
  obtain ⟨ks, req, -, hok⟩ := h.attempt a ha
  obtain ⟨-, -, -, -, -, -, -, -, -, -, -, hkind⟩ := tryEnter_rows _ _ _ _ _ hok
  rw [FillRow.isSettle, hkind]

/-- What a step writes, the query finds as the marks of its events. -/
theorem strategyMarks_step (orders : List (OrderRow K)) (fills : List (FillRow K))
    (w : World K S) (l : DriverLabel K) (hstems : Stems env Q orders fills w)
    (hpersists : Persists l) (h : Filing env.execCfg.strategyId w) :
    strategyMarks env.execCfg.strategyId ((driverMachine env).next w l).orders.rows
        ((driverMachine env).next w l).fills.rows =
      strategyMarks env.execCfg.strategyId w.orders.rows w.fills.rows ++
        ((driverMachine env).emits w l).flatMap eventMarks := by
  have heffect := driver_tableEffect env w l hpersists
  generalize (driverMachine env).next w l = w' at heffect ⊢
  generalize (driverMachine env).emits w l = es at heffect ⊢
  cases heffect with
  | aside horders hfills same marks => rw [horders, hfills, marks, List.append_nil]
  | prepares a enters horders hfills after marks =>
    rw [horders, hfills, marks, List.append_nil]
  | ordered a before after horders hfills events =>
    obtain ⟨hid, -⟩ := (hstems.attempt a (by rw [before]; rfl)).ids
    obtain ⟨hnew, hno⟩ := h.order a before
    rw [horders, hfills, events, List.flatMap_nil, List.append_nil, rows_insertNew_order,
      strategyMarks_concat_order]
    · intro f hf
      rw [hid]
      exact (hno f hf).1
    · rw [hid]
      exact hnew
  | entered a before after horders hfills events =>
    obtain ⟨-, -, horder, hfillId, hmark⟩ := (hstems.attempt a (by rw [before]; rfl)).ids
    obtain ⟨hone, hno⟩ := h.fill a before
    rw [horders, hfills, events, rows_insertNew_fill, strategyMarks_append,
      strategyMarks_of_joinCount _ _ [a.fill], List.map_singleton, hmark]
    · rfl
    · intro f hf
      rw [List.mem_singleton.mp hf, horder]
      exact hone
    · rw [hfillId]
      exact fun r hr => (hno r hr).2.1
  | booked pos settleTs pnl fill waits same horders hfills events =>
    obtain ⟨-, hfillId, -, hpnl⟩ := (hstems.settles waits).ids
    obtain ⟨⟨hone, hexit⟩, -, -⟩ := h.waits waits
    rw [horders, hfills, events, rows_insertNew_fill, strategyMarks_append,
      strategyMarks_of_joinCount _ _ [fill], List.map_singleton, fillMark, hpnl]
    · rfl
    · intro f hf
      rw [List.mem_singleton.mp hf]
      exact hone
    · rw [hfillId]
      exact hexit

/-- At the boot the tables are journaled. -/
theorem journaled_boot (strategy : S) (paused : Bool) (rows : Option (List String))
    (dailyPnl : K) (dailyTrades : ℤ) (orders : Table (OrderRow.key (K := K)))
    (fills : Table (FillRow.key (K := K))) :
    Journaled env Q orders.rows fills.rows (World.boot
      (DriverState.boot strategy paused rows dailyPnl dailyTrades) orders fills) [] where
  stems := stems_boot env Q strategy paused rows dailyPnl dailyTrades orders fills
  pending := by
    intro a ha
    cases ha
  filing := by
    refine ⟨?_, ?_, ?_, ?_⟩
    · intro id
      simp [attemptIds, filedIds, World.boot, attemptOf, consumerPoint, openIds, watchdogIds,
        DriverState.boot]
    · intro id hid
      simp [filedIds, World.boot, consumerPoint, openIds, watchdogIds, DriverState.boot] at hid
    · intro a ha
      cases ha
    · intro a ha
      cases ha
  marks := (List.append_nil _).symm

/-- **One step keeps the journal.** -/
theorem journaled_step (orders : List (OrderRow K)) (fills : List (FillRow K)) (w : World K S)
    (es : List (DriverEvent K P)) (l : DriverLabel K) (h : Journaled env Q orders fills w es)
    (henters : ∀ a, Enters env w l a → Prepared env Q a) (hpersists : Persists l)
    (hfresh : FreshEntry env w l) :
    Journaled env Q orders fills ((driverMachine env).next w l)
      (es ++ (driverMachine env).emits w l) where
  stems := stems_step env Q orders fills w l h.stems henters
  pending := nothingPending_step env w l h.pending
  filing := filing_step env Q orders fills w l h.stems h.pending h.stems.entersByEntry hpersists
    hfresh h.filing
  marks := by
    rw [strategyMarks_step env Q orders fills w l h.stems hpersists h.filing, h.marks,
      List.flatMap_append, List.append_assoc]

/-! ### Writes that are committed before their coroutine goes on -/

omit [FloorRing K] [Field K] [LinearOrder K] in
/-- A pending fill is an entry's or a settlement's. -/
theorem mem_pendingFills {w : World K S} {f : FillRow K} (h : f ∈ w.pendingFills) :
    (∃ a, w.consumer = .persistingFill a ∧ f = a.fill) ∨ ∃ pos settleTs pnl,
      consumerPoint w.consumer = some (.settleFill pos settleTs pnl f) ∨
        watchdogPoint w.watchdog = some (.settleFill pos settleTs pnl f) := by
  unfold World.pendingFills at h
  rcases List.mem_append.mp h with h | h
  · split at h
    · rename_i a ha
      exact Or.inl ⟨a, ha, List.mem_singleton.mp h⟩
    · rename_i job pos settleTs pnl fill hc
      rw [List.mem_singleton.mp h]
      exact Or.inr ⟨pos, settleTs, pnl, Or.inl (by rw [hc]; rfl)⟩
    · cases h
  · split at h
    · rename_i job pos settleTs pnl fill rest hw
      rw [List.mem_singleton.mp h]
      exact Or.inr ⟨pos, settleTs, pnl, Or.inr (by rw [hw]; rfl)⟩
    · cases h

omit [FloorRing K] in
/-- A row whose write is under way is of an order with one row, and not there yet. -/
theorem pendingFills_new {orders : List (OrderRow K)} {fills : List (FillRow K)} {w : World K S}
    (hstems : Stems env Q orders fills w) (h : Filing env.execCfg.strategyId w) {f : FillRow K}
    (hf : f ∈ w.pendingFills) :
    joinCount env.execCfg.strategyId w.orders.rows f.orderId = 1 ∧
      ∀ r ∈ w.fills.rows, r.fillId ≠ f.fillId := by
  rcases mem_pendingFills hf with ⟨a, ha, rfl⟩ | ⟨pos, settleTs, pnl, waits⟩
  · obtain ⟨-, -, horder, hfillId, -⟩ := (hstems.attempt a (by rw [ha]; rfl)).ids
    obtain ⟨hone, hno⟩ := h.fill a ha
    rw [horder, hfillId]
    exact ⟨hone, fun r hr => (hno r hr).2.1⟩
  · obtain ⟨-, hfillId, -, -⟩ := (hstems.settles waits).ids
    obtain ⟨⟨hone, hexit⟩, -, -⟩ := h.waits waits
    rw [hfillId]
    exact ⟨hone, hexit⟩

omit [FloorRing K] in
/-- Two such rows have different ids. -/
theorem pendingFills_nodup {orders : List (OrderRow K)} {fills : List (FillRow K)}
    {w : World K S} (hstems : Stems env Q orders fills w)
    (h : Filing env.execCfg.strategyId w) : (w.pendingFills.map (·.fillId)).Nodup := by
  unfold World.pendingFills
  split
  · rename_i a ha
    split
    · rename_i job pos settleTs pnl fill rest hw
      obtain ⟨-, -, -, hentry, -⟩ := (hstems.attempt a (by rw [ha]; rfl)).ids
      obtain ⟨-, hexit, -, -⟩ := (hstems.settles (Or.inr (by rw [hw]; rfl))).ids
      have hne : a.fill.fillId ≠ fill.fillId := by
        rw [hentry, hexit]
        exact (exit_ne_fill _ _).symm
      simpa using hne
    · exact List.nodup_singleton _
  · rename_i job pos settleTs pnl fill hc
    split
    · rename_i job' pos' settleTs' pnl' fill' rest hw
      obtain ⟨-, hexit, -, -⟩ := (hstems.settles (Or.inl (by rw [hc]; rfl))).ids
      obtain ⟨-, hexit', -, -⟩ := (hstems.settles (Or.inr (by rw [hw]; rfl))).ids
      have hne : fill.fillId ≠ fill'.fillId := by
        intro heq
        rw [hexit, hexit'] at heq
        have horder := exit_inj heq
        -- the two settlements would have the order in two hands
        have honce := h.once fill.orderId
        unfold filedIds at honce
        rw [List.count_append, List.count_append, hc, hw] at honce
        simp [consumerPoint, watchdogIds, pointIds, ← horder] at honce
        omega
      simpa using hne
    · exact List.nodup_singleton _
  · rw [List.nil_append]
    split
    · exact List.nodup_singleton _
    · exact List.nodup_nil

omit [FloorRing K] in
/-- Some of the rows under way are committed: the query finds them after the others. -/
theorem strategyMarks_committed {orders : List (OrderRow K)} {fills : List (FillRow K)}
    {w : World K S} (hstems : Stems env Q orders fills w)
    (h : Filing env.execCfg.strategyId w) (early : List (FillRow K))
    (hearly : early.Sublist w.pendingFills) :
    strategyMarks env.execCfg.strategyId w.orders.rows (w.committed early).rows =
      strategyMarks env.execCfg.strategyId w.orders.rows w.fills.rows ++
        early.map fillMark := by
  have hrows : (w.committed early).rows = w.fills.rows ++ early := by
    apply Table.rows_foldl_insertNew
    · have hids := (hearly.map (·.fillId)).nodup (pendingFills_nodup env Q hstems h)
      have hkeys : early.map (·.fillId) = (early.map FillRow.key).map Prod.fst := by
        rw [List.map_map]
        rfl
      rw [hkeys] at hids
      exact hids.of_map _
    · intro f hf r hr heq
      exact (pendingFills_new env Q hstems h (hearly.subset hf)).2 r hr (congrArg Prod.fst heq)
  rw [hrows, strategyMarks_append, strategyMarks_of_joinCount _ _ early]
  intro f hf
  exact (pendingFills_new env Q hstems h (hearly.subset hf)).1

end Journal

end TradingEdge.Analysis
