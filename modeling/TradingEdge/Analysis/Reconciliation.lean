import TradingEdge.Analysis.FillJournal

/-!
# What the reconciliation compares

The reconciliation query counts the fills of the last 24 hours; the daily pnl counts what was
booked since the last day roll, and before the first roll what the boot query found.  So the two
differ by what the window has and the total lacks, less what the total has and the window has
lost (`counted_add_uncounted`).  In the same way the fills and the open positions differ by
what was open at the boot, what was given up and what is being settled (`netOpen_run`).
-/

set_option autoImplicit false

namespace TradingEdge.Analysis

open TradingEdge.Model TradingEdge.Program TradingEdge.Library

open scoped List

variable {K S P : Type} [Field K] [LinearOrder K]

/-! ## Sums over marks -/

/-- The fill is one of the last 24 hours. -/
def Recent (now : K) (m : K × Option K) : Prop := now - 86400 ≤ m.1

instance (now : K) (m : K × Option K) : Decidable (Recent now m) :=
  inferInstanceAs (Decidable (_ ≤ _))

/-- The pnl of the settle fills. -/
def marksPnl (ms : List (K × Option K)) : K := (ms.map fun m => m.2.getD 0).sum

/-- Entries less exits. -/
def netOpen (ms : List (K × Option K)) : ℤ :=
  (ms.map fun m => if m.2.isSome then (-1 : ℤ) else 1).sum

omit [LinearOrder K] in
/-- The pnl of a list continued. -/
@[simp] theorem marksPnl_append (ms ms' : List (K × Option K)) :
    marksPnl (ms ++ ms') = marksPnl ms + marksPnl ms' := by
  simp [marksPnl]

omit [Field K] [LinearOrder K] in
/-- The entries less the exits of a list continued. -/
@[simp] theorem netOpen_append (ms ms' : List (K × Option K)) :
    netOpen (ms ++ ms') = netOpen ms + netOpen ms' := by
  simp [netOpen]

/-- A sum over marks splits at the border of the window. -/
theorem marksPnl_split (now : K) (ms : List (K × Option K)) :
    marksPnl ms = marksPnl (ms.filter (Recent now)) + marksPnl (ms.filter (¬Recent now ·)) :=
  (List.sum_map_filter_add_sum_map_filter_not _ _ ms).symm

/-- The marks of the last 24 hours and the older ones. -/
theorem netOpen_split (now : K) (ms : List (K × Option K)) :
    netOpen ms = netOpen (ms.filter (Recent now)) + netOpen (ms.filter (¬Recent now ·)) :=
  (List.sum_map_filter_add_sum_map_filter_not _ _ ms).symm

/-- The query returns sums over the marks in the window.
SOURCE: paper/driver.py:98-118, 743-767 -/
theorem readLedger_marks (strategyId : String) (now : K) (orders : List (OrderRow K))
    (fills : List (FillRow K)) :
    (readLedger strategyId now orders fills).settledPnl =
        marksPnl ((strategyMarks strategyId orders fills).filter (Recent now)) ∧
      ((readLedger strategyId now orders fills).entries : ℤ) -
          (readLedger strategyId now orders fills).exits =
        netOpen ((strategyMarks strategyId orders fills).filter (Recent now)) := by
  have hfilter : (strategyMarks strategyId orders fills).filter (Recent now) =
      ((strategyFills strategyId orders fills).filter fun f => now - 86400 ≤ f.ts).map
        fillMark := by
    unfold strategyMarks
    rw [List.filter_map]
    rfl
  unfold readLedger
  dsimp only
  rw [hfilter]
  generalize (strategyFills strategyId orders fills).filter _ = rows
  constructor
  · unfold marksPnl
    rw [List.map_map]
    rfl
  · induction rows with
    | nil => rfl
    | cons f rows ih =>
      have hmark : (if f.settlePnl.isSome then (-1 : ℤ) else 1) =
          (if f.isEntry then 1 else 0) - if f.isSettle then 1 else 0 := by
        unfold FillRow.settlePnl FillRow.isEntry FillRow.isSettle
        cases f.metadata <;> rfl
      unfold netOpen at ih ⊢
      rw [List.countP_cons, List.countP_cons, List.map_cons, List.map_cons, List.sum_cons, ← ih]
      change _ = (if f.settlePnl.isSome then (-1 : ℤ) else 1) + _
      rw [hmark]
      push_cast
      omega

/-! ## What a run books, gives up and has in hand -/

/-- The settlements that have taken their position out and not yet booked it. -/
def settlementsUnderWay (w : World K S) : ℕ :=
  ((consumerPoint w.consumer).toList.flatMap pointIds ++ watchdogIds w.watchdog).length

/-- The event gives a position up. -/
def givesUp : DriverEvent K P → Bool
  | .dropped _ => true
  | _ => false

/-- How an event changes the number of settlements under way. -/
def underWayDelta : DriverEvent K P → ℤ
  | .settled _ => 1
  | .booked _ _ _ _ => -1
  | _ => 0

section Run

variable [FloorRing K] (env : DriverEnv K S P)

omit [Field K] [LinearOrder K] [FloorRing K] in
/-- The settlements under way are the consumer's and the watchdog's. -/
theorem settlementsUnderWay_eq (w : World K S) : settlementsUnderWay w =
    ((consumerPoint w.consumer).toList.flatMap pointIds).length +
      (watchdogIds w.watchdog).length := by
  rw [settlementsUnderWay, List.length_append]

omit [Field K] [LinearOrder K] [FloorRing K] in
/-- After an answer the consumer holds what the settlement waits for. -/
theorem consumerPoint_waiting (job : SettleJob K) (status : SettleStatus K) :
    (consumerPoint (consumerAfter job status)).toList.flatMap pointIds = statusIds status := by
  cases status with
  | waiting point => exact List.flatMap_singleton pointIds point
  | _ => rfl

/-- A stretch of a settlement is under way afterwards as its events say. -/
theorem settleStep_underWay (st : DriverState K S) (clock : K) (job : SettleJob K)
    (point : SettlePoint K) (reply : DbReply K) :
    ((statusIds (settleStep env st clock job point reply).2.1).length : ℤ) =
      (pointIds point).length +
        ((settleStep env st clock job point reply).2.2.map underWayDelta).sum := by
  have heffect := settleStep_effect env st clock job reply point
  cases point with
  | settleFill pos settleTs pnl fill => rfl
  | _ =>
    generalize settleStep env st clock job _ reply = r at heffect
    cases heffect with
    | quiet _ st' status same plain =>
      cases status with
      | waiting next =>
        have hnext := plain next rfl
        cases next with
        | settleFill pos settleTs pnl fill => exact absurd hnext not_false
        | _ => rfl
      | _ => rfl
    | dropped _ st' same =>
      cases st.openPositions.get? job.slug <;> rfl
    | settled => rfl

/-- A tick neither begins nor ends a settlement. -/
theorem handleTick_underWay (st : DriverState K S) (clock : K) (d : TickDict K) (ks : Bool) :
    ((handleTick env st clock d ks).2.2.map underWayDelta).sum = 0 := by
  apply List.sum_eq_zero
  intro x hx
  obtain ⟨e, he, rfl⟩ := List.mem_map.mp hx
  rcases mem_handleTick_events env st clock d ks e he with rfl | ⟨-, rfl⟩ | ⟨-, rfl⟩ |
    ⟨_, rfl⟩ | ⟨_, _, _, -, rfl⟩ <;> rfl

/-- **One step has settlements under way as its events say.** -/
theorem underWay_step (w : World K S) (l : DriverLabel K) :
    (settlementsUnderWay ((driverMachine env).next w l) : ℤ) =
      settlementsUnderWay w + (((driverMachine env).emits w l).map underWayDelta).sum := by
  change (settlementsUnderWay (driverStep env w l).1 : ℤ) =
    settlementsUnderWay w + ((driverStep env w l).2.map underWayDelta).sum
  unfold driverStep
  rw [settlementsUnderWay_eq, settlementsUnderWay_eq]
  cases l.action with
  | tick d ks =>
    dsimp only
    cases idle : w.consumer with
    | idle =>
      dsimp only
      rw [handleTick_underWay, add_zero]
      rcases handleTick_consumer env w.driver l.clock d ks with hc | ⟨pos, -, -, hc⟩ |
        ⟨risk, dec, strategy, a, -, -, hc⟩
      · rw [hc]
      · rw [hc]
        rfl
      · rw [hc]
        rfl
    | _ => simp [idle]
  | control msg =>
    dsimp only
    cases hc : w.consumer <;> simp [hc]
  | consumerResumes reply =>
    dsimp only
    cases hc : w.consumer with
    | settling job point =>
      have hstep := settleStep_underWay env w.driver l.clock job point reply
      have hpoint : ((consumerPoint (Consumer.settling job point)).toList.flatMap
          pointIds).length = (pointIds point).length := by
        rw [consumerPoint, Option.toList_some, List.flatMap_singleton]
      rw [consumerStep_settling env w l.clock reply hc]
      dsimp only
      rw [consumerPoint_waiting, hpoint]
      push_cast
      omega
    | idle => simp [consumerStep, hc]
    | notifyingOpen =>
      rw [consumerStep, hc]
      rfl
    | persistingOrder a =>
      rw [consumerStep, hc]
      dsimp only
      cases reply.write <;> rfl
    | persistingFill a =>
      rw [consumerStep, hc]
      dsimp only
      cases reply.write <;> rfl
  | watchdogWakes =>
    dsimp only
    unfold watchdogWake
    split
    · rename_i sleeping
      dsimp only
      rw [watchdogIds_next, sleeping]
      rfl
    · simp
  | watchdogResumes reply =>
    dsimp only
    cases hw : w.watchdog with
    | sleeping => simp [watchdogStep, hw]
    | settling job point rest =>
      have hstep := settleStep_underWay env w.driver l.clock job point reply
      rw [watchdogStep_settling env w l.clock reply hw]
      dsimp only
      rw [watchdogIds_after, watchdogIds]
      push_cast
      omega
  | orphanSweep => simp

/-- Over a run the settlements under way change by what the events say. -/
theorem underWay_run (w : World K S) (hw : settlementsUnderWay w = 0)
    (ls : List (DriverLabel K)) :
    (settlementsUnderWay ((driverMachine env).final w ls) : ℤ) =
      (((driverMachine env).trace w ls).map underWayDelta).sum := by
  induction ls using List.reverseRecOn with
  | nil => simpa using hw
  | append_singleton ls l ih =>
    rw [Machine.final_concat, Machine.trace_concat, underWay_step, ih, List.map_append,
      List.sum_append]

omit [LinearOrder K] [FloorRing K] in
/-- Entries less exits, in terms of the positions that come and go. -/
theorem netOpen_eventMarks (es : List (DriverEvent K P)) :
    netOpen (es.flatMap eventMarks) =
      (es.flatMap returnedOf).length - (es.flatMap closedOf).length +
        (es.map underWayDelta).sum + es.countP givesUp := by
  induction es with
  | nil => rfl
  | cons e es ih =>
    have hevent : netOpen (eventMarks e) = (returnedOf e).length - (closedOf e).length +
        underWayDelta e + if givesUp e then 1 else 0 := by
      cases e <;> rfl
    rw [List.flatMap_cons, netOpen_append, ih, hevent, List.flatMap_cons, List.flatMap_cons,
      List.length_append, List.length_append, List.map_cons, List.sum_cons, List.countP_cons]
    push_cast
    omega

/-- **What a run entered and did not book is open, under way or given up.** -/
theorem netOpen_run (w : World K S) (hidle : w.consumer = .idle)
    (hempty : w.driver.openPositions = Dict.empty) (hw : settlementsUnderWay w = 0)
    (ls : List (DriverLabel K)) :
    netOpen (((driverMachine env).trace w ls).flatMap eventMarks) =
      ((driverMachine env).final w ls).driver.openPositions.values.length +
        settlementsUnderWay ((driverMachine env).final w ls) +
          ((driverMachine env).trace w ls).countP givesUp := by
  have hcustody := (open_perm_returned env w hidle hempty ls).length_eq
  have hunder := underWay_run env w hw ls
  rw [List.length_append] at hcustody
  rw [netOpen_eventMarks, hcustody, hunder]
  push_cast
  omega

/-- The daily pnl of a run is what it booked since the last day roll, and what it started with
if there was none. -/
theorem dailyPnl_run_from (w : World K S) (ls : List (DriverLabel K)) :
    ((driverMachine env).final w ls).driver.dailyPnl =
      (if ((driverMachine env).trace w ls).any isDayRoll then 0 else w.driver.dailyPnl) +
        ((sinceLast isDayRoll ((driverMachine env).trace w ls)).map bookedOf).sum := by
  rw [(driverMachine env).foldl_trace (fun w => w.driver.dailyPnl) accrue (dailyPnl_step env)]
  exact foldl_reset_from isDayRoll bookedOf _ _

omit [LinearOrder K] [FloorRing K] in
/-- The pnl of the marks is what the events book. -/
theorem marksPnl_eventMarks (es : List (DriverEvent K P)) :
    marksPnl (es.flatMap eventMarks) = (es.map bookedOf).sum := by
  induction es with
  | nil => rfl
  | cons e es ih =>
    have hevent : marksPnl (eventMarks e) = bookedOf e := by
      cases e <;> simp [marksPnl, eventMarks, bookedOf]
    rw [List.flatMap_cons, marksPnl_append, ih, hevent, List.map_cons, List.sum_cons]

end Run

/-! ## The comparison -/

/-- The fills that the daily pnl counts: those of the run since the last day roll, and before
the first one those of the boot query. -/
def countedMarks (bootTs : K) (history : List (K × Option K)) (es : List (DriverEvent K P)) :
    List (K × Option K) :=
  (if es.any isDayRoll then [] else history.filter (Recent bootTs)) ++
    (sinceLast isDayRoll es).flatMap eventMarks

/-- The fills that it does not count: those of the days before, and those whose write has been
committed while the settlement has not gone on. -/
def uncountedMarks (bootTs : K) (history : List (K × Option K)) (es : List (DriverEvent K P))
    (early : List (FillRow K)) : List (K × Option K) :=
  (if es.any isDayRoll then history else history.filter (¬Recent bootTs ·)) ++
    (upToLast isDayRoll es).flatMap eventMarks ++ early.map fillMark

/-- The two sides of the comparison agree up to the tolerances of the loop.
SOURCE: paper/driver.py:768-777 -/
def Reconciles (db : DbLedger K) (st : DriverState K S) : Prop :=
  |db.settledPnl - st.dailyPnl| ≤ 1 ∧
    |((db.entries : ℤ) - db.exits) - st.openPositions.values.length| ≤ 1

/-- What the window has and the daily pnl lacks makes up for what the daily pnl has and the
window has lost; and what was open at the boot, given up, or is being settled makes up for the
entries of the run that the window has lost. -/
structure Balanced (bootTs now : K) (history : List (K × Option K))
    (es : List (DriverEvent K P)) (early : List (FillRow K)) (underWay : ℕ) : Prop where
  pnl : |marksPnl ((uncountedMarks bootTs history es early).filter (Recent now)) -
    marksPnl ((countedMarks bootTs history es).filter (¬Recent now ·))| ≤ 1
  openPositions : |netOpen (history.filter (Recent now)) +
    netOpen ((early.map fillMark).filter (Recent now)) + es.countP givesUp + underWay -
      netOpen ((es.flatMap eventMarks).filter (¬Recent now ·))| ≤ 1

instance (db : DbLedger K) (st : DriverState K S) : Decidable (Reconciles db st) :=
  inferInstanceAs (Decidable (_ ∧ _))

instance (bootTs now : K) (history : List (K × Option K)) (es : List (DriverEvent K P))
    (early : List (FillRow K)) (underWay : ℕ) :
    Decidable (Balanced bootTs now history es early underWay) :=
  decidable_of_iff (_ ∧ _) ⟨fun h => ⟨h.1, h.2⟩, fun h => ⟨h.pnl, h.openPositions⟩⟩

/-- The loop alerts exactly when it compares and the two sides do not agree.
SOURCE: paper/driver.py:765-781 -/
theorem reconcile_eq_fail_iff (db : DbLedger K) (st : DriverState K S) :
    reconcile db st = .fail ↔ ¬(db.entries = 0 ∧ st.dailyTrades = 0) ∧ ¬Reconciles db st := by
  have hfails : ¬Reconciles db st ↔ 1 < |db.settledPnl - st.dailyPnl| ∨
      1 < |((db.entries : ℤ) - db.exits) - st.openPositions.values.length| := by
    unfold Reconciles
    rw [not_and_or, not_le, not_le]
  rw [hfails]
  unfold reconcile
  by_cases hskip : db.entries = 0 ∧ st.dailyTrades = 0
  · simp [hskip]
  · rw [if_neg hskip]
    dsimp only
    split
    · rename_i hfail
      exact ⟨fun _ => ⟨hskip, hfail⟩, fun _ => rfl⟩
    · rename_i hok
      exact ⟨fun h => (nomatch h), fun h => absurd h.2 hok⟩

section Compare

variable [FloorRing K] (env : DriverEnv K S P)

omit [FloorRing K] in
/-- The fills are those that the daily pnl counts and those that it does not. -/
theorem counted_add_uncounted (bootTs now : K) (history : List (K × Option K))
    (es : List (DriverEvent K P)) (early : List (FillRow K)) :
    marksPnl ((countedMarks bootTs history es).filter (Recent now)) +
        marksPnl ((uncountedMarks bootTs history es early).filter (Recent now)) =
      marksPnl ((history ++ es.flatMap eventMarks ++ early.map fillMark).filter
        (Recent now)) := by
  have hhistory : marksPnl ((if es.any isDayRoll then [] else
        history.filter (Recent bootTs)).filter (Recent now)) +
      marksPnl ((if es.any isDayRoll then history else
        history.filter (¬Recent bootTs ·)).filter (Recent now)) =
      marksPnl (history.filter (Recent now)) := by
    by_cases hroll : es.any isDayRoll = true
    · rw [if_pos hroll, if_pos hroll]
      exact zero_add _
    · rw [if_neg hroll, if_neg hroll, List.filter_comm, List.filter_comm (Recent now ·),
        ← marksPnl_split]
  have hrun : marksPnl (((upToLast isDayRoll es).flatMap eventMarks).filter (Recent now)) +
      marksPnl (((sinceLast isDayRoll es).flatMap eventMarks).filter (Recent now)) =
      marksPnl ((es.flatMap eventMarks).filter (Recent now)) := by
    rw [← marksPnl_append, ← List.filter_append, ← List.flatMap_append,
      upToLast_append_sinceLast]
  unfold countedMarks uncountedMarks
  simp only [List.filter_append, marksPnl_append]
  rw [← hhistory, ← hrun]
  abel

variable (strategy : S) (paused : Bool) (rows : Option (List String)) (bootTs : K)
  (orders : Table (OrderRow.key (K := K))) (fills : Table (FillRow.key (K := K)))

/-- A run from a boot keeps the journal. -/
theorem journaled_run (ls : List (DriverLabel K)) (hpersists : ∀ l ∈ ls, Persists l)
    (hfresh : (driverMachine env).Along (FreshEntry env)
      (World.bootFromDb env strategy paused rows bootTs orders fills) ls) :
    Journaled env (fun _ => True) orders.rows fills.rows
      ((driverMachine env).final (World.bootFromDb env strategy paused rows bootTs orders fills) ls)
      ((driverMachine env).trace (World.bootFromDb env strategy paused rows bootTs orders fills)
        ls) := by
  induction ls using List.reverseRecOn with
  | nil => exact journaled_boot env _ strategy paused rows _ _ orders fills
  | append_singleton ls l ih =>
    obtain ⟨hls, hl⟩ := (Obeys.concat_iff ls l).mp hfresh
    have hbefore := ih (fun l' hl' => hpersists l' (List.mem_append_left _ hl')) hls
    rw [Machine.final_concat, Machine.trace_concat]
    apply journaled_step env _ _ _ _ _ l hbefore ?_ (hpersists l (by simp)) hl
    rintro a ⟨-, d, ks, risk, dec, strategy, -, -, hok⟩
    exact ⟨ks, _, trivial, hok⟩

/-- **The comparison of the reconciliation loop.** In every run from a boot on any history in
which the writes go through and the entries are under fresh ids, at every moment, the two sides
agree up to the loop's tolerances exactly when what they count differently balances.
SOURCE: paper/driver.py:91-126, 442-462, 511-532, 708-714, 730-781 -/
theorem reconciles_iff (ls : List (DriverLabel K)) (hpersists : ∀ l ∈ ls, Persists l)
    (hfresh : (driverMachine env).Along (FreshEntry env)
      (World.bootFromDb env strategy paused rows bootTs orders fills) ls)
    (early : List (FillRow K))
    (hearly : early.Sublist ((driverMachine env).final
      (World.bootFromDb env strategy paused rows bootTs orders fills) ls).pendingFills)
    (now : K) :
    Reconciles
        (readLedger env.execCfg.strategyId now
          ((driverMachine env).final
            (World.bootFromDb env strategy paused rows bootTs orders fills) ls).orders.rows
          (((driverMachine env).final
            (World.bootFromDb env strategy paused rows bootTs orders fills) ls).committed
              early).rows)
        ((driverMachine env).final
          (World.bootFromDb env strategy paused rows bootTs orders fills) ls).driver ↔
      Balanced bootTs now (strategyMarks env.execCfg.strategyId orders.rows fills.rows)
        ((driverMachine env).trace
          (World.bootFromDb env strategy paused rows bootTs orders fills) ls) early
        (settlementsUnderWay ((driverMachine env).final
          (World.bootFromDb env strategy paused rows bootTs orders fills) ls)) := by
  have hjournal := journaled_run env strategy paused rows bootTs orders fills ls hpersists hfresh
  have hdaily := dailyPnl_run_from env
    (World.bootFromDb env strategy paused rows bootTs orders fills) ls
  have hopen := netOpen_run env (World.bootFromDb env strategy paused rows bootTs orders fills)
    rfl rfl rfl ls
  have hboot : (World.bootFromDb env strategy paused rows bootTs orders fills).driver.dailyPnl =
      marksPnl ((strategyMarks env.execCfg.strategyId orders.rows fills.rows).filter
        (Recent bootTs)) := (readLedger_marks _ _ _ _).1
  rw [hboot] at hdaily
  generalize (driverMachine env).final
    (World.bootFromDb env strategy paused rows bootTs orders fills) ls = w at *
  generalize (driverMachine env).trace
    (World.bootFromDb env strategy paused rows bootTs orders fills) ls = es at *
  obtain ⟨hpnl, hnet⟩ := readLedger_marks env.execCfg.strategyId now w.orders.rows
    (w.committed early).rows
  rw [strategyMarks_committed env _ hjournal.stems hjournal.filing early hearly,
    hjournal.marks] at hpnl hnet
  generalize strategyMarks env.execCfg.strategyId orders.rows fills.rows = history at *
  have hgap : (readLedger env.execCfg.strategyId now w.orders.rows
        (w.committed early).rows).settledPnl - w.driver.dailyPnl =
      marksPnl ((uncountedMarks bootTs history es early).filter (Recent now)) -
        marksPnl ((countedMarks bootTs history es).filter (¬Recent now ·)) := by
    have hcounted : w.driver.dailyPnl = marksPnl (countedMarks bootTs history es) := by
      rw [hdaily, countedMarks, marksPnl_append, marksPnl_eventMarks]
      split <;> rfl
    rw [hpnl, hcounted, ← counted_add_uncounted bootTs now history es early,
      marksPnl_split now (countedMarks bootTs history es)]
    abel
  have hopenGap : ((readLedger env.execCfg.strategyId now w.orders.rows
          (w.committed early).rows).entries : ℤ) -
        (readLedger env.execCfg.strategyId now w.orders.rows (w.committed early).rows).exits -
          w.driver.openPositions.values.length =
      netOpen (history.filter (Recent now)) +
        netOpen ((early.map fillMark).filter (Recent now)) + es.countP givesUp +
          settlementsUnderWay w - netOpen ((es.flatMap eventMarks).filter (¬Recent now ·)) := by
    have hsplit := netOpen_split now (es.flatMap eventMarks)
    rw [hnet, List.filter_append, List.filter_append, netOpen_append, netOpen_append]
    omega
  unfold Reconciles
  rw [hgap, hopenGap]
  exact ⟨fun h => ⟨h.1, h.2⟩, fun h => ⟨h.pnl, h.openPositions⟩⟩

end Compare

section Instance

/-- A position bought and settled, with the exit fill written and booked. -/
def bookedRun : List (DriverLabel ℚ) :=
  settledRun ++ [⟨1520, .watchdogResumes ⟨none, .committed⟩⟩]

/-- An order of the eager driver from before a boot. -/
def settledBefore : Table (OrderRow.key (K := ℚ)) :=
  Table.empty.insertNew ⟨"old", "eager", "btc-updown-5m-600-YES.POLYMARKET", 10, 1 / 2, 700, 701⟩

/-- The entry of that order, and its settlement at a profit of 5 USD. -/
def fillsBefore : Table (FillRow.key (K := ℚ)) :=
  (Table.empty.insertNew ⟨"old-fill", "old", 701, 1 / 2, 10, 0, .entry⟩).insertNew
    ⟨"old-exit", "old", 900, 1, 10, 0, .settle .win 5⟩

/-- The run reconciles. -/
theorem reconciles_bookedRun :
    Reconciles
      (readLedger "eager" 1600
        ((driverMachine (eagerDriver 0)).final (World.bootFromDb (eagerDriver 0) () false (some [])
          1100 Table.empty Table.empty) bookedRun).orders.rows
        (((driverMachine (eagerDriver 0)).final (World.bootFromDb (eagerDriver 0) () false (some [])
          1100 Table.empty Table.empty) bookedRun).committed []).rows)
      ((driverMachine (eagerDriver 0)).final (World.bootFromDb (eagerDriver 0) () false (some [])
        1100 Table.empty Table.empty) bookedRun).driver := by
  apply (reconciles_iff (eagerDriver 0) () false (some []) 1100 Table.empty Table.empty bookedRun
    (by decide +kernel) ?_ [] (List.nil_sublist _) 1600).mpr
  · decide +kernel
  · simp only [Machine.Along, bookedRun, settledRun, entryLabels, watchdogLabels,
      List.cons_append, List.nil_append, Obeys.cons_iff]
    refine ⟨?_, ?_, ?_, ?_, ?_, ?_, ?_, ?_, Obeys.nil⟩ <;> decide +kernel

/-- A restart a few minutes after a profit of 5 USD: the first tick rolls the day, the daily pnl
that the boot took from the database is gone, and the loop alerts.
SOURCE: paper/driver.py:91-126, 329-331, 708-714 -/
theorem alerts_after_restart :
    ¬∀ (env : DriverEnv ℚ Unit Unit) (bootTs : ℚ) (orders : Table (OrderRow.key (K := ℚ)))
      (fills : Table (FillRow.key (K := ℚ))) (ls : List (DriverLabel ℚ)),
      (∀ l ∈ ls, Persists l) →
        (driverMachine env).Along (FreshEntry env)
          (World.bootFromDb env () false (some []) bootTs orders fills) ls →
        ∀ now : ℚ, bootTs ≤ now →
          reconcile (readLedger env.execCfg.strategyId now
              ((driverMachine env).final
                (World.bootFromDb env () false (some []) bootTs orders fills) ls).orders.rows
              ((driverMachine env).final
                (World.bootFromDb env () false (some []) bootTs orders fills) ls).fills.rows)
            ((driverMachine env).final
              (World.bootFromDb env () false (some []) bootTs orders fills) ls).driver ≠ .fail := by
  intro h
  have hok := h (eagerDriver 150) 1000 settledBefore fillsBefore
    [⟨1210, .tick (quotedDict "btc-updown-5m-1200" 1210 10 1500) false⟩] (by decide +kernel)
  refine hok ?_ 1250 (by norm_num) (by decide +kernel)
  simp only [Machine.Along, Obeys.cons_iff]
  exact ⟨by decide +kernel, Obeys.nil⟩

end Instance

end TradingEdge.Analysis
