import TradingEdge.Analysis.EntryUniqueness
import TradingEdge.Analysis.Provenance
import TradingEdge.Program.BackfillRuns

/-!
# One settle fill an order

The driver and the backfill script settle the same orders.  Both name the exit fill after the
order, but the key of `trading.fills` has the timestamp in it as well, and the two take it from
different places; so the key does not keep a second settlement of an order out.

What does is that an order is in one hand at a time: the driver has it, from the entry to the
write of the exit fill, or a run of the script that has read and not yet written, or it is
settled (`OneHand`).  A stretch of the driver hands its orders on or lets go of them
(`driver_hands_on`).  An order can come into a second hand in two ways only: a run of the script
takes up an order that the driver or another run has, or the driver enters under an id that is
in use; `InTurn` excludes both.
-/

set_option autoImplicit false

namespace TradingEdge.Analysis

open TradingEdge.Model TradingEdge.Program TradingEdge.Library

variable {K S P : Type} [Field K] [LinearOrder K]

/-- The number of settle fills an order has. -/
def settleCount (rows : List (FillRow K)) (orderId : String) : ℕ :=
  rows.countP fun r => r.orderId = orderId ∧ r.isSettle

/-! ## Who has an order -/

/-- A settlement between the pop of its position and the write of the exit fill has the order. -/
def pointIds : SettlePoint K → List String
  | .settleFill _ _ _ fill => [fill.orderId]
  | _ => []

/-- So does a stretch that ends there. -/
def statusIds : SettleStatus K → List String
  | .waiting point => pointIds point
  | _ => []

def consumerIds : Consumer K → List String
  | .settling _ point => pointIds point
  | .persistingOrder attempt | .persistingFill attempt => [attempt.position.clientOrderId]
  | _ => []

def watchdogIds : Watchdog K → List String
  | .settling _ point _ => pointIds point
  | .sleeping => []

/-- The orders of the open positions. -/
def openIds (st : DriverState K S) : List String :=
  st.openPositions.values.map (·.clientOrderId)

/-- The orders the driver has: being entered, open, or being settled. -/
def heldIds (w : World K S) : List String :=
  consumerIds w.consumer ++ openIds w.driver ++ watchdogIds w.watchdog

/-- The orders that the runs of the script in flight are going to settle. -/
def inFlightIds (sys : SettleSystem K S) : List String :=
  sys.runs.flatten.map (·.orderId)

/-- The order is in one hand, or settled once. -/
def OneHand (orderId : String) (sys : SettleSystem K S) : Prop :=
  (heldIds sys.world).count orderId + (inFlightIds sys).count orderId +
    settleCount sys.world.fills.rows orderId ≤ 1

section Writes

omit [LinearOrder K] [Field K] in
/-- The settlements in a table continued. -/
theorem settleCount_append (rows rows' : List (FillRow K)) (orderId : String) :
    settleCount (rows ++ rows') orderId =
      settleCount rows orderId + settleCount rows' orderId := by
  unfold settleCount
  exact List.countP_append

omit [Field K] in
/-- A write adds at most a settle fill of its row's order. -/
theorem settleCount_writeRow_le (outcome : WriteOutcome) (row : FillRow K)
    (t : Table (FillRow.key (K := K))) (orderId : String) :
    settleCount (writeRow outcome row t).rows orderId ≤
      settleCount t.rows orderId + [row.orderId].count orderId := by
  have hrow : settleCount [row] orderId ≤ [row.orderId].count orderId := by
    unfold settleCount
    by_cases h : row.orderId = orderId <;> simp [h, List.countP_cons]
    split <;> omega
  unfold writeRow
  split
  · omega
  · rw [Table.rows_insertNew]
    split
    · omega
    · rw [settleCount_append]
      omega

omit [Field K] in
/-- The write of any other fill adds none. -/
theorem settleCount_writeRow_entry (outcome : WriteOutcome) (row : FillRow K)
    (t : Table (FillRow.key (K := K))) (orderId : String) (h : row.isSettle = false) :
    settleCount (writeRow outcome row t).rows orderId = settleCount t.rows orderId := by
  have hrow : settleCount [row] orderId = 0 := by
    unfold settleCount
    simp [h]
  unfold writeRow
  split
  · rfl
  · rw [Table.rows_insertNew]
    split
    · rfl
    · rw [settleCount_append, hrow, Nat.add_zero]

omit [Field K] in
/-- A settlement writes a settle fill of the order it has, or nothing. -/
theorem settleCount_pointWrite (point : SettlePoint K) (outcome : WriteOutcome)
    (t : Table (FillRow.key (K := K))) (orderId : String) :
    settleCount (point.write outcome t).rows orderId ≤
      settleCount t.rows orderId + (pointIds point).count orderId := by
  cases point with
  | settleFill pos settleTs pnl fill => exact settleCount_writeRow_le outcome fill t orderId
  | _ => exact Nat.le_add_right _ _

omit [Field K] in
/-- The statement of a run adds at most the settle fills of its rows. -/
theorem settleCount_foldl_le (outcome : WriteOutcome) (rows : List (FillRow K))
    (t : Table (FillRow.key (K := K))) (orderId : String) :
    settleCount (rows.foldl (fun t r => writeRow outcome r t) t).rows orderId ≤
      settleCount t.rows orderId + (rows.map (·.orderId)).count orderId := by
  induction rows generalizing t with
  | nil => simp
  | cons row rows ih =>
    have hrow := settleCount_writeRow_le outcome row t orderId
    have hrows := ih (writeRow outcome row t)
    have hcons : ((row :: rows).map (·.orderId)).count orderId =
        [row.orderId].count orderId + (rows.map (·.orderId)).count orderId := by
      rw [← List.count_append]
      rfl
    rw [List.foldl_cons, hcons]
    omega

end Writes

/-! ## The driver -/

section Driver

variable [FloorRing K] (env : DriverEnv K S P)

/-- The id that a tick enters under, if the gates send it to the entry. -/
def newIds (w : World K S) (l : DriverLabel K) : List String :=
  match l.action, w.consumer with
  | .tick d _, .idle =>
    match gateOf env w.driver d with
    | .enter _ dec _ =>
      [clientOrderId env.execLib env.execCfg.strategyId d.marketSlug d.ts dec.side]
    | _ => []
  | _, _ => []

/-- The entry under way has a fill that is no settlement. -/
def EntersByEntry (w : World K S) : Prop :=
  ∀ attempt, attemptOf w.consumer = some attempt → attempt.fill.isSettle = false

/-- A step enters by an entry fill. -/
theorem entersByEntry_step (w : World K S) (l : DriverLabel K) (h : EntersByEntry w) :
    EntersByEntry ((driverMachine env).next w l) := by
  intro attempt hattempt
  rcases attempt_step env w l attempt hattempt with hold | ⟨-, d, ks, risk, dec, strategy, -, -, hok⟩
  · exact h attempt hold
  · obtain ⟨-, -, -, -, -, -, -, -, -, -, -, hkind⟩ := tryEnter_rows _ _ _ _ _ hok
    rw [FillRow.isSettle, hkind]

/-- A stretch of a settlement takes an order from the open positions on to the write, or lets go
of it. -/
theorem settleEffect_hands_on (st : DriverState K S) (clock : K) (job : SettleJob K)
    (reply : DbReply K) (point : SettlePoint K)
    (r : DriverState K S × SettleStatus K × List (DriverEvent K P))
    (effect : SettleEffect env st clock job reply point r) (orderId : String) :
    (statusIds r.2.1).count orderId + (openIds r.1).count orderId ≤
      (openIds st).count orderId := by
  have hpop : ∀ pos, st.openPositions.get? job.slug = some pos →
      (openIds st).count orderId = [pos.clientOrderId].count orderId +
        ((st.openPositions.pop job.slug).values.map (·.clientOrderId)).count orderId := by
    intro pos hget
    have hperm := (st.openPositions.values_perm_pop job.slug pos hget).map (·.clientOrderId)
    unfold openIds
    rw [hperm.count_eq, List.map_cons, ← List.singleton_append, List.count_append]
  cases effect with
  | quiet _ st' status same plain =>
    have hstatus : statusIds status = [] := by
      cases status with
      | waiting next =>
        have hnext := plain next rfl
        cases next with
        | settleFill pos settleTs pnl fill => exact absurd hnext not_false
        | _ => rfl
      | _ => rfl
    unfold openIds
    rw [hstatus, same.openPositions]
    simp
  | dropped _ st' same =>
    have hopen : openIds st' = (st.openPositions.pop job.slug).values.map (·.clientOrderId) := by
      unfold openIds
      rw [same.openPositions]
    dsimp only [statusIds]
    rw [hopen, List.count_nil, Nat.zero_add]
    cases hget : st.openPositions.get? job.slug with
    | none =>
      rw [Dict.pop_of_get?_none _ _ hget]
      rfl
    | some pos =>
      rw [hpop pos hget]
      exact Nat.le_add_left _ _
  | settled _ pos settlePrice settleTs openPrice isOpen reads => exact (hpop pos isOpen).ge
  | booked pos settleTs pnl fill => simp [statusIds, pointIds, openIds]

omit [Field K] [LinearOrder K] [FloorRing K] in
/-- After an answer the consumer has the order that the settlement waits with. -/
theorem consumerIds_after (job : SettleJob K) (status : SettleStatus K) :
    consumerIds (consumerAfter job status) = statusIds status := by
  cases status <;> rfl

omit [Field K] [LinearOrder K] [FloorRing K] in
/-- A settlement that begins has no fill yet. -/
theorem watchdogIds_next (now : K) (rest : List (String × Position K)) :
    watchdogIds (Watchdog.next now rest) = [] := by
  cases rest <;> rfl

omit [Field K] [LinearOrder K] [FloorRing K] in
/-- After an answer the watchdog has the order that the settlement waits with. -/
theorem watchdogIds_after (job : SettleJob K) (rest : List (String × Position K))
    (status : SettleStatus K) : watchdogIds (watchdogAfter job rest status) = statusIds status := by
  cases status with
  | waiting point => rfl
  | returned => exact watchdogIds_next job.now rest
  | raised => rfl

omit [Field K] [LinearOrder K] [FloorRing K] in
/-- An order in hand is the consumer's, open, or the watchdog's. -/
theorem count_heldIds (w : World K S) (orderId : String) :
    (heldIds w).count orderId = (consumerIds w.consumer).count orderId +
      (openIds w.driver).count orderId + (watchdogIds w.watchdog).count orderId := by
  rw [heldIds, List.count_append, List.count_append]

/-- What a step enters, it enters under an id that is new to it. -/
theorem Enters.mem_newIds {env : DriverEnv K S P} {w : World K S} {l : DriverLabel K}
    {a : EntryAttempt K} (h : Enters env w l a) : a.order.orderId ∈ newIds env w l := by
  obtain ⟨idle, d, ks, risk, dec, strategy, action, hgate, hok⟩ := h
  obtain ⟨hcoid, hid, -⟩ := tryEnter_rows _ _ _ _ _ hok
  unfold newIds
  rw [action, idle]
  dsimp only
  rw [hgate, hid, hcoid]
  exact List.mem_singleton_self _

/-- The id that a step enters under. -/
def enteringIds (w : World K S) (l : DriverLabel K) : List String :=
  match w.consumer with
  | .idle => (attemptOf ((driverMachine env).next w l).consumer).toList.map (·.order.orderId)
  | _ => []

/-- The id that a step enters under is that of an entry. -/
theorem enters_of_mem_enteringIds (w : World K S) (l : DriverLabel K) (id : String)
    (h : id ∈ enteringIds env w l) : ∃ a, Enters env w l a ∧
      attemptOf ((driverMachine env).next w l).consumer = some a ∧ id = a.order.orderId := by
  unfold enteringIds at h
  split at h
  · rename_i idle
    obtain ⟨a, ha, rfl⟩ := List.mem_map.mp h
    rw [Option.mem_toList] at ha
    rcases attempt_step env w l a ha with hold | hnew
    · rw [idle] at hold
      cases hold
    · exact ⟨a, hnew, ha, rfl⟩
  · cases h

/-- **A step of the driver hands its orders on.** What it has and what is settled afterwards, it
had or was settled before, or the step enters it. -/
theorem driver_hands_on (w : World K S) (l : DriverLabel K) (hpending : NothingPending w)
    (hentry : EntersByEntry w) (orderId : String) :
    (heldIds ((driverMachine env).next w l)).count orderId +
        settleCount ((driverMachine env).next w l).fills.rows orderId ≤
      (enteringIds env w l).count orderId + (heldIds w).count orderId +
        settleCount w.fills.rows orderId := by
  rw [count_heldIds, count_heldIds, enteringIds]
  have heffect := driver_effect env w l
  generalize (driverMachine env).next w l = w' at heffect ⊢
  generalize (driverMachine env).emits w l = es at heffect
  cases heffect with
  | stall => omega
  | tick d ks action idle =>
    have hopen : openIds (handleTick env w.driver l.clock d ks).1 = openIds w.driver := by
      unfold openIds
      rw [handleTick_openPositions]
    dsimp only
    rw [hopen, idle]
    rcases handleTick_consumer env w.driver l.clock d ks with hc | ⟨pos, -, -, hc⟩ |
      ⟨risk, dec, strategy, attempt, hgate, hok, hc⟩
    · rw [hc]
      simp [consumerIds]
    · rw [hc]
      simp [consumerIds, pointIds]
    · have hid := (tryEnter_rows _ _ _ _ _ hok).2.1
      rw [hc]
      simp only [consumerIds, attemptOf, Option.toList_some, List.map_cons, List.map_nil, hid,
        List.count_nil]
      omega
  | control msg => cases msg <;> exact Nat.add_le_add_right (Nat.le_add_left _ _) _
  | consumerSettles reply job point r action consumer effect =>
    have heffect := settleEffect_hands_on env _ _ _ _ _ _ effect orderId
    have hwrite := settleCount_pointWrite point reply.write w.fills orderId
    dsimp only
    rw [consumerIds_after, consumer]
    simp only [consumerIds]
    omega
  | orderWritten reply attempt consumer next hnext =>
    dsimp only
    rw [consumer]
    rcases hnext with rfl | rfl
    · simp only [consumerIds]
      omega
    · simp only [consumerIds, List.count_nil]
      omega
  | entryFails reply attempt consumer =>
    have hfill := hentry attempt (by rw [consumer]; rfl)
    dsimp only
    rw [settleCount_writeRow_entry _ _ _ _ hfill, consumer]
    simp only [consumerIds, List.count_nil]
    omega
  | enters reply attempt consumer =>
    have hfill := hentry attempt (by rw [consumer]; rfl)
    have hnone := hpending attempt (by rw [consumer]; rfl)
    have hopen : openIds (w.driver.recordEntry attempt.position attempt.position.marketSlug) =
        openIds w.driver ++ [attempt.position.clientOrderId] := by
      unfold openIds DriverState.recordEntry
      rw [Dict.values_set_of_get?_none _ _ _ hnone, List.map_append]
      rfl
    dsimp only
    rw [settleCount_writeRow_entry _ _ _ _ hfill, consumer, hopen, List.count_append]
    simp only [consumerIds, List.count_nil]
    omega
  | notified =>
    dsimp only
    simp only [consumerIds, List.count_nil]
    omega
  | wakes sleeping =>
    dsimp only
    rw [watchdogIds_next, sleeping]
    simp only [watchdogIds]
    omega
  | watchdogSettles reply job point rest r action watchdog effect =>
    have heffect := settleEffect_hands_on env _ _ _ _ _ _ effect orderId
    have hwrite := settleCount_pointWrite point reply.write w.fills orderId
    dsimp only
    rw [watchdogIds_after, watchdog]
    simp only [watchdogIds]
    omega
  | sweep =>
    have hopen : openIds (w.driver.orphanCleanup l.clock) = openIds w.driver := by
      unfold openIds
      rw [(sameAccounts_orphanCleanup _ _).openPositions]
    dsimp only
    rw [hopen]
    omega

end Driver

/-! ## The driver and the script -/

section System

variable [FloorRing K] (env : DriverEnv K S P)

/-- The orders that a run of the script takes up, one for each row it is going to write. -/
def takenIds (w : World K S) (now : K) (tables : PriceTables K) (markets : List (MarketRow K)) :
    List String :=
  (w.due now tables markets).map fun d => d.order.orderId

/-- Who takes the order up takes it up in turn: a tick does not enter under its id while it is in
a hand or settled, and a run of the script takes it up at most once, and not while the driver or
another run has it.  A condition on the state before the step. -/
def InTurn (orderId : String) (sys : SettleSystem K S) (l : SettleLabel K) : Prop :=
  match l with
  | .driver l =>
    orderId ∈ newIds env sys.world l → orderId ∉ heldIds sys.world ∧
      orderId ∉ inFlightIds sys ∧ hasSettle sys.world.fills.rows orderId = false
  | .scriptReads now tables markets =>
    (takenIds sys.world now tables markets).count orderId ≤ 1 ∧
      (orderId ∈ takenIds sys.world now tables markets →
        orderId ∉ heldIds sys.world ∧ orderId ∉ inFlightIds sys)
  | .scriptWrites _ _ => True

instance (orderId : String) (sys : SettleSystem K S) (l : SettleLabel K) :
    Decidable (InTurn env orderId sys l) :=
  match l with
  | .driver _ => inferInstanceAs (Decidable (_ → _ ∧ _ ∧ _))
  | .scriptReads _ _ _ => inferInstanceAs (Decidable (_ ∧ (_ → _ ∧ _)))
  | .scriptWrites _ _ => isTrue trivial

omit [Field K] [LinearOrder K] [FloorRing K] in
/-- Without a settlement the count is zero. -/
theorem settleCount_eq_zero {rows : List (FillRow K)} {orderId : String}
    (h : hasSettle rows orderId = false) : settleCount rows orderId = 0 := by
  unfold hasSettle at h
  rw [settleCount, List.countP_eq_zero]
  intro r hr hsettle
  have hno := List.any_eq_false.mp h r hr
  exact hno hsettle

/-- A step enters one order at most. -/
theorem enteringIds_count_le (w : World K S) (l : DriverLabel K) (orderId : String) :
    (enteringIds env w l).count orderId ≤ 1 := by
  unfold enteringIds
  split
  · refine List.count_le_length.trans ?_
    rw [List.length_map]
    exact Option.length_toList_le
  · simp

omit [LinearOrder K] [Field K] [FloorRing K] in
/-- A run that writes takes its orders out of flight. -/
theorem inFlight_eraseIdx (runs : List (List (FillRow K))) (i : ℕ) (orderId : String) :
    ((runs.eraseIdx i).flatten.map (·.orderId)).count orderId +
        (((runs[i]?).getD []).map (·.orderId)).count orderId =
      (runs.flatten.map (·.orderId)).count orderId := by
  induction runs generalizing i with
  | nil => simp
  | cons run runs ih =>
    cases i with
    | zero => simp [List.count_append, Nat.add_comm]
    | succ i =>
      have hrest := ih i
      simp only [List.eraseIdx_cons_succ, List.flatten_cons, List.map_append, List.count_append,
        List.getElem?_cons_succ]
      omega

/-- **One step keeps the order in one hand.** -/
theorem oneHand_step (orderId : String) (sys : SettleSystem K S) (l : SettleLabel K)
    (hpending : NothingPending sys.world) (hentry : EntersByEntry sys.world)
    (h : OneHand orderId sys) (hturn : InTurn env orderId sys l) :
    OneHand orderId ((settleSystem env).next sys l) := by
  cases l with
  | driver l =>
    change (heldIds ((driverMachine env).next sys.world l)).count orderId +
      (inFlightIds sys).count orderId +
        settleCount ((driverMachine env).next sys.world l).fills.rows orderId ≤ 1
    have hstep := driver_hands_on env sys.world l hpending hentry orderId
    by_cases hnew : orderId ∈ enteringIds env sys.world l
    · obtain ⟨a, ha, -, rfl⟩ := enters_of_mem_enteringIds env sys.world l orderId hnew
      obtain ⟨hheld, hflight, hsettled⟩ := hturn ha.mem_newIds
      have hcount := enteringIds_count_le env sys.world l a.order.orderId
      rw [List.count_eq_zero.mpr hheld, settleCount_eq_zero hsettled] at hstep
      rw [List.count_eq_zero.mpr hflight]
      omega
    · rw [List.count_eq_zero.mpr hnew] at hstep
      unfold OneHand at h
      omega
  | scriptReads now tables markets =>
    obtain ⟨honce, hfree⟩ := hturn
    have hflight : inFlightIds ((settleSystem env).next sys (.scriptReads now tables markets)) =
        inFlightIds sys ++ takenIds sys.world now tables markets := by
      change ((sys.runs ++ [_]).flatten.map _) = _
      rw [List.flatten_append, List.map_append, List.flatten_singleton, List.map_map]
      rfl
    unfold OneHand at h ⊢
    rw [hflight, List.count_append]
    change (heldIds sys.world).count orderId + _ + settleCount sys.world.fills.rows orderId ≤ 1
    by_cases htaken : orderId ∈ takenIds sys.world now tables markets
    · obtain ⟨hheld, hinflight⟩ := hfree htaken
      obtain ⟨d, hd, hid⟩ := List.mem_map.mp htaken
      have hsettled := (mem_dueOrders hd).2
      rw [hid] at hsettled
      rw [List.count_eq_zero.mpr hheld, List.count_eq_zero.mpr hinflight,
        settleCount_eq_zero hsettled]
      omega
    · rw [List.count_eq_zero.mpr htaken]
      omega
  | scriptWrites i outcome =>
    have hrows := settleCount_foldl_le outcome ((sys.runs[i]?).getD []) sys.world.fills orderId
    have hflight := inFlight_eraseIdx sys.runs i orderId
    unfold OneHand at h ⊢
    change (heldIds sys.world).count orderId + ((sys.runs.eraseIdx i).flatten.map _).count orderId +
      settleCount (((sys.runs[i]?).getD []).foldl _ sys.world.fills).rows orderId ≤ 1
    unfold inFlightIds at h
    omega

/-- **One settle fill an order.** In every interleaving of the driver with runs of the script in
which an order is taken up in turn, the order never has a second settle fill, if it has none too
many when the driver boots.
SOURCE: paper/exec_client.py:232-277, scripts/backfill_paper_settles.py:51-81, 184-221,
common/db.py:51-71 -/
theorem settled_once (strategy : S) (paused : Bool) (rows : Option (List String)) (dailyPnl : K)
    (dailyTrades : ℤ) (orders : Table (OrderRow.key (K := K)))
    (fills : Table (FillRow.key (K := K))) (orderId : String)
    (hboot : settleCount fills.rows orderId ≤ 1) (ls : List (SettleLabel K))
    (hturn : (settleSystem env).Along (InTurn env orderId) (SettleSystem.boot (World.boot
      (DriverState.boot strategy paused rows dailyPnl dailyTrades) orders fills)) ls)
    (pre : List (SettleLabel K)) (hpre : pre <+: ls) :
    settleCount ((settleSystem env).final (SettleSystem.boot (World.boot
      (DriverState.boot strategy paused rows dailyPnl dailyTrades) orders fills))
        pre).world.fills.rows orderId ≤ 1 := by
  obtain ⟨post, rfl⟩ := hpre
  have hpre := Obeys.of_append hturn
  suffices h : ∀ sys, sys = (settleSystem env).final (SettleSystem.boot (World.boot
      (DriverState.boot strategy paused rows dailyPnl dailyTrades) orders fills)) pre →
      NothingPending sys.world ∧ EntersByEntry sys.world ∧ OneHand orderId sys by
    have hhand := (h _ rfl).2.2
    unfold OneHand at hhand
    omega
  clear hturn post
  induction pre using List.reverseRecOn with
  | nil =>
    rintro sys rfl
    refine ⟨?_, ?_, ?_⟩
    · intro attempt h
      cases h
    · intro attempt h
      cases h
    simpa [OneHand, heldIds, inFlightIds, SettleSystem.boot, World.boot, consumerIds, openIds,
      watchdogIds, DriverState.boot] using hboot
  | append_singleton pre l ih =>
    obtain ⟨hpre, hl⟩ := (Obeys.concat_iff pre l).mp hpre
    obtain ⟨hpending, hentry, hhand⟩ := ih hpre _ rfl
    rintro sys rfl
    rw [Machine.final_concat]
    refine ⟨?_, ?_, oneHand_step env orderId _ l hpending hentry hhand hl⟩
    · cases l with
      | driver l => exact nothingPending_step env _ l hpending
      | scriptReads now tables markets => exact hpending
      | scriptWrites i outcome => exact hpending
    · cases l with
      | driver l => exact entersByEntry_step env _ l hentry
      | scriptReads now tables markets => exact hentry
      | scriptWrites i outcome => exact hentry

end System

section Instance

/-- Tables in which the last paper tick of a window is 1 s older than its close. -/
def tickAndCandles : PriceTables ℚ where
  paperTicks := [⟨"0x1", 1200, some 100, none, none⟩, ⟨"0x1", 1499, some 101, none, none⟩]
  candles := [⟨"binance", "BTCUSDT", "1m", 1200, 100, 100⟩,
    ⟨"binance", "BTCUSDT", "1m", 1500, 101, 101⟩]

/-- A run of the script that reads 20 s after the close of the market of `settledRun`. -/
def scriptReads : SettleLabel ℚ :=
  .scriptReads 1520 tickAndCandles [⟨"btc-updown-5m-1200", "0x1", some 1500⟩]

/-- A position bought and settled by the driver; the write of the exit fill is still out. -/
def driverSettles : List (SettleLabel ℚ) :=
  (entryLabels (quotedDict "btc-updown-5m-1200" 1300 100 1500) ++
    watchdogLabels 1520 tickAndCandles).map .driver

/-- The write of the driver's exit fill is committed. -/
def driverWrites : SettleLabel ℚ := .driver ⟨1520, .watchdogResumes ⟨none, .committed⟩⟩

/-- The script reads after the driver has written. -/
def inTurnRun : List (SettleLabel ℚ) :=
  driverSettles ++ [driverWrites, scriptReads, .scriptWrites 0 .committed]

/-- A run in which the script settles after the driver. -/
theorem settled_once_inTurnRun :
    settleCount ((settleSystem (eagerDriver 0)).final (SettleSystem.boot (eagerBoot []))
      inTurnRun).world.fills.rows "eager|btc-updown-5m-1200||YES_UP" ≤ 1 := by
  apply settled_once (eagerDriver 0) () false (some []) 0 0 Table.empty Table.empty
    "eager|btc-updown-5m-1200||YES_UP" (by decide +kernel) inTurnRun ?_ inTurnRun
    (List.prefix_refl _)
  simp only [Machine.Along, inTurnRun, driverSettles, entryLabels, watchdogLabels,
    List.cons_append, List.nil_append, List.map_cons, List.map_nil, Obeys.cons_iff]
  refine ⟨?_, ?_, ?_, ?_, ?_, ?_, ?_, ?_, ?_, ?_, Obeys.nil⟩ <;> decide +kernel

/-- The script writes an exit fill between the driver's pop of the position and the driver's own
write; the two fills bear different timestamps, so both are stored. -/
theorem settled_twice :
    ¬∀ (env : DriverEnv ℚ Unit Unit) (orders : Table (OrderRow.key (K := ℚ)))
      (fills : Table (FillRow.key (K := ℚ))) (orderId : String),
      settleCount fills.rows orderId ≤ 1 → ∀ ls : List (SettleLabel ℚ),
        settleCount ((settleSystem env).final (SettleSystem.boot (World.boot
          (DriverState.boot () false (some []) 0 0) orders fills)) ls).world.fills.rows
            orderId ≤ 1 := by
  intro h
  have htwo := h (eagerDriver 0) Table.empty Table.empty "eager|btc-updown-5m-1200||YES_UP"
    (by decide +kernel) (driverSettles ++ [scriptReads, .scriptWrites 0 .committed, driverWrites])
  exact absurd htwo (by decide +kernel)

end Instance

end TradingEdge.Analysis
