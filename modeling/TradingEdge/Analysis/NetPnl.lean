import TradingEdge.Analysis.DriverSteps

/-!
# The entry fee and the booked pnl

`try_enter` computes the parabolic fee, stores it on the position and writes it to the entry
fill; `settle` passes a fee of zero to the fill model.  So a settlement books shares times
exit price less the stake, and the fee of the entry is in no pnl.

The invariant of a run is `Ledger`: every position the system holds, at whatever `await`,
was priced by the fill model, and every settlement under way carries the gross pnl.  From it
`booked_net_iff` reads off when the booked pnl is net: when the fee is zero, or nothing is
settled.
-/

set_option autoImplicit false

namespace TradingEdge.Analysis

open TradingEdge.Model TradingEdge.Program TradingEdge.Library

variable {K S P : Type} [Field K] [LinearOrder K]

/-! ## Accounts -/

/-- What the exit fill of a position brings in. -/
def grossProceeds (pos : Position K) (fill : FillRow K) : K :=
  pos.stakeUsd / pos.entryPrice * fill.price

/-- The pnl of a settlement after the fee of its entry. -/
def netPnl (pos : Position K) (fill : FillRow K) : K :=
  grossProceeds pos fill - pos.stakeUsd - pos.fee

/-- A booking: the position, its exit fill and the pnl. -/
def bookingOf : DriverEvent K P → Option (Position K × FillRow K × K)
  | .booked pos _ pnl fill => some (pos, fill, pnl)
  | _ => none

/-- The bookings of a run. -/
def bookings (es : List (DriverEvent K P)) : List (Position K × FillRow K × K) :=
  es.filterMap bookingOf

/-- The fees that `trading.fills` holds for the orders of the booked positions, in the rows
written since it was `before`. -/
def recordedFees (before after : List (FillRow K))
    (booked : List (Position K × FillRow K × K)) : K :=
  (((after.drop before.length).filter fun r =>
    r.orderId ∈ booked.map fun b => b.1.clientOrderId).map fun r => r.fee).sum

/-- A position as the fill model prices it. -/
structure Priced (env : DriverEnv K S P) (pos : Position K) : Prop where
  stake : pos.stakeUsd = env.cfg.stakeUsd
  fee : pos.fee =
    env.execCfg.fillParams.feeK * pos.entryPrice * (1 - pos.entryPrice) * pos.stakeUsd
  entry_ne_zero : pos.entryPrice ≠ 0
  entry_lt_one : pos.entryPrice < 1

/-- A priced position has no fee exactly when the fee factor or the stake is zero. -/
theorem Priced.fee_eq_zero_iff {env : DriverEnv K S P} {pos : Position K}
    (h : Priced env pos) :
    pos.fee = 0 ↔ env.execCfg.fillParams.feeK = 0 ∨ env.cfg.stakeUsd = 0 := by
  have hlt : (1 : K) - pos.entryPrice ≠ 0 := sub_ne_zero.mpr h.entry_lt_one.ne'
  rw [h.fee, h.stake]
  simp [h.entry_ne_zero, hlt]

/-- A settlement that waits for the write of its exit fill: the pnl is gross, and so is the
one in the metadata. -/
def GrossPoint (env : DriverEnv K S P) : SettlePoint K → Prop
  | .settleFill pos _ pnl fill =>
    Priced env pos ∧ pnl = grossProceeds pos fill - pos.stakeUsd ∧
      (∃ resolution, fill.metadata = .settle resolution pnl) ∧ fill.fee = 0
  | _ => True

/-- A query that only goes on has no price yet. -/
theorem grossPoint_of_quietNext (env : DriverEnv K S P) (job : SettleJob K)
    (reply : DbReply K) (point next : SettlePoint K) (h : QuietNext job reply point next) :
    GrossPoint env next := by
  cases next with
  | settleFill pos settleTs pnl fill => exact absurd h not_false
  | _ => trivial

/-- The consumer holds priced positions only. -/
def ConsumerPriced (env : DriverEnv K S P) : Consumer K → Prop
  | .settling _ point => GrossPoint env point
  | .persistingOrder attempt | .persistingFill attempt =>
    Priced env attempt.position ∧ attempt.fill.fee = attempt.position.fee
  | _ => True

/-- So does the watchdog. -/
def WatchdogPriced (env : DriverEnv K S P) : Watchdog K → Prop
  | .settling _ point _ => GrossPoint env point
  | .sleeping => True

/-- The rows written since `before` carry no fee, or that of a priced position. -/
def FillsPriced (env : DriverEnv K S P) (before : List (FillRow K))
    (t : Table (FillRow.key (K := K))) : Prop :=
  ∃ written, t.rows = before ++ written ∧
    ∀ r ∈ written, r.fee = 0 ∨ ∃ pos, Priced env pos ∧ r.fee = pos.fee

/-- Every position the system holds was priced by the fill model, and so were the fees it
wrote since `before`. -/
structure Ledger (env : DriverEnv K S P) (before : List (FillRow K)) (w : World K S) :
    Prop where
  openPositions : OpenAll (fun _ pos => Priced env pos) w.driver
  consumer : ConsumerPriced env w.consumer
  watchdog : WatchdogPriced env w.watchdog
  fills : FillsPriced env before w.fills

omit [LinearOrder K] in
/-- Pnl that is gross in each booking is gross in the sum. -/
theorem sum_bookings (l : List (Position K × FillRow K × K))
    (h : ∀ b ∈ l, b.2.2 = grossProceeds b.1 b.2.1 - b.1.stakeUsd) :
    (l.map fun b => b.2.2).sum =
      (l.map fun b => grossProceeds b.1 b.2.1).sum - (l.map fun b => b.1.stakeUsd).sum := by
  induction l with
  | nil => simp
  | cons b l ih =>
    rw [List.forall_mem_cons] at h
    simp only [List.map_cons, List.sum_cons]
    rw [ih h.2, h.1]
    ring

/-! ## One step -/

section Steps

variable (env : DriverEnv K S P)

/-- A write adds at most the row it offers. -/
theorem writeRow_rows {ρ κ : Type} [DecidableEq κ] {key : ρ → κ} (outcome : WriteOutcome)
    (row : ρ) (t : Table key) :
    (writeRow outcome row t).rows = t.rows ∨
      (writeRow outcome row t).rows = t.rows ++ [row] := by
  unfold writeRow
  split
  · exact Or.inl rfl
  · rw [Table.rows_insertNew]
    split
    · exact Or.inl rfl
    · exact Or.inr rfl

/-- Rows with fees of priced positions stay so when one more is offered. -/
theorem fills_writeRow (before : List (FillRow K)) (outcome : WriteOutcome) (row : FillRow K)
    (t : Table (FillRow.key (K := K)))
    (h : FillsPriced env before t)
    (hrow : row.fee = 0 ∨ ∃ pos, Priced env pos ∧ row.fee = pos.fee) :
    FillsPriced env before (writeRow outcome row t) := by
  obtain ⟨written, hrows, hfees⟩ := h
  rcases writeRow_rows outcome row t with heq | heq
  · exact ⟨written, heq.trans hrows, hfees⟩
  · refine ⟨written ++ [row], by rw [heq, hrows, List.append_assoc], ?_⟩
    intro r hr
    rcases List.mem_append.mp hr with hr | hr
    · exact hfees r hr
    · rw [List.mem_singleton.mp hr]
      exact hrow

/-- What a settlement writes carries no fee. -/
theorem fills_settleWrite (before : List (FillRow K)) (point : SettlePoint K)
    (outcome : WriteOutcome) (t : Table (FillRow.key (K := K))) (hp : GrossPoint env point)
    (h : FillsPriced env before t) : FillsPriced env before (point.write outcome t) := by
  cases point with
  | settleFill pos settleTs pnl fill =>
    exact fills_writeRow env before outcome fill t h (Or.inl hp.2.2.2)
  | _ => exact h

/-- The settlement of a priced position is gross: `settle` is called with a fee of zero.
SOURCE: paper/exec_client.py:235-241 -/
theorem grossPoint_settleFill (pos : Position K) (settleTs : K) (up : Bool)
    (h : Priced env pos) :
    GrossPoint env (.settleFill pos settleTs (settleFill pos settleTs up).1.2.2
      (settleFill pos settleTs up).2) := by
  refine ⟨h, ?_, ⟨(settleFill pos settleTs up).1.1, rfl⟩, rfl⟩
  exact settleFill_pnl pos settleTs up

/-- A stretch of a settlement of priced positions goes on with gross pnl. -/
theorem settleEffect_priced [FloorRing K] (st : DriverState K S) (clock : K)
    (job : SettleJob K) (reply : DbReply K) (point : SettlePoint K)
    (r : DriverState K S × SettleStatus K × List (DriverEvent K P))
    (effect : SettleEffect env st clock job reply point r)
    (hst : OpenAll (fun _ pos => Priced env pos) st) :
    ∀ next, r.2.1 = .waiting next → GrossPoint env next := by
  intro next hnext
  cases effect with
  | quiet _ st' status same plain =>
    exact grossPoint_of_quietNext env job reply point next (plain next hnext)
  | dropped _ st' same => cases hnext
  | settled _ pos settlePrice settleTs openPrice isOpen reads =>
    cases hnext
    exact grossPoint_settleFill env pos settleTs _ (hst _ _ isOpen)
  | booked pos settleTs pnl fill =>
    cases hnext
    trivial

/-- After an answer the consumer's settlement is priced gross. -/
theorem consumerPriced_after (job : SettleJob K) (status : SettleStatus K)
    (h : ∀ next, status = .waiting next → GrossPoint env next) :
    ConsumerPriced env (consumerAfter job status) := by
  cases status with
  | waiting next => exact h next rfl
  | _ => trivial

/-- A settlement that begins has no price yet. -/
theorem watchdogPriced_next (now : K) (rest : List (String × Position K)) :
    WatchdogPriced env (Watchdog.next now rest) := by
  cases rest <;> trivial

/-- After an answer the watchdog's settlement is priced gross. -/
theorem watchdogPriced_after (job : SettleJob K) (rest : List (String × Position K))
    (status : SettleStatus K) (h : ∀ next, status = .waiting next → GrossPoint env next) :
    WatchdogPriced env (watchdogAfter job rest status) := by
  cases status with
  | waiting next => exact h next rfl
  | returned => exact watchdogPriced_next env job.now rest
  | raised => trivial

/-- What `try_enter` is about to return is priced by the fill model.
SOURCE: paper/exec_client.py:119-145, 202-215 -/
theorem tryEnter_priced [IsStrictOrderedRing K] (ks : Bool) (cid : String)
    (ctx : TickContext K) (side : Side) (attempt : EntryAttempt K)
    (h : tryEnter env.execLib env.execCfg ks (entryRequest env cid ctx side) = .ok attempt) :
    Priced env attempt.position ∧ attempt.fill.fee = attempt.position.fee := by
  obtain ⟨-, -, -, hstake, hentry, hfee, hne, hfillFee, -⟩ := tryEnter_ok _ _ _ _ _ h
  refine ⟨⟨hstake, ?_, hne, ?_⟩, hfillFee⟩
  · rw [hfee, fillAt_fee, ← hentry, hstake]
  · rw [hentry]
    exact fillAt_entryPrice_lt_one _ _ _

/-- **One step keeps the ledger.** -/
theorem ledger_step [FloorRing K] [IsStrictOrderedRing K] (before : List (FillRow K)) (w : World K S)
    (l : DriverLabel K) (h : Ledger env before w) :
    Ledger env before ((driverMachine env).next w l) := by
  obtain ⟨hopen, hcons, hwatch, hfills⟩ := h
  have hattempt : ∀ attempt, attemptOf w.consumer = some attempt →
      Priced env attempt.position := by
    intro attempt hattempt
    cases hc : w.consumer with
    | persistingOrder _ | persistingFill _ =>
      rw [hc] at hattempt hcons
      cases hattempt
      exact hcons.1
    | _ =>
      rw [hc] at hattempt
      cases hattempt
  have hopen' := openAll_step env w l hopen hattempt
  have heffect := driver_effect env w l
  generalize (driverMachine env).next w l = w' at heffect hopen' ⊢
  generalize (driverMachine env).emits w l = es at heffect
  suffices h : ConsumerPriced env w'.consumer ∧ WatchdogPriced env w'.watchdog ∧
      FillsPriced env before w'.fills from ⟨hopen', h.1, h.2.1, h.2.2⟩
  clear hopen' hattempt
  cases heffect with
  | tick d ks action idle =>
    refine ⟨?_, hwatch, hfills⟩
    dsimp only
    rcases handleTick_consumer env w.driver l.clock d ks with hc | ⟨pos, -, -, hc⟩ |
      ⟨risk, dec, strategy, attempt, -, hok, hc⟩
    · rw [hc]
      trivial
    · rw [hc]
      trivial
    · rw [hc]
      exact tryEnter_priced env ks _ _ _ attempt hok
  | consumerSettles reply job point r action consumer effect =>
    rw [consumer] at hcons
    exact ⟨consumerPriced_after env job _ (settleEffect_priced env _ _ _ _ _ _ effect hopen),
      hwatch, fills_settleWrite env before point reply.write w.fills hcons hfills⟩
  | orderWritten reply attempt consumer next hnext =>
    rw [consumer] at hcons
    refine ⟨?_, hwatch, hfills⟩
    rcases hnext with rfl | rfl
    · exact hcons
    · trivial
  | entryFails reply attempt consumer =>
    rw [consumer] at hcons
    exact ⟨trivial, hwatch, fills_writeRow env before _ _ _ hfills
      (Or.inr ⟨attempt.position, hcons⟩)⟩
  | enters reply attempt consumer =>
    rw [consumer] at hcons
    exact ⟨trivial, hwatch, fills_writeRow env before _ _ _ hfills
      (Or.inr ⟨attempt.position, hcons⟩)⟩
  | notified => exact ⟨trivial, hwatch, hfills⟩
  | wakes sleeping => exact ⟨hcons, watchdogPriced_next env _ _, hfills⟩
  | watchdogSettles reply job point rest r action watchdog effect =>
    rw [watchdog] at hwatch
    exact ⟨hcons,
      watchdogPriced_after env job rest _ (settleEffect_priced env _ _ _ _ _ _ effect hopen),
      fills_settleWrite env before point reply.write w.fills hwatch hfills⟩
  | _ => exact ⟨hcons, hwatch, hfills⟩

end Steps

/-! ## Bookings -/

section Bookings

variable [FloorRing K] (env : DriverEnv K S P)

/-- The point of a settlement that has called `exec.settle` and waits for the write. -/
def isSettleFill : SettlePoint K → Bool
  | .settleFill _ _ _ _ => true
  | _ => false

/-- The step resumes a settlement after the write of its exit fill. -/
def resumesExitFill (w : World K S) (l : DriverLabel K) : Bool :=
  match l.action, w.consumer, w.watchdog with
  | .consumerResumes _, .settling _ point, _ => isSettleFill point
  | .watchdogResumes _, _, .settling _ point _ => isSettleFill point
  | _, _, _ => false

/-- A step that books has resumed a settlement of a priced position, and moves the daily
pnl and the risk manager by the gross pnl it booked.
SOURCE: paper/driver.py:455-462 -/
theorem booked_of_mem (before : List (FillRow K)) (w : World K S) (l : DriverLabel K)
    (h : Ledger env before w) (pos : Position K) (settleTs pnl : K) (fill : FillRow K)
    (he : .booked pos settleTs pnl fill ∈ (driverMachine env).emits w l) :
    resumesExitFill w l = true ∧ GrossPoint env (.settleFill pos settleTs pnl fill) ∧
      ((driverMachine env).next w l).driver.dailyPnl = w.driver.dailyPnl + pnl ∧
      ((driverMachine env).next w l).driver.risk =
        onTradeClosed env.riskCfg w.driver.risk pnl settleTs := by
  have heffect := driver_effect env w l
  generalize (driverMachine env).next w l = w' at heffect ⊢
  generalize (driverMachine env).emits w l = es at heffect he
  cases heffect with
  | tick d ks action idle =>
    rcases mem_handleTick_events env _ _ _ _ _ he with h | ⟨-, h⟩ | ⟨-, h⟩ | ⟨_, h⟩ |
      ⟨_, _, _, -, h⟩ <;> cases h
  | consumerSettles reply job point r action consumer effect =>
    obtain ⟨rfl, hpnl, hrisk⟩ := effect.of_booked he
    have hgross := h.consumer
    rw [consumer] at hgross
    exact ⟨by simp [resumesExitFill, action, consumer, isSettleFill], hgross, hpnl, hrisk⟩
  | watchdogSettles reply job point rest r action watchdog effect =>
    obtain ⟨rfl, hpnl, hrisk⟩ := effect.of_booked he
    have hgross := h.watchdog
    rw [watchdog] at hgross
    exact ⟨by simp [resumesExitFill, action, watchdog, isSettleFill], hgross, hpnl, hrisk⟩
  | enters reply attempt consumer => simp at he
  | _ => cases he

/-- Every resumed exit fill is booked. -/
theorem exists_booked (w : World K S) (l : DriverLabel K)
    (h : resumesExitFill w l = true) :
    ∃ pos settleTs pnl fill,
      .booked pos settleTs pnl fill ∈ (driverMachine env).emits w l := by
  have hsettle : ∀ (job : SettleJob K) (reply : DbReply K) (point : SettlePoint K),
      isSettleFill point = true → ∃ pos settleTs pnl fill,
        .booked pos settleTs pnl fill ∈
          (settleStep env w.driver l.clock job point reply).2.2 := by
    intro job reply point hpoint
    cases point with
    | settleFill pos settleTs pnl fill =>
      exact ⟨pos, settleTs, pnl, fill, by simp [settleStep]⟩
    | _ => cases hpoint
  have hemits : (driverMachine env).emits w l = (driverStep env w l).2 := rfl
  rw [hemits]
  unfold resumesExitFill at h
  split at h
  · rename_i reply job point haction hconsumer
    obtain ⟨pos, settleTs, pnl, fill, hmem⟩ := hsettle job reply point h
    refine ⟨pos, settleTs, pnl, fill, ?_⟩
    rw [driverStep, haction]
    dsimp only
    rw [consumerStep_settling env w l.clock reply hconsumer]
    exact hmem
  · rename_i reply job point rest haction hwatchdog
    obtain ⟨pos, settleTs, pnl, fill, hmem⟩ := hsettle job reply point h
    refine ⟨pos, settleTs, pnl, fill, ?_⟩
    rw [driverStep, haction]
    dsimp only
    rw [watchdogStep_settling env w l.clock reply hwatchdog]
    exact hmem
  · cases h

/-! ## When the booked pnl is net -/

/-- The step books net pnl: in `_daily_pnl`, in the risk manager, and in the metadata of
the exit fill. -/
def BooksNet (w : World K S) (l : DriverLabel K) : Prop :=
  ∀ pos settleTs pnl fill, .booked pos settleTs pnl fill ∈ (driverMachine env).emits w l →
    ((driverMachine env).next w l).driver.dailyPnl = w.driver.dailyPnl + netPnl pos fill ∧
      ((driverMachine env).next w l).driver.risk =
        onTradeClosed env.riskCfg w.driver.risk (netPnl pos fill) settleTs ∧
      ∃ resolution, fill.metadata = .settle resolution (netPnl pos fill)

/-- Net accounting of a run: every booking is net, and the booked pnl of the run is the
gross proceeds less the stakes less the fees in `trading.fills`. -/
structure NetAccounting (w : World K S) (ls : List (DriverLabel K)) : Prop where
  each : (driverMachine env).Along (BooksNet env) w ls
  total : ((bookings ((driverMachine env).trace w ls)).map fun b => b.2.2).sum =
    ((bookings ((driverMachine env).trace w ls)).map fun b => grossProceeds b.1 b.2.1).sum -
      ((bookings ((driverMachine env).trace w ls)).map fun b => b.1.stakeUsd).sum -
      recordedFees w.fills.rows ((driverMachine env).final w ls).fills.rows
        (bookings ((driverMachine env).trace w ls))

/-- The ledger of a freshly booted system. -/
theorem ledger_boot (strategy : S) (paused : Bool) (rows : Option (List String))
    (dailyPnl : K) (dailyTrades : ℤ) (orders : Table (OrderRow.key (K := K)))
    (fills : Table (FillRow.key (K := K))) :
    Ledger env fills.rows
      (World.boot (DriverState.boot strategy paused rows dailyPnl dailyTrades) orders fills) := by
  refine ⟨?_, trivial, trivial, ⟨[], by simp [World.boot], by simp⟩⟩
  intro slug pos hget
  simp [World.boot, DriverState.boot] at hget

variable [IsStrictOrderedRing K]

/-- A step books net exactly when no fee was charged or nothing is booked. -/
theorem booksNet_iff (before : List (FillRow K)) (w : World K S) (l : DriverLabel K)
    (h : Ledger env before w) :
    BooksNet env w l ↔ env.execCfg.fillParams.feeK = 0 ∨ env.cfg.stakeUsd = 0 ∨
      resumesExitFill w l = false := by
  constructor
  · intro hnet
    cases hres : resumesExitFill w l with
    | false => exact Or.inr (Or.inr rfl)
    | true =>
      obtain ⟨pos, settleTs, pnl, fill, hmem⟩ := exists_booked env w l hres
      obtain ⟨-, ⟨hpriced, hpnl, -, -⟩, hdaily, -⟩ :=
        booked_of_mem env before w l h pos settleTs pnl fill hmem
      have hfee : pos.fee = 0 := by
        have := hdaily.symm.trans (hnet pos settleTs pnl fill hmem).1
        rw [hpnl, netPnl] at this
        linarith
      rcases hpriced.fee_eq_zero_iff.mp hfee with hk | hs
      · exact Or.inl hk
      · exact Or.inr (Or.inl hs)
  · intro hcases pos settleTs pnl fill hmem
    obtain ⟨hres, ⟨hpriced, hpnl, hmeta, -⟩, hdaily, hrisk⟩ :=
      booked_of_mem env before w l h pos settleTs pnl fill hmem
    have hfree : env.execCfg.fillParams.feeK = 0 ∨ env.cfg.stakeUsd = 0 := by
      rcases hcases with hk | hs | hno
      · exact Or.inl hk
      · exact Or.inr hs
      · rw [hres] at hno
        cases hno
    have hnet : pnl = netPnl pos fill := by
      rw [netPnl, hpriced.fee_eq_zero_iff.mpr hfree, sub_zero, hpnl]
    rw [← hnet]
    exact ⟨hdaily, hrisk, hmeta⟩

/-- **Every state of a run keeps the ledger.** -/
theorem ledger_run (before : List (FillRow K)) (w : World K S) (h : Ledger env before w)
    (ls : List (DriverLabel K)) : Ledger env before ((driverMachine env).final w ls) :=
  (driverMachine env).invariant (fun _ _ => True) (fun _ w _ => Ledger env before w) w h
    (fun _ l _ ih => ledger_step env before _ l ih) ls (fun _ _ _ _ => trivial)

/-- The bookings of a run are gross, each of them. -/
theorem mem_bookings (before : List (FillRow K)) (w : World K S) (h : Ledger env before w)
    (ls : List (DriverLabel K)) (b : Position K × FillRow K × K)
    (hb : b ∈ bookings ((driverMachine env).trace w ls)) :
    Priced env b.1 ∧ b.2.2 = grossProceeds b.1 b.2.1 - b.1.stakeUsd := by
  obtain ⟨e, he, hbook⟩ := List.mem_filterMap.mp hb
  obtain ⟨pre, l, post, rfl, hmem⟩ := ((driverMachine env).mem_trace_iff e w ls).mp he
  cases e with
  | booked pos settleTs pnl fill =>
    cases hbook
    obtain ⟨-, ⟨hpriced, hpnl, -, -⟩, -, -⟩ := booked_of_mem env before _ l
      (ledger_run env before w h pre) pos settleTs pnl fill hmem
    exact ⟨hpriced, hpnl⟩
  | _ => cases hbook

/-- Without fees the fills of a run record none. -/
theorem recordedFees_eq_zero (w : World K S) (h : Ledger env w.fills.rows w)
    (ls : List (DriverLabel K)) (booked : List (Position K × FillRow K × K))
    (hfree : env.execCfg.fillParams.feeK = 0 ∨ env.cfg.stakeUsd = 0) :
    recordedFees w.fills.rows ((driverMachine env).final w ls).fills.rows booked = 0 := by
  obtain ⟨written, hrows, hfees⟩ := (ledger_run env _ w h ls).fills
  unfold recordedFees
  rw [hrows, List.drop_left]
  refine List.sum_eq_zero ?_
  intro x hx
  obtain ⟨r, hr, rfl⟩ := List.mem_map.mp hx
  rcases hfees r (List.mem_filter.mp hr).1 with hzero | ⟨pos, hpriced, hfee⟩
  · exact hzero
  · rw [hfee]
    exact hpriced.fee_eq_zero_iff.mpr hfree

/-- A run that resumes no exit fill books nothing. -/
theorem bookings_eq_nil (w : World K S) (h : Ledger env w.fills.rows w)
    (ls : List (DriverLabel K))
    (hno : (driverMachine env).Along (fun w l => resumesExitFill w l = false) w ls) :
    bookings ((driverMachine env).trace w ls) = [] := by
  rw [bookings, List.filterMap_eq_nil_iff]
  intro e he
  obtain ⟨pre, l, post, hls, hmem⟩ := ((driverMachine env).mem_trace_iff e w ls).mp he
  cases e with
  | booked pos settleTs pnl fill =>
    have hres := (booked_of_mem env _ _ l (ledger_run env _ w h pre) _ _ _ _ hmem).1
    rw [hno pre l post hls] at hres
    cases hres
  | _ => rfl

/-- **The paper driver books net pnl exactly when it charges no fee.** Over every run from
a boot, the accounting is net if and only if the fee factor or the stake is zero or no
settlement gets as far as its exit fill.
SOURCE: paper/exec_client.py:232-241, paper/driver.py:455-462 -/
theorem booked_net_iff (strategy : S) (paused : Bool) (rows : Option (List String))
    (dailyPnl : K) (dailyTrades : ℤ) (orders : Table (OrderRow.key (K := K)))
    (fills : Table (FillRow.key (K := K))) (ls : List (DriverLabel K)) :
    NetAccounting env
        (World.boot (DriverState.boot strategy paused rows dailyPnl dailyTrades) orders fills)
        ls ↔
      env.execCfg.fillParams.feeK = 0 ∨ env.cfg.stakeUsd = 0 ∨
        (driverMachine env).Along (fun w l => resumesExitFill w l = false)
          (World.boot (DriverState.boot strategy paused rows dailyPnl dailyTrades) orders
            fills) ls := by
  have hboot := ledger_boot env strategy paused rows dailyPnl dailyTrades orders fills
  generalize hw : World.boot (DriverState.boot strategy paused rows dailyPnl dailyTrades) orders
    fills = w at hboot ⊢
  rw [show fills.rows = w.fills.rows by rw [← hw]; rfl] at hboot
  have hnet : ∀ pre l, BooksNet env ((driverMachine env).final w pre) l ↔ _ := fun pre l =>
    booksNet_iff env w.fills.rows _ l (ledger_run env w.fills.rows w hboot pre)
  constructor
  · intro h
    by_cases hfree : env.execCfg.fillParams.feeK = 0 ∨ env.cfg.stakeUsd = 0
    · exact hfree.elim Or.inl fun hs => Or.inr (Or.inl hs)
    · refine Or.inr (Or.inr fun pre l post hls => ?_)
      rcases (hnet pre l).mp (h.each pre l post hls) with hk | hs | hno
      · exact absurd (Or.inl hk) hfree
      · exact absurd (Or.inr hs) hfree
      · exact hno
  · intro h
    have hsum := sum_bookings (bookings ((driverMachine env).trace w ls)) fun b hb =>
      (mem_bookings env w.fills.rows w hboot ls b hb).2
    refine ⟨fun pre l post hls => (hnet pre l).mpr ?_, ?_⟩
    · rcases h with hk | hs | hno
      · exact Or.inl hk
      · exact Or.inr (Or.inl hs)
      · exact Or.inr (Or.inr (hno pre l post hls))
    · rw [hsum]
      rcases h with hk | hs | hno
      · rw [recordedFees_eq_zero env w hboot ls _ (Or.inl hk), sub_zero]
      · rw [recordedFees_eq_zero env w hboot ls _ (Or.inr hs), sub_zero]
      · simp [bookings_eq_nil env w hboot ls hno, recordedFees]

end Bookings

section Instance

/-- The watchdog goes on after the exit fill. -/
def exitFillLabel : DriverLabel ℚ := ⟨1520, .watchdogResumes ⟨none, .committed⟩⟩

/-- A won position of 5 USD at 0.50 books 5 USD, although its entry fill records a fee of
0.025 USD: net accounting fails.
SOURCE: paper/exec_client.py:235-241 -/
theorem booked_gross_on_win :
    ¬NetAccounting (eagerDriver 60) (eagerBoot []) (settledRun ++ [exitFillLabel]) := by
  intro h
  have hbooks := h.each settledRun exitFillLabel [] rfl
  have hledger := ledger_run (eagerDriver 60) [] (eagerBoot [])
    (ledger_boot (eagerDriver 60) () false (some []) 0 0 Table.empty Table.empty) settledRun
  rcases (booksNet_iff (eagerDriver 60) [] _ exitFillLabel hledger).mp hbooks with hk | hs | hno
  · exact absurd hk (by decide +kernel)
  · exact absurd hs (by decide +kernel)
  · exact absurd hno (by decide +kernel)

/-- With a fee factor of zero the same run is net. -/
theorem booked_net_without_fee :
    NetAccounting { eagerDriver 60 with execCfg := ⟨"eager", ⟨0, 0, 1⟩⟩ } (eagerBoot [])
      (settledRun ++ [exitFillLabel]) :=
  (booked_net_iff _ () false (some []) 0 0 Table.empty Table.empty _).mpr (Or.inl rfl)

end Instance

end TradingEdge.Analysis
