import TradingEdge.Analysis.DriverSteps

/-!
# Where the driver's orders come from

Everything the driver holds or has written stems from an entry that its exec client prepared on
one of the ticks: the entry under way, the open positions, the settlements that wait for their
write, and the rows of both tables.  `Stems` is that invariant, for entries on requests that
satisfy a predicate of the reader's choice.
-/

set_option autoImplicit false

namespace TradingEdge.Analysis

open TradingEdge.Model TradingEdge.Program TradingEdge.Library

variable {K S P : Type} [Field K] [LinearOrder K]

/-- An entry that the exec client prepared on a request that satisfies `Q`. -/
def Prepared (env : DriverEnv K S P) (Q : EntryRequest K → Prop) (a : EntryAttempt K) : Prop :=
  ∃ ks req, Q req ∧ tryEnter env.execLib env.execCfg ks req = .ok a

/-- The position of a prepared entry, under its market. -/
def FromEntry (env : DriverEnv K S P) (Q : EntryRequest K → Prop) (slug : String)
    (pos : Position K) : Prop :=
  slug = pos.marketSlug ∧ ∃ a, Prepared env Q a ∧ a.position = pos

/-- What a settlement of such a position writes.
SOURCE: paper/exec_client.py:232-285 -/
def SettlesEntered (env : DriverEnv K S P) (Q : EntryRequest K → Prop) (pos : Position K)
    (settleTs pnl : K) (fill : FillRow K) : Prop :=
  FromEntry env Q pos.marketSlug pos ∧ ∃ up, pnl = (settleFill pos settleTs up).1.2.2 ∧
    fill = (settleFill pos settleTs up).2

def consumerPoint : Consumer K → Option (SettlePoint K)
  | .settling _ point => some point
  | _ => none

def watchdogPoint : Watchdog K → Option (SettlePoint K)
  | .settling _ point _ => some point
  | .sleeping => none

/-- A settlement that waits for its write settles a position of the driver. -/
def PointStems (env : DriverEnv K S P) (Q : EntryRequest K → Prop) : SettlePoint K → Prop
  | .settleFill pos settleTs pnl fill => SettlesEntered env Q pos settleTs pnl fill
  | _ => True

/-- The row is an old one, or an entry of the driver or a settlement of one wrote it. -/
def FillStems (env : DriverEnv K S P) (Q : EntryRequest K → Prop) (before : List (FillRow K))
    (f : FillRow K) : Prop :=
  f ∈ before ∨ (∃ a, Prepared env Q a ∧ f = a.fill) ∨
    ∃ pos settleTs pnl, SettlesEntered env Q pos settleTs pnl f

/-- Everything the driver holds, or has written since its tables were these, stems from an
entry on a request that satisfies `Q`. -/
structure Stems (env : DriverEnv K S P) (Q : EntryRequest K → Prop) (orders : List (OrderRow K))
    (fills : List (FillRow K)) (w : World K S) : Prop where
  attempt : ∀ a, attemptOf w.consumer = some a → Prepared env Q a
  openPositions : OpenAll (FromEntry env Q) w.driver
  consumer : ∀ point, consumerPoint w.consumer = some point → PointStems env Q point
  watchdog : ∀ point, watchdogPoint w.watchdog = some point → PointStems env Q point
  orderRows : ∀ o ∈ w.orders.rows, o ∈ orders ∨ ∃ a, Prepared env Q a ∧ o = a.order
  fillRows : ∀ f ∈ w.fills.rows, FillStems env Q fills f

section Entry

/-- What an entry prepares, in the terms of the request.
SOURCE: paper/exec_client.py:109-219 -/
theorem tryEnter_rows (lib : ExecLib K) (cfg : ExecConfig K) (killSwitchActive : Bool)
    (req : EntryRequest K) (a : EntryAttempt K)
    (h : tryEnter lib cfg killSwitchActive req = .ok a) :
    a.position.clientOrderId = clientOrderId lib cfg.strategyId req.slug req.ts req.side ∧
      a.order.orderId = a.position.clientOrderId ∧
      a.order.instrumentId = instrumentId req.slug req.side ∧
      a.order.price = a.position.entryPrice ∧ a.order.strategyId = cfg.strategyId ∧
      a.position.entryTs = req.ts ∧
      a.fill.fillId = a.order.orderId ++ "-fill" ∧ a.fill.orderId = a.order.orderId ∧
      a.fill.ts = req.ts + 100 / 1000 ∧
      a.fill.price = a.order.price ∧ a.fill.qty = a.order.qty ∧ a.fill.metadata = .entry := by
  unfold tryEnter at h
  split at h
  · cases h
  split at h
  · cases h
  split at h
  · cases h
  dsimp only at h
  split at h
  · cases h
  split at h
  · cases h
  cases h
  exact ⟨rfl, rfl, rfl, rfl, rfl, rfl, rfl, rfl, rfl, rfl, rfl, rfl⟩

end Entry

section Steps

variable (env : DriverEnv K S P) (Q : EntryRequest K → Prop)

/-- A row in the table after a write was there or is the one written. -/
theorem mem_writeRow {ρ κ : Type} [DecidableEq κ] {key : ρ → κ} (outcome : WriteOutcome)
    (row : ρ) (t : Table key) {r : ρ} (h : r ∈ (writeRow outcome row t).rows) :
    r ∈ t.rows ∨ r = row := by
  unfold writeRow at h
  split at h
  · exact Or.inl h
  · exact t.mem_of_mem_insertNew row h

/-- A write takes no row away. -/
theorem mem_writeRow_of_mem {ρ κ : Type} [DecidableEq κ] {key : ρ → κ} (outcome : WriteOutcome)
    (row : ρ) (t : Table key) {r : ρ} (h : r ∈ t.rows) : r ∈ (writeRow outcome row t).rows := by
  unfold writeRow
  split
  · exact h
  · exact t.mem_insertNew_of_mem row h

/-- A write that is committed inserts the row. -/
theorem writeRow_of_ne_failed {ρ κ : Type} [DecidableEq κ] {key : ρ → κ} (outcome : WriteOutcome)
    (row : ρ) (t : Table key) (h : outcome ≠ .failed) :
    writeRow outcome row t = t.insertNew row := by
  cases outcome with
  | failed => exact absurd rfl h
  | committed => rfl
  | committedThenFailed => rfl

/-- A row that was not refused is there under its key. -/
theorem key_mem_writeRow {ρ κ : Type} [DecidableEq κ] {key : ρ → κ} (outcome : WriteOutcome)
    (row : ρ) (t : Table key) (h : outcome ≠ .failed) :
    key row ∈ (writeRow outcome row t).rows.map key := by
  rw [writeRow_of_ne_failed outcome row t h, Table.rows_insertNew]
  split
  · assumption
  · simp

/-- The row itself is there afterwards if it was there before, or if it is not refused and its
key is new. -/
theorem mem_writeRow_self_iff {ρ κ : Type} [DecidableEq κ] {key : ρ → κ} (outcome : WriteOutcome)
    (row : ρ) (t : Table key) : row ∈ (writeRow outcome row t).rows ↔
      row ∈ t.rows ∨ outcome ≠ .failed ∧ key row ∉ t.rows.map key := by
  by_cases h : outcome = .failed
  · rw [h]
    simp [writeRow]
  · rw [writeRow_of_ne_failed outcome row t h, Table.rows_insertNew]
    split
    · rename_i hold
      simp [hold]
    · rename_i hnew
      simp [h, hnew]

omit [Field K] in
/-- A fill in the table after a settlement's write was there or is the settlement's. -/
theorem mem_pointWrite (point : SettlePoint K) (outcome : WriteOutcome)
    (t : Table (FillRow.key (K := K))) {f : FillRow K} (h : f ∈ (point.write outcome t).rows) :
    f ∈ t.rows ∨ ∃ pos settleTs pnl, point = .settleFill pos settleTs pnl f := by
  cases point with
  | settleFill pos settleTs pnl fill =>
    rcases mem_writeRow outcome fill t h with hold | rfl
    · exact Or.inl hold
    · exact Or.inr ⟨pos, settleTs, pnl, rfl⟩
  | _ => exact Or.inl h

omit [Field K] [LinearOrder K] in
/-- The consumer waits where the settlement does. -/
theorem consumerPoint_after (job : SettleJob K) (status : SettleStatus K) (point : SettlePoint K)
    (h : consumerPoint (consumerAfter job status) = some point) : status = .waiting point := by
  cases status with
  | waiting next => exact congrArg _ (Option.some.inj h)
  | returned => cases h
  | raised => cases h

omit [Field K] [LinearOrder K] in
/-- The watchdog begins a settlement with its first query. -/
theorem watchdogPoint_next (now : K) (rest : List (String × Position K)) (point : SettlePoint K)
    (h : watchdogPoint (Watchdog.next now rest) = some point) : point = .lastTick := by
  cases rest with
  | nil => cases h
  | cons e rest => exact (Option.some.inj h).symm

omit [Field K] [LinearOrder K] in
/-- The watchdog waits where the settlement does, or begins the next one. -/
theorem watchdogPoint_after (job : SettleJob K) (rest : List (String × Position K))
    (status : SettleStatus K) (point : SettlePoint K)
    (h : watchdogPoint (watchdogAfter job rest status) = some point) :
    status = .waiting point ∨ point = .lastTick := by
  cases status with
  | waiting next => exact Or.inl (congrArg _ (Option.some.inj h))
  | returned => exact Or.inr (watchdogPoint_next _ _ _ h)
  | raised => cases h

variable [FloorRing K]

/-- The tick that the step hands to the idle consumer makes the gates send it to the entry, and
the exec client prepares this one.
SOURCE: paper/driver.py:348-416, paper/exec_client.py:80-230 -/
def Enters (w : World K S) (l : DriverLabel K) (a : EntryAttempt K) : Prop :=
  w.consumer = .idle ∧ ∃ d ks risk dec strategy, l.action = .tick d ks ∧
    gateOf env w.driver d = .enter risk dec strategy ∧
    tryEnter env.execLib env.execCfg ks (entryRequest env (conditionIdOf d)
      (observeTick env w.driver d).ctx dec.side) = .ok a

/-- A step enters one thing. -/
theorem Enters.unique {env : DriverEnv K S P} {w : World K S} {l : DriverLabel K}
    {a b : EntryAttempt K} (ha : Enters env w l a) (hb : Enters env w l b) : a = b := by
  obtain ⟨-, d, ks, risk, dec, strategy, haction, hgate, hok⟩ := ha
  obtain ⟨-, d', ks', risk', dec', strategy', haction', hgate', hok'⟩ := hb
  obtain ⟨rfl, rfl⟩ := DriverAction.tick.inj (haction.symm.trans haction')
  obtain ⟨-, rfl, -⟩ := TickGate.enter.inj (hgate.symm.trans hgate')
  exact Except.ok.inj (hok.symm.trans hok')

/-- What a step has under way as its entry. -/
theorem attempt_step (w : World K S) (l : DriverLabel K) (a : EntryAttempt K)
    (h : attemptOf ((driverMachine env).next w l).consumer = some a) :
    attemptOf w.consumer = some a ∨ Enters env w l a := by
  have heffect := driver_tradeEffect env w l
  generalize (driverMachine env).next w l = w' at heffect h
  generalize (driverMachine env).emits w l = es at heffect
  cases heffect with
  | tick d ks action idle driver consumer events =>
    rw [consumer] at h
    obtain ⟨risk, dec, strategy, hgate, hok⟩ := attemptOf_handleTick h
    exact Or.inr ⟨idle, d, ks, risk, dec, strategy, action, hgate, hok⟩
  | enters attempt before after driver events =>
    rw [after] at h
    cases h
  | aside tradeTaken today consumer events noTick => exact Or.inl (consumer a h)

/-- The settlement goes on to the write of this fill, with a position that is open. -/
def GoesToWrite (w : World K S) (point : SettlePoint K) : Prop :=
  ∃ slug pos settleTs up, w.driver.openPositions.get? slug = some pos ∧
    point = .settleFill pos settleTs (settleFill pos settleTs up).1.2.2
      (settleFill pos settleTs up).2

/-- The settlement waits for something else than the write of its fill. -/
def Reads : SettlePoint K → Prop
  | .settleFill _ _ _ _ => False
  | _ => True

/-- A settlement that goes on reads further or goes to its write. -/
theorem settleEffect_point (w : World K S) (clock : K) (job : SettleJob K)
    (reply : DbReply K) (point : SettlePoint K)
    (r : DriverState K S × SettleStatus K × List (DriverEvent K P))
    (effect : SettleEffect env w.driver clock job reply point r) (next : SettlePoint K)
    (hnext : r.2.1 = .waiting next) : Reads next ∨ GoesToWrite w next := by
  cases effect with
  | quiet _ st' status same plain =>
    have hplain := plain next hnext
    cases next with
    | settleFill pos settleTs pnl fill => exact absurd hplain not_false
    | _ => exact Or.inl trivial
  | dropped _ st' same => cases hnext
  | settled _ pos settlePrice settleTs openPrice isOpen reads =>
    cases hnext
    exact Or.inr ⟨job.slug, pos, settleTs, wentUp settlePrice openPrice, isOpen, rfl⟩
  | booked pos settleTs pnl fill =>
    cases hnext
    exact Or.inl trivial

/-- Where the settlements wait after a step. -/
theorem point_step (w : World K S) (l : DriverLabel K) (point : SettlePoint K)
    (h : consumerPoint ((driverMachine env).next w l).consumer = some point ∨
      watchdogPoint ((driverMachine env).next w l).watchdog = some point) :
    (consumerPoint w.consumer = some point ∨ watchdogPoint w.watchdog = some point) ∨
      Reads point ∨ GoesToWrite w point := by
  have heffect := driver_effect env w l
  generalize (driverMachine env).next w l = w' at heffect h
  generalize (driverMachine env).emits w l = es at heffect
  cases heffect with
  | tick d ks action idle =>
    rcases h with h | h
    · dsimp only at h
      rcases handleTick_consumer env w.driver l.clock d ks with hc | ⟨pos, -, -, hc⟩ |
        ⟨risk, dec, strategy, attempt, -, hok, hc⟩
      · rw [hc] at h
        cases h
      · rw [hc] at h
        cases h
        exact Or.inr (Or.inl trivial)
      · rw [hc] at h
        cases h
    · exact Or.inl (Or.inr h)
  | consumerSettles reply job at_ r action consumer effect =>
    rcases h with h | h
    · exact Or.inr (settleEffect_point env w _ _ _ _ _ effect point
        (consumerPoint_after job _ point h))
    · exact Or.inl (Or.inr h)
  | orderWritten reply attempt consumer next hnext =>
    rcases h with h | h
    · rcases hnext with rfl | rfl <;> cases h
    · exact Or.inl (Or.inr h)
  | entryFails reply attempt consumer =>
    rcases h with h | h
    · cases h
    · exact Or.inl (Or.inr h)
  | enters reply attempt consumer =>
    rcases h with h | h
    · cases h
    · exact Or.inl (Or.inr h)
  | notified =>
    rcases h with h | h
    · cases h
    · exact Or.inl (Or.inr h)
  | wakes sleeping =>
    rcases h with h | h
    · exact Or.inl (Or.inl h)
    · rw [watchdogPoint_next _ _ point h]
      exact Or.inr (Or.inl trivial)
  | watchdogSettles reply job at_ rest r action watchdog effect =>
    rcases h with h | h
    · exact Or.inl (Or.inl h)
    · rcases watchdogPoint_after job rest _ point h with hwait | rfl
      · exact Or.inr (settleEffect_point env w _ _ _ _ _ effect point hwait)
      · exact Or.inr (Or.inl trivial)
  | _ => exact Or.inl h

/-- What a step writes: the order or the fill of the entry under way, or the fill that a
settlement waits for. -/
theorem rows_step (w : World K S) (l : DriverLabel K) :
    (∀ o ∈ ((driverMachine env).next w l).orders.rows, o ∈ w.orders.rows ∨
      ∃ a, attemptOf w.consumer = some a ∧ o = a.order) ∧
    ∀ f ∈ ((driverMachine env).next w l).fills.rows, f ∈ w.fills.rows ∨
      (∃ a, attemptOf w.consumer = some a ∧ f = a.fill) ∨
      ∃ point, (consumerPoint w.consumer = some point ∨ watchdogPoint w.watchdog = some point) ∧
        ∃ pos settleTs pnl, point = .settleFill pos settleTs pnl f := by
  have heffect := driver_effect env w l
  generalize (driverMachine env).next w l = w' at heffect ⊢
  generalize (driverMachine env).emits w l = es at heffect
  cases heffect with
  | consumerSettles reply job point r action consumer effect =>
    refine ⟨fun o ho => Or.inl ho, fun f hf => ?_⟩
    rcases mem_pointWrite point reply.write w.fills hf with hold | hnew
    · exact Or.inl hold
    · exact Or.inr (Or.inr ⟨point, Or.inl (by rw [consumer]; rfl), hnew⟩)
  | watchdogSettles reply job point rest r action watchdog effect =>
    refine ⟨fun o ho => Or.inl ho, fun f hf => ?_⟩
    rcases mem_pointWrite point reply.write w.fills hf with hold | hnew
    · exact Or.inl hold
    · exact Or.inr (Or.inr ⟨point, Or.inr (by rw [watchdog]; rfl), hnew⟩)
  | orderWritten reply attempt consumer next hnext =>
    refine ⟨fun o ho => ?_, fun f hf => Or.inl hf⟩
    rcases mem_writeRow reply.write attempt.order w.orders ho with hold | rfl
    · exact Or.inl hold
    · exact Or.inr ⟨attempt, by rw [consumer]; rfl, rfl⟩
  | entryFails reply attempt consumer =>
    refine ⟨fun o ho => Or.inl ho, fun f hf => ?_⟩
    rcases mem_writeRow reply.write attempt.fill w.fills hf with hold | rfl
    · exact Or.inl hold
    · exact Or.inr (Or.inl ⟨attempt, by rw [consumer]; rfl, rfl⟩)
  | enters reply attempt consumer =>
    refine ⟨fun o ho => Or.inl ho, fun f hf => ?_⟩
    rcases mem_writeRow reply.write attempt.fill w.fills hf with hold | rfl
    · exact Or.inl hold
    · exact Or.inr (Or.inl ⟨attempt, by rw [consumer]; rfl, rfl⟩)
  | _ => exact ⟨fun o ho => Or.inl ho, fun f hf => Or.inl hf⟩

/-- **One step keeps the provenance**, if what it enters is prepared on such a request. -/
theorem stems_step (orders : List (OrderRow K)) (fills : List (FillRow K)) (w : World K S)
    (l : DriverLabel K) (h : Stems env Q orders fills w)
    (henters : ∀ a, Enters env w l a → Prepared env Q a) :
    Stems env Q orders fills ((driverMachine env).next w l) := by
  have hpoint : ∀ point, consumerPoint ((driverMachine env).next w l).consumer = some point ∨
      watchdogPoint ((driverMachine env).next w l).watchdog = some point →
      PointStems env Q point := by
    intro point hpoint
    rcases point_step env w l point hpoint with hold | hreads | ⟨slug, pos, settleTs, up, hget, rfl⟩
    · rcases hold with hold | hold
      · exact h.consumer point hold
      · exact h.watchdog point hold
    · cases point with
      | settleFill pos settleTs pnl fill => exact absurd hreads not_false
      | _ => trivial
    · obtain ⟨-, ha⟩ := h.openPositions slug pos hget
      exact ⟨⟨rfl, ha⟩, up, rfl, rfl⟩
  obtain ⟨horders, hfills⟩ := rows_step env w l
  refine ⟨?_, ?_, fun point hp => hpoint point (Or.inl hp),
    fun point hp => hpoint point (Or.inr hp), ?_, ?_⟩
  · intro a ha
    rcases attempt_step env w l a ha with hold | hnew
    · exact h.attempt a hold
    · exact henters a hnew
  · exact openAll_step env w l h.openPositions fun a ha => ⟨rfl, a, h.attempt a ha, rfl⟩
  · intro o ho
    rcases horders o ho with hold | ⟨a, ha, rfl⟩
    · exact h.orderRows o hold
    · exact Or.inr ⟨a, h.attempt a ha, rfl⟩
  · intro f hf
    rcases hfills f hf with hold | ⟨a, ha, rfl⟩ | ⟨point, hwaits, pos, settleTs, pnl, rfl⟩
    · exact h.fillRows f hold
    · exact Or.inr (Or.inl ⟨a, h.attempt a ha, rfl⟩)
    · refine Or.inr (Or.inr ⟨pos, settleTs, pnl, ?_⟩)
      rcases hwaits with hwaits | hwaits
      · exact h.consumer _ hwaits
      · exact h.watchdog _ hwaits

/-- At the boot nothing is held and nothing has been written. -/
theorem stems_boot (strategy : S) (paused : Bool) (rows : Option (List String)) (dailyPnl : K)
    (dailyTrades : ℤ) (orders : Table (OrderRow.key (K := K)))
    (fills : Table (FillRow.key (K := K))) :
    Stems env Q orders.rows fills.rows (World.boot
      (DriverState.boot strategy paused rows dailyPnl dailyTrades) orders fills) := by
  refine ⟨?_, ?_, ?_, ?_, fun o ho => Or.inl ho, fun f hf => Or.inl hf⟩
  · intro a ha
    cases ha
  · intro slug pos hget
    simp [World.boot, DriverState.boot] at hget
  · intro point hpoint
    cases hpoint
  · intro point hpoint
    cases hpoint

/-- In every run, all that the driver holds or writes stems from entries. -/
theorem stems_run (strategy : S) (paused : Bool) (rows : Option (List String)) (dailyPnl : K)
    (dailyTrades : ℤ) (orders : Table (OrderRow.key (K := K)))
    (fills : Table (FillRow.key (K := K))) (ls : List (DriverLabel K)) :
    Stems env (fun _ => True) orders.rows fills.rows ((driverMachine env).final (World.boot
      (DriverState.boot strategy paused rows dailyPnl dailyTrades) orders fills) ls) := by
  induction ls using List.reverseRecOn with
  | nil => exact stems_boot env _ strategy paused rows dailyPnl dailyTrades orders fills
  | append_singleton ls l ih =>
    rw [Machine.final_concat]
    refine stems_step env _ orders.rows fills.rows _ l ih ?_
    rintro a ⟨-, d, ks, risk, dec, strategy', -, -, hok⟩
    exact ⟨ks, _, trivial, hok⟩

end Steps

end TradingEdge.Analysis
