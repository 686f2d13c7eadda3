import TradingEdge.Library.Custody
import TradingEdge.Program.PaperDriver

/-!
# What one step of the paper driver does

The invariants of the driver are about four of its fields: the open positions, the set of
traded markets, the day and the daily pnl.  This file says once what each stretch of code
does to them and which events it emits, so that the run-level results never unfold the
driver.

A handled tick is read in two halves.  `gateState` is the driver after the buffers, the day
roll and the first daily pause gate; `gateOf` is where the gates then send the tick, and
`atGate` what happens there.
-/

set_option autoImplicit false

namespace TradingEdge.Analysis

open TradingEdge.Model TradingEdge.Program TradingEdge.Library

variable {K S P : Type} [Field K] [LinearOrder K]

/-! ## The first half of a tick -/

section Tick

variable (env : DriverEnv K S P) (st : DriverState K S) (d : TickDict K)

/-- The context has the tick's time. -/
@[simp] theorem observeTick_ctx_ts : (observeTick env st d).ctx.ts = d.ts := rfl

/-- The context has the tick's market. -/
@[simp] theorem observeTick_ctx_marketSlug :
    (observeTick env st d).ctx.marketSlug = d.marketSlug := rfl

/-- The context has the tick's second of the window, zero if it has none. -/
@[simp] theorem observeTick_ctx_tInWindow :
    (observeTick env st d).ctx.tInWindow = orZero d.tInWindow := rfl

/-- The context has the tick's closing time. -/
@[simp] theorem observeTick_ctx_windowCloseTs :
    (observeTick env st d).ctx.windowCloseTs = d.windowCloseTs := rfl

omit [LinearOrder K] in
/-- An entry is requested for the market of the context. -/
@[simp] theorem entryRequest_slug (cid : String) (ctx : TickContext K) (side : Side) :
    (entryRequest env cid ctx side).slug = ctx.marketSlug := rfl

omit [LinearOrder K] in
/-- An entry is requested with the closing time of the context. -/
@[simp] theorem entryRequest_windowCloseTs (cid : String) (ctx : TickContext K) (side : Side) :
    (entryRequest env cid ctx side).windowCloseTs = ctx.windowCloseTs := rfl

variable [FloorRing K]

/-- The driver after the day roll. -/
def rolledState : DriverState K S :=
  (observeTick env st d).driver.rollDay (observeTick env st d).ctx.ts

/-- Where the gates send the tick. -/
def gateOf : TickGate K S P :=
  tickGate env (gateState env st d) (observeTick env st d).ctx
    (observeTick env st d).recentTicks

/-- The day changes at this tick. -/
def Rolls : Prop := some (utcDay d.ts) ≠ st.today

instance : Decidable (Rolls st d) := inferInstanceAs (Decidable (_ ≠ _))

/-- The day roll, field by field. -/
theorem rolledState_eq :
    rolledState env st d =
      if Rolls st d then
        { (observeTick env st d).driver with
          today := some (utcDay d.ts), dailyPnl := 0, dailyTrades := 0, tradeTaken := ∅ }
      else (observeTick env st d).driver := rfl

/-- What the day roll reports. -/
theorem rollEvents_eq :
    (observeTick env st d).driver.rollEvents d.ts =
      if Rolls st d then ([.dayRolled (utcDay d.ts)] : List (DriverEvent K P)) else [] := rfl

/-- The day roll leaves the positions alone. -/
@[simp] theorem rolledState_openPositions :
    (rolledState env st d).openPositions = st.openPositions := by
  rw [rolledState_eq]
  split <;> rfl

/-- The day roll leaves the pause alone. -/
@[simp] theorem rolledState_paused : (rolledState env st d).paused = st.paused := by
  rw [rolledState_eq]
  split <;> rfl

/-- After the roll the day is that of the tick. -/
@[simp] theorem rolledState_today : (rolledState env st d).today = some (utcDay d.ts) := by
  rw [rolledState_eq]
  split
  · rfl
  · rename_i h
    exact (not_not.mp h).symm

/-- A roll sets the daily pnl to zero. -/
theorem rolledState_dailyPnl :
    (rolledState env st d).dailyPnl = if Rolls st d then 0 else st.dailyPnl := by
  rw [rolledState_eq]
  split <;> rfl

/-- A roll forgets which markets were traded. -/
theorem rolledState_tradeTaken :
    (rolledState env st d).tradeTaken = if Rolls st d then ∅ else st.tradeTaken := by
  rw [rolledState_eq]
  split <;> rfl

/-- At the gates: the rolled driver, with the market added if it is marked. -/
theorem gateState_eq :
    gateState env st d =
      if DailyPauseMarks env (rolledState env st d) d.marketSlug then
        { rolledState env st d with
          tradeTaken := insert d.marketSlug (rolledState env st d).tradeTaken }
      else rolledState env st d := rfl

/-- The gates leave the positions alone. -/
@[simp] theorem gateState_openPositions :
    (gateState env st d).openPositions = st.openPositions := by
  rw [gateState_eq, ← rolledState_openPositions env st d]
  split <;> rfl

/-- The gates leave the pause alone. -/
@[simp] theorem gateState_paused : (gateState env st d).paused = st.paused := by
  rw [gateState_eq, ← rolledState_paused env st d]
  split <;> rfl

/-- At the gates the day is that of the tick. -/
@[simp] theorem gateState_today : (gateState env st d).today = some (utcDay d.ts) := by
  rw [gateState_eq, ← rolledState_today env st d]
  split <;> rfl

/-- The gates leave the rolled pnl alone. -/
@[simp] theorem gateState_dailyPnl :
    (gateState env st d).dailyPnl = (rolledState env st d).dailyPnl := by
  rw [gateState_eq]
  split <;> rfl

/-- The gates before the risk manager leave its state alone. -/
@[simp] theorem gateState_risk : (gateState env st d).risk = st.risk := by
  rw [gateState_eq, rolledState_eq]
  split <;> split <;> rfl

/-- The gates leave the strategy alone. -/
@[simp] theorem gateState_strategy : (gateState env st d).strategy = st.strategy := by
  rw [gateState_eq, rolledState_eq]
  split <;> split <;> rfl

/-- The traded markets at the gates: those after the roll, and this one if it is marked. -/
theorem mem_gateState_tradeTaken (slug : String) :
    slug ∈ (gateState env st d).tradeTaken ↔
      slug ∈ (rolledState env st d).tradeTaken ∨
        slug = d.marketSlug ∧ DailyPauseMarks env (rolledState env st d) d.marketSlug := by
  rw [gateState_eq]
  split
  · rename_i h
    simp only [Finset.mem_insert, h, and_true]
    exact or_comm
  · rename_i h
    simp [h]

end Tick

/-! ## The gates -/

section Gates

variable [FloorRing K] (env : DriverEnv K S P) (st : DriverState K S) (ctx : TickContext K)
  (recent : List (TickContext K))

/-- A tick is sent on to the entry exactly when it passes every gate.
SOURCE: paper/driver.py:332-400 -/
theorem tickGate_eq_enter_iff (risk : RiskState K) (dec : Decision P) (strategy : S) :
    tickGate env st ctx recent = .enter risk dec strategy ↔
      st.paused = false ∧ st.openPositions.get? ctx.marketSlug = none ∧
        ctx.marketSlug ∉ st.tradeTaken ∧ env.cfg.InEntryWindow ctx.tInWindow ∧
        env.cfg.dailyPausePnlThreshold < st.dailyPnl ∧
        canEnter env.riskCfg st.risk ctx = (none, risk) ∧
        env.strategy.shouldEnter st.strategy ctx recent = (dec, strategy) ∧
        dec.action = .enter := by
  constructor
  · intro h
    unfold tickGate at h
    split at h
    · cases h
    rename_i hpaused
    split at h
    · split at h <;> cases h
    rename_i hopen
    split at h
    · cases h
    rename_i htaken
    split at h
    · cases h
    rename_i hwindow
    split at h
    · cases h
    rename_i hpnl
    split at h
    · cases h
    rename_i risk' hrisk
    rcases hd : env.strategy.shouldEnter st.strategy ctx recent with ⟨dec', strategy'⟩
    cases hact : dec'.action with
    | skip => simp [hd, hact] at h
    | enter =>
      simp only [hd, hact, TickGate.enter.injEq] at h
      obtain ⟨rfl, rfl, rfl⟩ := h
      exact ⟨by simpa using hpaused, hopen, htaken, not_not.mp hwindow, not_le.mp hpnl, hrisk,
        rfl, hact⟩
  · rintro ⟨hpaused, hopen, htaken, hwindow, hpnl, hrisk, hd, hact⟩
    unfold tickGate
    simp [hpaused, hopen, htaken, hwindow, hpnl.not_ge, hrisk, hd, hact]

/-- A tick is sent to settlement only with an open position and 300 s into the window. -/
theorem tickGate_eq_settle (pos : Position K)
    (h : tickGate env st ctx recent = .settle pos) :
    st.openPositions.get? ctx.marketSlug = some pos ∧ 300 ≤ ctx.tInWindow := by
  unfold tickGate at h
  split at h
  · cases h
  split at h
  · rename_i hopen
    split at h
    · rename_i ht
      cases h
      exact ⟨hopen, ht⟩
    · cases h
  split at h
  · cases h
  split at h
  · cases h
  split at h
  · cases h
  split at h
  · cases h
  split at h
  split at h <;> cases h

end Gates

/-! ## What happens at a gate -/

section AtGate

variable (env : DriverEnv K S P) (st : DriverState K S) (clock : K) (cid : String)
  (ks : Bool) (ctx : TickContext K) (gate : TickGate K S P)

/-- No gate touches the positions, the day, the daily pnl or the pause. -/
theorem atGate_frame :
    (atGate env st clock cid ks ctx gate).1.openPositions = st.openPositions ∧
      (atGate env st clock cid ks ctx gate).1.dailyPnl = st.dailyPnl ∧
      (atGate env st clock cid ks ctx gate).1.today = st.today ∧
      (atGate env st clock cid ks ctx gate).1.paused = st.paused := by
  cases gate with
  | taken => unfold atGate; dsimp only; split <;> exact ⟨rfl, rfl, rfl, rfl⟩
  | outOfWindow => unfold atGate; dsimp only; split <;> exact ⟨rfl, rfl, rfl, rfl⟩
  | enter risk dec strategy => unfold atGate; dsimp only; split <;> exact ⟨rfl, rfl, rfl, rfl⟩
  | _ => exact ⟨rfl, rfl, rfl, rfl⟩

/-- The only change to the traded markets is the discard of a market after its window. -/
theorem atGate_tradeTaken :
    (atGate env st clock cid ks ctx gate).1.tradeTaken = st.tradeTaken ∨
      300 ≤ ctx.tInWindow ∧ (atGate env st clock cid ks ctx gate).1.tradeTaken =
        st.tradeTaken.erase ctx.marketSlug := by
  cases gate with
  | taken =>
    unfold atGate
    dsimp only
    split
    · rename_i ht
      exact Or.inr ⟨ht, rfl⟩
    · exact Or.inl rfl
  | outOfWindow => unfold atGate; dsimp only; split <;> exact Or.inl rfl
  | enter risk dec strategy => unfold atGate; dsimp only; split <;> exact Or.inl rfl
  | _ => exact Or.inl rfl

/-- The events of a gate: the decision of the strategy, and the entry attempt. -/
theorem mem_atGate_events (e : DriverEvent K P)
    (he : e ∈ (atGate env st clock cid ks ctx gate).2.2) :
    (∃ dec, e = .decided ctx.marketSlug dec ∧
        ((∃ risk strategy, gate = .strategySkip risk dec strategy) ∨
          ∃ risk strategy, gate = .enter risk dec strategy)) ∨
      ∃ risk dec strategy, gate = .enter risk dec strategy ∧
        e = .tryEnter (entryRequest env cid ctx dec.side) := by
  cases gate with
  | taken => unfold atGate at he; dsimp only at he; split at he <;> cases he
  | outOfWindow => unfold atGate at he; dsimp only at he; split at he <;> cases he
  | strategySkip risk dec strategy =>
    rw [show e = .decided ctx.marketSlug dec by simpa [atGate] using he]
    exact Or.inl ⟨dec, rfl, Or.inl ⟨risk, strategy, rfl⟩⟩
  | enter risk dec strategy =>
    have hcases : e = .decided ctx.marketSlug dec ∨
        e = .tryEnter (entryRequest env cid ctx dec.side) := by
      unfold atGate at he
      dsimp only at he
      split at he <;> simpa using he
    rcases hcases with rfl | rfl
    · exact Or.inl ⟨dec, rfl, Or.inr ⟨risk, strategy, rfl⟩⟩
    · exact Or.inr ⟨risk, dec, strategy, rfl, rfl⟩
  | _ => cases he

/-- A tick that passes every gate is decided and calls `try_enter`. -/
theorem atGate_enter_events (risk : RiskState K) (dec : Decision P) (strategy : S) :
    (atGate env st clock cid ks ctx (.enter risk dec strategy)).2.2 =
      [.decided ctx.marketSlug dec, .tryEnter (entryRequest env cid ctx dec.side)] := by
  unfold atGate
  dsimp only
  split <;> rfl

/-- What the consumer waits for after a tick: nothing, the settlement of the market's
position, or the order row of an entry that passed its guards. -/
theorem atGate_consumer :
    (atGate env st clock cid ks ctx gate).2.1 = .idle ∨
      (∃ pos, gate = .settle pos ∧ (atGate env st clock cid ks ctx gate).2.1 =
        .settling ⟨ctx.marketSlug, pos, clock⟩ .lastTick) ∨
      ∃ risk dec strategy attempt, gate = .enter risk dec strategy ∧
        tryEnter env.execLib env.execCfg ks (entryRequest env cid ctx dec.side) =
          .ok attempt ∧
        (atGate env st clock cid ks ctx gate).2.1 = .persistingOrder attempt := by
  cases gate with
  | taken => unfold atGate; dsimp only; split <;> exact Or.inl rfl
  | outOfWindow => unfold atGate; dsimp only; split <;> exact Or.inl rfl
  | settle pos => exact Or.inr (Or.inl ⟨pos, rfl, rfl⟩)
  | enter risk dec strategy =>
    unfold atGate
    dsimp only
    split
    · exact Or.inl rfl
    · rename_i attempt hok
      exact Or.inr (Or.inr ⟨risk, dec, strategy, attempt, rfl, hok, rfl⟩)
  | _ => exact Or.inl rfl

end AtGate

/-! ## The whole tick -/

section WholeTick

variable [FloorRing K] (env : DriverEnv K S P) (st : DriverState K S) (clock : K)
  (d : TickDict K) (ks : Bool)

/-- The second half of a tick. -/
def gated : DriverState K S × Consumer K × List (DriverEvent K P) :=
  atGate env (gateState env st d) clock (conditionIdOf d) ks (observeTick env st d).ctx
    (gateOf env st d)

/-- A handled tick is its two halves, and reports what both do. -/
theorem handleTick_eq :
    handleTick env st clock d ks =
      ((gated env st clock d ks).1, (gated env st clock d ks).2.1,
        .tickHandled (observeTick env st d).ctx ::
          (observeTick env st d).driver.rollEvents d.ts ++
          pauseEvents env (rolledState env st d) d.marketSlug ++
          (gated env st clock d ks).2.2) := rfl

/-- A tick opens and closes no position by itself: its entry is under way. -/
@[simp] theorem handleTick_openPositions :
    (handleTick env st clock d ks).1.openPositions = st.openPositions := by
  rw [handleTick_eq, ← gateState_openPositions env st d]
  exact (atGate_frame env _ _ _ _ _ _).1

/-- A tick changes the daily pnl by the roll only. -/
@[simp] theorem handleTick_dailyPnl :
    (handleTick env st clock d ks).1.dailyPnl = (rolledState env st d).dailyPnl := by
  rw [handleTick_eq, ← gateState_dailyPnl env st d]
  exact (atGate_frame env _ _ _ _ _ _).2.1

/-- After a tick the day is its own. -/
@[simp] theorem handleTick_today :
    (handleTick env st clock d ks).1.today = some (utcDay d.ts) := by
  rw [handleTick_eq, ← gateState_today env st d]
  exact (atGate_frame env _ _ _ _ _ _).2.2.1

/-- A tick neither pauses nor resumes. -/
@[simp] theorem handleTick_paused : (handleTick env st clock d ks).1.paused = st.paused := by
  rw [handleTick_eq, ← gateState_paused env st d]
  exact (atGate_frame env _ _ _ _ _ _).2.2.2

/-- A tick only ever enters through the gates, with the position the exec client prepared,
or leaves the consumer to settle an open position 300 s into its window. -/
theorem handleTick_consumer :
    (handleTick env st clock d ks).2.1 = .idle ∨
      (∃ pos, st.openPositions.get? d.marketSlug = some pos ∧ 300 ≤ orZero d.tInWindow ∧
        (handleTick env st clock d ks).2.1 =
          .settling ⟨d.marketSlug, pos, clock⟩ .lastTick) ∨
      ∃ risk dec strategy attempt, gateOf env st d = .enter risk dec strategy ∧
        tryEnter env.execLib env.execCfg ks (entryRequest env (conditionIdOf d)
          (observeTick env st d).ctx dec.side) = .ok attempt ∧
        (handleTick env st clock d ks).2.1 = .persistingOrder attempt := by
  rcases atGate_consumer env (gateState env st d) clock (conditionIdOf d) ks
    (observeTick env st d).ctx (gateOf env st d) with h | ⟨pos, hgate, h⟩ | h
  · exact Or.inl h
  · obtain ⟨hopen, ht⟩ := tickGate_eq_settle env _ _ _ pos hgate
    rw [gateState_openPositions] at hopen
    exact Or.inr (Or.inl ⟨pos, hopen, ht, h⟩)
  · exact Or.inr (Or.inr h)

/-- What a tick can report.  None of it is about money: the events of a tick are its
context, the day roll, the daily pause mark, the decision and the call of `try_enter`. -/
theorem mem_handleTick_events (e : DriverEvent K P)
    (he : e ∈ (handleTick env st clock d ks).2.2) :
    e = .tickHandled (observeTick env st d).ctx ∨
      (Rolls st d ∧ e = .dayRolled (utcDay d.ts)) ∨
      (DailyPauseMarks env (rolledState env st d) d.marketSlug ∧
        e = .pauseMarked d.marketSlug) ∨
      (∃ dec, e = .decided d.marketSlug dec) ∨
      ∃ risk dec strategy, gateOf env st d = .enter risk dec strategy ∧
        e = .tryEnter (entryRequest env (conditionIdOf d) (observeTick env st d).ctx
          dec.side) := by
  rw [handleTick_eq] at he
  simp only [List.cons_append, List.mem_cons, List.mem_append] at he
  rcases he with rfl | (he | he) | he
  · exact Or.inl rfl
  · right; left
    unfold DriverState.rollEvents at he
    split at he
    · rename_i hroll
      exact ⟨hroll, by simpa using he⟩
    · cases he
  · right; right; left
    unfold pauseEvents at he
    split at he
    · rename_i hmark
      exact ⟨hmark, by simpa using he⟩
    · cases he
  · right; right; right
    rcases mem_atGate_events env _ _ _ _ _ _ e he with ⟨dec, rfl, -⟩ | h
    · exact Or.inl ⟨dec, rfl⟩
    · exact Or.inr h

/-- A gate other than the set of traded markets refuses the tick: the pause, an open
position, the entry window, the daily loss limit, the risk manager or the strategy. -/
def GatesRefuse : Prop :=
  st.paused = true ∨ st.openPositions.get? d.marketSlug ≠ none ∨
    ¬env.cfg.InEntryWindow (orZero d.tInWindow) ∨
    (rolledState env st d).dailyPnl ≤ env.cfg.dailyPausePnlThreshold ∨
    (canEnter env.riskCfg st.risk (observeTick env st d).ctx).1 ≠ none ∨
    (env.strategy.shouldEnter st.strategy (observeTick env st d).ctx
      (observeTick env st d).recentTicks).1.action = .skip

/-- A tick goes to the entry exactly when its market is not marked and no other gate
refuses it. -/
theorem gateOf_enter_iff :
    (∃ risk dec strategy, gateOf env st d = .enter risk dec strategy) ↔
      d.marketSlug ∉ (gateState env st d).tradeTaken ∧ ¬GatesRefuse env st d := by
  have hiff := tickGate_eq_enter_iff env (gateState env st d) (observeTick env st d).ctx
    (observeTick env st d).recentTicks
  simp only [gateState_paused, gateState_openPositions, gateState_dailyPnl, gateState_risk,
    gateState_strategy, observeTick_ctx_marketSlug, observeTick_ctx_tInWindow] at hiff
  unfold GatesRefuse
  push Not
  constructor
  · rintro ⟨risk, dec, strategy, h⟩
    obtain ⟨hpaused, hopen, htaken, hwindow, hpnl, hrisk, hdec, hact⟩ :=
      (hiff risk dec strategy).mp h
    refine ⟨htaken, by rw [hpaused]; exact Bool.false_ne_true, hopen, hwindow, hpnl, ?_, ?_⟩
    · rw [hrisk]
    · rw [hdec, hact]
      decide
  · rintro ⟨htaken, hpaused, hopen, hwindow, hpnl, hrisk, hact⟩
    have hpass : canEnter env.riskCfg st.risk (observeTick env st d).ctx =
        (none, (canEnter env.riskCfg st.risk (observeTick env st d).ctx).2) :=
      Prod.ext hrisk rfl
    refine ⟨_, _, _, (hiff _ _ _).mpr ⟨?_, hopen, htaken, hwindow, hpnl, hpass, rfl, ?_⟩⟩
    · simpa using hpaused
    · revert hact
      cases (env.strategy.shouldEnter st.strategy (observeTick env st d).ctx
        (observeTick env st d).recentTicks).1.action with
      | enter => exact fun _ => rfl
      | skip => exact fun h => absurd rfl h

end WholeTick

/-! ## Settlement -/

/-- Two driver states differ in the per-market buffers only. -/
structure SameAccounts (st st' : DriverState K S) : Prop where
  openPositions : st'.openPositions = st.openPositions
  tradeTaken : st'.tradeTaken = st.tradeTaken
  today : st'.today = st.today
  dailyPnl : st'.dailyPnl = st.dailyPnl
  paused : st'.paused = st.paused
  risk : st'.risk = st.risk
  strategy : st'.strategy = st.strategy

omit [Field K] [LinearOrder K] in
/-- A state has the accounts of itself. -/
theorem SameAccounts.refl (st : DriverState K S) : SameAccounts st st :=
  ⟨rfl, rfl, rfl, rfl, rfl, rfl, rfl⟩

omit [Field K] [LinearOrder K] in
/-- Cleaning up after a market leaves the accounts alone. -/
theorem sameAccounts_cleanupMarket (st : DriverState K S) (slug : String) :
    SameAccounts st (st.cleanupMarket slug) :=
  ⟨rfl, rfl, rfl, rfl, rfl, rfl, rfl⟩

/-- So does the cleanup of orphaned markets. -/
theorem sameAccounts_orphanCleanup (st : DriverState K S) (now : K) :
    SameAccounts st (st.orphanCleanup now) := by
  unfold DriverState.orphanCleanup
  generalize (st.lastTickAt.entries.filter fun e =>
    600 < now - e.2 ∧ (st.openPositions.get? e.1).isNone) = stale
  induction stale generalizing st with
  | nil => exact SameAccounts.refl st
  | cons e stale ih =>
    obtain ⟨h1, h2, h3, h4, h5, h6, h7⟩ := ih (st.cleanupMarket e.1)
    exact ⟨h1, h2, h3, h4, h5, h6, h7⟩

section Settle

variable [FloorRing K]

/-- The open price a settlement compares with: the answer of the first-tick query, or of
the candle query where the first one found nothing.
SOURCE: paper/driver.py:539-545 -/
def ReadsOpen (job : SettleJob K) (reply : DbReply K) (openPrice : K) :
    SettlePoint K → Prop
  | .firstTick _ _ => (firstPaperTickSpot reply.tables job.pos.conditionId
      job.pos.windowCloseTs).1 = some openPrice
  | .ohlcvOpen _ _ =>
    (ohlcvCloseAt reply.tables (job.pos.windowCloseTs - 300)).1 = some openPrice
  | _ => False

/-- Where a stretch that touches no account can wait next: not for the exit fill, and for the
candle of the open only if the first-tick query found nothing. -/
def QuietNext (job : SettleJob K) (reply : DbReply K) (point : SettlePoint K) :
    SettlePoint K → Prop
  | .settleFill _ _ _ _ => False
  | .ohlcvOpen settlePrice settleTs => point = .firstTick settlePrice settleTs ∧
    (firstPaperTickSpot reply.tables job.pos.conditionId job.pos.windowCloseTs).1 = none
  | _ => True

/-- What one stretch of a settlement can do to the accounts: nothing, drop the position of
its market, hand it to `exec.settle`, or book the pnl that call returned. -/
inductive SettleEffect (env : DriverEnv K S P) (st : DriverState K S) (clock : K)
    (job : SettleJob K) (reply : DbReply K) : SettlePoint K →
    DriverState K S × SettleStatus K × List (DriverEvent K P) → Prop where
  | quiet (point : SettlePoint K) (st' : DriverState K S) (status : SettleStatus K)
      (same : SameAccounts st st')
      (plain : ∀ next, status = .waiting next → QuietNext job reply point next) :
      SettleEffect env st clock job reply point (st', status, [])
  | dropped (point : SettlePoint K) (st' : DriverState K S)
      (same : SameAccounts { st with openPositions := st.openPositions.pop job.slug } st') :
      SettleEffect env st clock job reply point
        (st', .returned, (st.openPositions.get? job.slug).toList.map .dropped)
  | settled (point : SettlePoint K) (pos : Position K) (settlePrice settleTs openPrice : K)
      (isOpen : st.openPositions.get? job.slug = some pos)
      (reads : ReadsOpen job reply openPrice point) :
      SettleEffect env st clock job reply point
        ({ st with openPositions := st.openPositions.pop job.slug },
          .waiting (.settleFill pos settleTs
            (settleFill pos settleTs (wentUp settlePrice openPrice)).1.2.2
            (settleFill pos settleTs (wentUp settlePrice openPrice)).2),
          [.settled ⟨clock, pos, settleTs, settlePrice, openPrice,
            wentUp settlePrice openPrice⟩])
  | booked (pos : Position K) (settleTs pnl : K) (fill : FillRow K) :
      SettleEffect env st clock job reply (.settleFill pos settleTs pnl fill)
        ({ st with
            dailyPnl := st.dailyPnl + pnl
            risk := onTradeClosed env.riskCfg st.risk pnl settleTs },
          .waiting .tradeClose, [.booked pos settleTs pnl fill])

variable (env : DriverEnv K S P) (st : DriverState K S) (clock : K) (job : SettleJob K)
  (reply : DbReply K)

/-- A stretch that changes no account and does not stop inside `exec.settle`. -/
theorem settleEffect_still (point : SettlePoint K) (status : SettleStatus K)
    (plain : ∀ next, status = .waiting next → QuietNext job reply point next) :
    SettleEffect env st clock job reply point (st, status, []) :=
  .quiet point st status (SameAccounts.refl st) plain

/-- What a settlement does once it has read the settle price. -/
theorem afterSettlePrice_effect (point : SettlePoint K) (price : Option K) (settleTs : K) :
    SettleEffect env st clock job reply point (afterSettlePrice st job price settleTs) := by
  unfold afterSettlePrice
  cases price with
  | none =>
    dsimp only
    split
    · exact .dropped point _ (sameAccounts_cleanupMarket _ _)
    · exact settleEffect_still env st clock job reply point _ (by rintro _ ⟨⟩)
  | some price =>
    dsimp only
    split
    · exact settleEffect_still env st clock job reply point _ (by rintro _ ⟨⟩)
    · refine settleEffect_still env st clock job reply point _ ?_
      rintro _ ⟨⟩
      trivial

/-- What a settlement does once it has read the opening price. -/
theorem afterOpenPrice_effect (point : SettlePoint K) (settlePrice settleTs : K)
    (openPrice : Option K) (h : ∀ p, openPrice = some p → ReadsOpen job reply p point) :
    SettleEffect env st clock job reply point
      (afterOpenPrice st clock job settlePrice settleTs openPrice) := by
  unfold afterOpenPrice
  cases openPrice with
  | none => exact settleEffect_still env st clock job reply point _ (by rintro _ ⟨⟩)
  | some p =>
    dsimp only
    split
    · exact settleEffect_still env st clock job reply point _ (by rintro _ ⟨⟩)
    · unfold settleFromValues
      cases hopen : st.openPositions.get? job.slug with
      | none => exact settleEffect_still env st clock job reply point _ (by rintro _ ⟨⟩)
      | some pos => exact .settled point pos settlePrice settleTs p hopen (h p rfl)

/-- Every stretch of a settlement has one of the four effects.
SOURCE: paper/driver.py:511-562, 442-482 -/
theorem settleStep_effect (point : SettlePoint K) :
    SettleEffect env st clock job reply point (settleStep env st clock job point reply) := by
  unfold settleStep
  cases point with
  | lastTick =>
    dsimp only
    split
    · refine settleEffect_still env st clock job reply _ _ ?_
      rintro _ ⟨⟩
      trivial
    · exact afterSettlePrice_effect env st clock job reply _ _ _
  | ohlcvClose => exact afterSettlePrice_effect env st clock job reply _ _ _
  | firstTick settlePrice settleTs =>
    dsimp only
    split
    · rename_i hnone
      refine settleEffect_still env st clock job reply _ _ ?_
      rintro _ ⟨⟩
      exact ⟨rfl, hnone⟩
    · rename_i p hp
      refine afterOpenPrice_effect env st clock job reply _ _ _ _ ?_
      rintro _ ⟨⟩
      exact hp
  | ohlcvOpen settlePrice settleTs =>
    exact afterOpenPrice_effect env st clock job reply _ _ _ _ fun p hp => hp
  | settleFill pos settleTs pnl fill => exact .booked pos settleTs pnl fill
  | tradeClose =>
    dsimp only
    split
    · refine settleEffect_still env st clock job reply _ _ ?_
      rintro _ ⟨⟩
      trivial
    · exact .quiet _ _ _ (sameAccounts_cleanupMarket st job.slug) (by rintro _ ⟨⟩)
  | lossThreshold => exact .quiet _ _ _ (sameAccounts_cleanupMarket st job.slug) (by rintro _ ⟨⟩)

variable {env st clock job reply} in
/-- A stretch that books has waited for the write of that fill, and moves the daily pnl and the
risk manager by the pnl it books.
SOURCE: paper/driver.py:455-462 -/
theorem SettleEffect.of_booked {point : SettlePoint K}
    {r : DriverState K S × SettleStatus K × List (DriverEvent K P)}
    (effect : SettleEffect env st clock job reply point r) {pos : Position K}
    {settleTs pnl : K} {fill : FillRow K} (h : .booked pos settleTs pnl fill ∈ r.2.2) :
    point = .settleFill pos settleTs pnl fill ∧ r.1.dailyPnl = st.dailyPnl + pnl ∧
      r.1.risk = onTradeClosed env.riskCfg st.risk pnl settleTs := by
  cases effect with
  | quiet => cases h
  | dropped => simp at h
  | settled => simp at h
  | booked pos' settleTs' pnl' fill' =>
    obtain ⟨rfl, rfl, rfl, rfl⟩ : pos = pos' ∧ settleTs = settleTs' ∧ pnl = pnl' ∧
      fill = fill' := by simpa using h
    exact ⟨rfl, rfl, rfl⟩

end Settle

/-! ## The step of the system -/

section Step

variable [FloorRing K]

/-- The consumer after a stretch of the settlement it runs. -/
def consumerAfter (job : SettleJob K) : SettleStatus K → Consumer K
  | .waiting point => .settling job point
  | _ => .idle

/-- The watchdog after a stretch of the settlement it runs. -/
def watchdogAfter (job : SettleJob K) (rest : List (String × Position K)) :
    SettleStatus K → Watchdog K
  | .waiting point => .settling job point rest
  | .returned => Watchdog.next job.now rest
  | .raised => .sleeping

/-- The positions the watchdog finds expired.
SOURCE: paper/driver.py:502-506 -/
def expiredAt (st : DriverState K S) (clock : K) : List (String × Position K) :=
  st.openPositions.entries.filter fun e =>
    0 < e.2.windowCloseTs ∧ 15 < clock - e.2.windowCloseTs

/-- What one step of the system can be. -/
inductive DriverEffect (env : DriverEnv K S P) (w : World K S) (l : DriverLabel K) :
    World K S × List (DriverEvent K P) → Prop where
  | stall : DriverEffect env w l (w, [])
  | tick (d : TickDict K) (ks : Bool) (action : l.action = .tick d ks)
      (idle : w.consumer = .idle) :
      DriverEffect env w l
        ({ w with
            driver := (handleTick env w.driver l.clock d ks).1
            consumer := (handleTick env w.driver l.clock d ks).2.1 },
          (handleTick env w.driver l.clock d ks).2.2)
  | control (msg : ControlMessage) :
      DriverEffect env w l ({ w with driver := w.driver.handleControlMessage msg }, [])
  | consumerSettles (reply : DbReply K) (job : SettleJob K) (point : SettlePoint K)
      (r : DriverState K S × SettleStatus K × List (DriverEvent K P))
      (action : l.action = .consumerResumes reply)
      (consumer : w.consumer = .settling job point)
      (effect : SettleEffect env w.driver l.clock job reply point r) :
      DriverEffect env w l
        ({ w with
            driver := r.1
            consumer := consumerAfter job r.2.1
            fills := point.write reply.write w.fills }, r.2.2)
  | orderWritten (reply : DbReply K) (attempt : EntryAttempt K)
      (consumer : w.consumer = .persistingOrder attempt) (next : Consumer K)
      (hnext : next = .persistingFill attempt ∨ next = .idle) :
      DriverEffect env w l
        ({ w with orders := writeRow reply.write attempt.order w.orders, consumer := next },
          [])
  | entryFails (reply : DbReply K) (attempt : EntryAttempt K)
      (consumer : w.consumer = .persistingFill attempt) :
      DriverEffect env w l
        ({ w with fills := writeRow reply.write attempt.fill w.fills, consumer := .idle }, [])
  | enters (reply : DbReply K) (attempt : EntryAttempt K)
      (consumer : w.consumer = .persistingFill attempt) :
      DriverEffect env w l
        ({ w with
            driver := w.driver.recordEntry attempt.position attempt.position.marketSlug
            fills := writeRow reply.write attempt.fill w.fills
            consumer := .notifyingOpen }, [.entered attempt.position])
  | notified : DriverEffect env w l ({ w with consumer := .idle }, [])
  | wakes (sleeping : w.watchdog = .sleeping) :
      DriverEffect env w l
        ({ w with watchdog := Watchdog.next l.clock (expiredAt w.driver l.clock) }, [])
  | watchdogSettles (reply : DbReply K) (job : SettleJob K) (point : SettlePoint K)
      (rest : List (String × Position K))
      (r : DriverState K S × SettleStatus K × List (DriverEvent K P))
      (action : l.action = .watchdogResumes reply)
      (watchdog : w.watchdog = .settling job point rest)
      (effect : SettleEffect env w.driver l.clock job reply point r) :
      DriverEffect env w l
        ({ w with
            driver := r.1
            watchdog := watchdogAfter job rest r.2.1
            fills := point.write reply.write w.fills }, r.2.2)
  | sweep : DriverEffect env w l ({ w with driver := w.driver.orphanCleanup l.clock }, [])

variable (env : DriverEnv K S P) (w : World K S) (l : DriverLabel K)

/-- The step of a consumer that runs a settlement. -/
theorem consumerStep_settling (clock : K) (reply : DbReply K) {job : SettleJob K}
    {point : SettlePoint K} (hc : w.consumer = .settling job point) :
    consumerStep env w clock reply =
      ({ w with
          driver := (settleStep env w.driver clock job point reply).1
          consumer := consumerAfter job (settleStep env w.driver clock job point reply).2.1
          fills := point.write reply.write w.fills },
        (settleStep env w.driver clock job point reply).2.2) := by
  unfold consumerStep
  rw [hc]
  dsimp only
  obtain ⟨driver, status, events⟩ := settleStep env w.driver clock job point reply
  cases status <;> rfl

/-- The step of a watchdog that runs a settlement. -/
theorem watchdogStep_settling (clock : K) (reply : DbReply K) {job : SettleJob K}
    {point : SettlePoint K} {rest : List (String × Position K)}
    (hw : w.watchdog = .settling job point rest) :
    watchdogStep env w clock reply =
      ({ w with
          driver := (settleStep env w.driver clock job point reply).1
          watchdog := watchdogAfter job rest (settleStep env w.driver clock job point reply).2.1
          fills := point.write reply.write w.fills },
        (settleStep env w.driver clock job point reply).2.2) := by
  unfold watchdogStep
  rw [hw]
  dsimp only
  obtain ⟨driver, status, events⟩ := settleStep env w.driver clock job point reply
  cases status <;> rfl

/-- What an answer to the consumer's settlement does. -/
theorem consumerStep_effect (reply : DbReply K) (action : l.action = .consumerResumes reply) :
    DriverEffect env w l (consumerStep env w l.clock reply) := by
  cases hc : w.consumer with
  | settling job point =>
    rw [consumerStep_settling env w l.clock reply hc]
    exact .consumerSettles reply job point _ action hc
      (settleStep_effect env w.driver l.clock job reply point)
  | idle =>
    rw [consumerStep, hc]
    exact .stall
  | persistingOrder attempt =>
    rw [consumerStep, hc]
    dsimp only
    split
    · exact .orderWritten reply attempt hc _ (Or.inl rfl)
    · exact .orderWritten reply attempt hc _ (Or.inr rfl)
  | persistingFill attempt =>
    rw [consumerStep, hc]
    dsimp only
    split
    · exact .enters reply attempt hc
    · exact .entryFails reply attempt hc
  | notifyingOpen =>
    rw [consumerStep, hc]
    exact .notified

/-- What an answer to the watchdog's settlement does. -/
theorem watchdogStep_effect (reply : DbReply K) (action : l.action = .watchdogResumes reply) :
    DriverEffect env w l (watchdogStep env w l.clock reply) := by
  cases hw : w.watchdog with
  | sleeping =>
    rw [watchdogStep, hw]
    exact .stall
  | settling job point rest =>
    rw [watchdogStep_settling env w l.clock reply hw]
    exact .watchdogSettles reply job point rest _ action hw
      (settleStep_effect env w.driver l.clock job reply point)

/-- **Every step of the driver is one of these.** The inversion every invariant starts from. -/
theorem driver_effect :
    DriverEffect env w l ((driverMachine env).next w l, (driverMachine env).emits w l) := by
  change DriverEffect env w l (driverStep env w l)
  unfold driverStep
  cases ha : l.action with
  | tick d ks =>
    dsimp only
    split
    · rename_i hidle
      exact .tick d ks ha hidle
    · exact .stall
  | control msg =>
    dsimp only
    split
    · exact .control msg
    · exact .stall
  | consumerResumes reply => exact consumerStep_effect env w l reply ha
  | watchdogWakes =>
    unfold watchdogWake
    dsimp only
    split
    · rename_i hsleep
      exact .wakes hsleep
    · exact .stall
  | watchdogResumes reply => exact watchdogStep_effect env w l reply ha
  | orphanSweep => exact .sweep

end Step

/-! ## The open positions -/

section OpenPositions

/-- The entry the consumer is about to persist. -/
def attemptOf : Consumer K → Option (EntryAttempt K)
  | .persistingOrder attempt | .persistingFill attempt => some attempt
  | _ => none

/-- Every open position satisfies `Q` under its market. -/
def OpenAll (Q : String → Position K → Prop) (st : DriverState K S) : Prop :=
  ∀ slug pos, st.openPositions.get? slug = some pos → Q slug pos

variable {Q : String → Position K → Prop}

omit [Field K] [LinearOrder K] in
/-- What holds of the positions holds of the same positions. -/
theorem OpenAll.of_eq {st st' : DriverState K S} (h : OpenAll Q st)
    (heq : st'.openPositions = st.openPositions) : OpenAll Q st' := by
  intro slug pos hget
  rw [heq] at hget
  exact h slug pos hget

omit [Field K] [LinearOrder K] in
/-- What holds of the positions holds of those that one pop leaves. -/
theorem OpenAll.of_pop {st st' : DriverState K S} (h : OpenAll Q st) (slug : String)
    (heq : st'.openPositions = st.openPositions.pop slug) : OpenAll Q st' := by
  intro slug' pos hget
  rw [heq, Dict.get?_pop] at hget
  split at hget
  · cases hget
  · exact h slug' pos hget

variable [FloorRing K]

/-- A settlement opens nothing. -/
theorem settleEffect_openAll (env : DriverEnv K S P) (st : DriverState K S) (clock : K)
    (job : SettleJob K) (reply : DbReply K) (point : SettlePoint K)
    (r : DriverState K S × SettleStatus K × List (DriverEvent K P))
    (effect : SettleEffect env st clock job reply point r) (h : OpenAll Q st) :
    OpenAll Q r.1 := by
  cases effect with
  | quiet _ st' status same plain => exact h.of_eq same.openPositions
  | dropped _ st' same => exact h.of_pop job.slug same.openPositions
  | settled => exact h.of_pop job.slug rfl
  | booked => exact h.of_eq rfl

/-- Only the return of an entry opens a position. -/
theorem openAll_step (env : DriverEnv K S P) (w : World K S) (l : DriverLabel K)
    (h : OpenAll Q w.driver)
    (hattempt : ∀ attempt, attemptOf w.consumer = some attempt →
      Q attempt.position.marketSlug attempt.position) :
    OpenAll Q ((driverMachine env).next w l).driver := by
  have heffect := driver_effect env w l
  generalize (driverMachine env).next w l = w' at heffect ⊢
  generalize (driverMachine env).emits w l = es at heffect
  cases heffect with
  | tick d ks action idle => exact h.of_eq (handleTick_openPositions env _ _ _ _)
  | control msg => cases msg <;> exact h
  | consumerSettles reply job point r action consumer effect =>
    exact settleEffect_openAll env _ _ _ _ _ _ effect h
  | watchdogSettles reply job point rest r action watchdog effect =>
    exact settleEffect_openAll env _ _ _ _ _ _ effect h
  | enters reply attempt consumer =>
    intro slug pos hget
    simp only [DriverState.recordEntry, Dict.get?_set] at hget
    split at hget
    · rename_i hslug
      cases hget
      rw [hslug]
      exact hattempt attempt (by rw [consumer]; rfl)
    · exact h slug pos hget
  | sweep => exact h.of_eq (sameAccounts_orphanCleanup _ _).openPositions
  | _ => exact h

end OpenPositions

/-! ## The bookkeeping of trades -/

section Trades

/-- Events of settlements. -/
def isSettlement : DriverEvent K P → Bool
  | .settled _ | .booked _ _ _ _ | .dropped _ => true
  | _ => false

omit [Field K] [LinearOrder K] in
/-- After a settlement no entry is under way. -/
theorem attemptOf_consumerAfter (job : SettleJob K) (status : SettleStatus K) :
    attemptOf (consumerAfter job status) = none := by
  cases status <;> rfl

variable [FloorRing K]

/-- An entry under way after a tick is one that the gates let through. -/
theorem attemptOf_handleTick {env : DriverEnv K S P} {st : DriverState K S} {clock : K}
    {d : TickDict K} {ks : Bool} {attempt : EntryAttempt K}
    (h : attemptOf (handleTick env st clock d ks).2.1 = some attempt) :
    ∃ risk dec strategy, gateOf env st d = .enter risk dec strategy ∧
      tryEnter env.execLib env.execCfg ks (entryRequest env (conditionIdOf d)
        (observeTick env st d).ctx dec.side) = .ok attempt := by
  rcases handleTick_consumer env st clock d ks with hc | ⟨pos, -, -, hc⟩ |
    ⟨risk, dec, strategy, attempt', hgate, hok, hc⟩
  · rw [hc] at h
    cases h
  · rw [hc] at h
    cases h
  · rw [hc] at h
    cases h
    exact ⟨risk, dec, strategy, hgate, hok⟩

/-- A settlement leaves the day, the traded markets and the pause alone, and reports
settlements only. -/
theorem settleEffect_frame (env : DriverEnv K S P) (st : DriverState K S) (clock : K)
    (job : SettleJob K) (reply : DbReply K) (point : SettlePoint K)
    (r : DriverState K S × SettleStatus K × List (DriverEvent K P))
    (effect : SettleEffect env st clock job reply point r) :
    r.1.tradeTaken = st.tradeTaken ∧ r.1.today = st.today ∧
      ∀ e ∈ r.2.2, isSettlement e = true := by
  cases effect with
  | quiet _ st' status same plain => exact ⟨same.tradeTaken, same.today, by simp⟩
  | dropped _ st' same =>
    refine ⟨same.tradeTaken, same.today, fun e he => ?_⟩
    obtain ⟨pos, -, rfl⟩ := List.mem_map.mp he
    rfl
  | settled => exact ⟨rfl, rfl, by simp [isSettlement]⟩
  | booked => exact ⟨rfl, rfl, by simp [isSettlement]⟩

/-- What a step can be for the bookkeeping of trades: a handled tick, the return of
`try_enter`, or something that touches neither the day nor the traded markets. -/
inductive TradeEffect (env : DriverEnv K S P) (w : World K S) (l : DriverLabel K)
    (w' : World K S) (es : List (DriverEvent K P)) : Prop where
  | tick (d : TickDict K) (ks : Bool) (action : l.action = .tick d ks)
      (idle : w.consumer = .idle)
      (driver : w'.driver = (handleTick env w.driver l.clock d ks).1)
      (consumer : w'.consumer = (handleTick env w.driver l.clock d ks).2.1)
      (events : es = (handleTick env w.driver l.clock d ks).2.2)
  | enters (attempt : EntryAttempt K) (before : attemptOf w.consumer = some attempt)
      (after : attemptOf w'.consumer = none)
      (driver : w'.driver =
        w.driver.recordEntry attempt.position attempt.position.marketSlug)
      (events : es = [.entered attempt.position])
  | aside (tradeTaken : w'.driver.tradeTaken = w.driver.tradeTaken)
      (today : w'.driver.today = w.driver.today)
      (consumer : ∀ attempt, attemptOf w'.consumer = some attempt →
        attemptOf w.consumer = some attempt)
      (events : ∀ e ∈ es, isSettlement e = true)
      (noTick : ∀ d ks, l.action = .tick d ks → w.consumer ≠ .idle)

/-- The step of a tick that the consumer takes up. -/
theorem driverStep_tick (env : DriverEnv K S P) (w : World K S) (l : DriverLabel K)
    (d : TickDict K) (ks : Bool) (action : l.action = .tick d ks) (idle : w.consumer = .idle) :
    driverStep env w l =
      ({ w with
          driver := (handleTick env w.driver l.clock d ks).1
          consumer := (handleTick env w.driver l.clock d ks).2.1 },
        (handleTick env w.driver l.clock d ks).2.2) := by
  unfold driverStep
  rw [action]
  dsimp only
  rw [idle]

/-- Every step of the driver is one of these. -/
theorem driver_tradeEffect (env : DriverEnv K S P) (w : World K S) (l : DriverLabel K) :
    TradeEffect env w l ((driverMachine env).next w l) ((driverMachine env).emits w l) := by
  by_cases hhandled : ∃ d ks, l.action = .tick d ks ∧ w.consumer = .idle
  · obtain ⟨d, ks, action, idle⟩ := hhandled
    change TradeEffect env w l (driverStep env w l).1 (driverStep env w l).2
    rw [driverStep_tick env w l d ks action idle]
    exact .tick d ks action idle rfl rfl rfl
  have noTick : ∀ d ks, l.action = .tick d ks → w.consumer ≠ .idle := fun d ks action idle =>
    hhandled ⟨d, ks, action, idle⟩
  have heffect := driver_effect env w l
  generalize (driverMachine env).next w l = w' at heffect ⊢
  generalize (driverMachine env).emits w l = es at heffect ⊢
  cases heffect with
  | tick d ks action idle => exact absurd idle (noTick d ks action)
  | enters reply attempt consumer =>
    exact .enters attempt (by rw [consumer]; rfl) rfl rfl rfl
  | control msg => cases msg <;> exact .aside rfl rfl (fun _ h => h) (by simp) noTick
  | consumerSettles reply job point r action consumer effect =>
    obtain ⟨htaken, htoday, hevents⟩ := settleEffect_frame env _ _ _ _ _ _ effect
    refine .aside htaken htoday (fun attempt h => ?_) hevents noTick
    rw [attemptOf_consumerAfter] at h
    cases h
  | orderWritten reply attempt consumer next hnext =>
    refine .aside rfl rfl (fun attempt' h => ?_) (by simp) noTick
    rcases hnext with rfl | rfl
    · rw [consumer]
      exact h
    · cases h
  | entryFails reply attempt consumer =>
    exact .aside rfl rfl (fun _ h => by cases h) (by simp) noTick
  | notified => exact .aside rfl rfl (fun _ h => by cases h) (by simp) noTick
  | watchdogSettles reply job point rest r action watchdog effect =>
    obtain ⟨htaken, htoday, hevents⟩ := settleEffect_frame env _ _ _ _ _ _ effect
    exact .aside htaken htoday (fun _ h => h) hevents noTick
  | sweep =>
    have hsame := sameAccounts_orphanCleanup w.driver l.clock
    exact .aside hsame.tradeTaken hsame.today (fun _ h => h) (by simp) noTick
  | _ => exact .aside rfl rfl (fun _ h => h) (by simp) noTick

/-- `try_enter` is called exactly for the ticks that are sent to the entry. -/
theorem mem_emits_tryEnter_iff (env : DriverEnv K S P) (w : World K S) (l : DriverLabel K)
    (req : EntryRequest K) :
    .tryEnter req ∈ (driverMachine env).emits w l ↔
      ∃ d ks, l.action = .tick d ks ∧ w.consumer = .idle ∧
        ∃ risk dec strategy, gateOf env w.driver d = .enter risk dec strategy ∧
          req = entryRequest env (conditionIdOf d) (observeTick env w.driver d).ctx
            dec.side := by
  constructor
  · intro he
    have heffect := driver_tradeEffect env w l
    generalize (driverMachine env).next w l = w' at heffect
    generalize (driverMachine env).emits w l = es at heffect he
    cases heffect with
    | tick d ks action idle driver consumer events =>
      rw [events] at he
      rcases mem_handleTick_events env _ _ _ _ _ he with h | ⟨-, h⟩ | ⟨-, h⟩ | ⟨_, h⟩ |
        ⟨risk, dec, strategy, hgate, h⟩
      · cases h
      · cases h
      · cases h
      · cases h
      · exact ⟨d, ks, action, idle, risk, dec, strategy, hgate, by injection h⟩
    | enters attempt before after driver events =>
      rw [events] at he
      cases List.mem_singleton.mp he
    | aside tradeTaken today consumer events noTick =>
      exact absurd (events _ he) Bool.false_ne_true
  · rintro ⟨d, ks, action, idle, risk, dec, strategy, hgate, rfl⟩
    change _ ∈ (driverStep env w l).2
    rw [driverStep_tick env w l d ks action idle, handleTick_eq]
    refine List.mem_append_right _ ?_
    rw [gated, hgate, atGate_enter_events]
    simp

/-- The markets that `try_enter` was called for. -/
def triedSlugs (es : List (DriverEvent K P)) : List String :=
  es.filterMap fun e =>
    match e with
    | .tryEnter req => some req.slug
    | _ => none

omit [Field K] [LinearOrder K] [FloorRing K] in
/-- A market was tried if an entry in it was. -/
theorem mem_triedSlugs_iff (es : List (DriverEvent K P)) (slug : String) :
    slug ∈ triedSlugs es ↔ ∃ req, .tryEnter req ∈ es ∧ req.slug = slug := by
  unfold triedSlugs
  rw [List.mem_filterMap]
  constructor
  · rintro ⟨e, he, hslug⟩
    cases e with
    | tryEnter req => exact ⟨req, he, by simpa using hslug⟩
    | _ => cases hslug
  · rintro ⟨req, he, hslug⟩
    exact ⟨_, he, by simpa using hslug⟩

omit [Field K] [LinearOrder K] [FloorRing K] in
/-- The markets tried in a run continued. -/
@[simp] theorem triedSlugs_append (es es' : List (DriverEvent K P)) :
    triedSlugs (es ++ es') = triedSlugs es ++ triedSlugs es' :=
  List.filterMap_append

/-- A step calls `try_enter` for a market exactly when it handles a tick of it, the market is
not marked as traded, and no other gate refuses the tick. -/
theorem mem_triedSlugs_emits_iff (env : DriverEnv K S P) (w : World K S)
    (l : DriverLabel K) (slug : String) :
    slug ∈ triedSlugs ((driverMachine env).emits w l) ↔
      ∃ d ks, l.action = .tick d ks ∧ w.consumer = .idle ∧ d.marketSlug = slug ∧
        slug ∉ (gateState env w.driver d).tradeTaken ∧ ¬GatesRefuse env w.driver d := by
  rw [mem_triedSlugs_iff]
  constructor
  · rintro ⟨req, he, rfl⟩
    obtain ⟨d, ks, action, idle, risk, dec, strategy, hgate, rfl⟩ :=
      (mem_emits_tryEnter_iff env w l req).mp he
    exact ⟨d, ks, action, idle, rfl,
      (gateOf_enter_iff env w.driver d).mp ⟨risk, dec, strategy, hgate⟩⟩
  · rintro ⟨d, ks, action, idle, rfl, hpass⟩
    obtain ⟨risk, dec, strategy, hgate⟩ := (gateOf_enter_iff env w.driver d).mpr hpass
    exact ⟨_, (mem_emits_tryEnter_iff env w l _).mpr
      ⟨d, ks, action, idle, risk, dec, strategy, hgate, rfl⟩, rfl⟩

/-- A run calls `try_enter` for a market exactly when one of its steps does. -/
theorem mem_triedSlugs_trace_iff (env : DriverEnv K S P) (w : World K S)
    (ls : List (DriverLabel K)) (slug : String) :
    slug ∈ triedSlugs ((driverMachine env).trace w ls) ↔
      (driverMachine env).Sometime
        (fun w l => slug ∈ triedSlugs ((driverMachine env).emits w l)) w ls := by
  simp only [mem_triedSlugs_iff, Machine.mem_trace_iff]
  constructor
  · rintro ⟨req, ⟨pre, l, post, heq, he⟩, hslug⟩
    exact ⟨pre, l, post, heq, req, he, hslug⟩
  · rintro ⟨pre, l, post, heq, req, he, hslug⟩
    exact ⟨req, ⟨pre, l, post, heq, he⟩, hslug⟩

end Trades

/-! ## A driver to run

A driver at the rationals whose strategy always buys YES, and the labels of an entry and of
a settlement by the watchdog, for the instances of the results about runs. -/

section Instance

/-- The eager driver, with a fee factor of 2 %. -/
def eagerDriver (earliestEntryT : ℤ) : DriverEnv ℚ Unit Unit where
  lib := MathLib.rational
  execLib := ⟨id, fun _ => "", fun _ => 0⟩
  strategy := Strategy.always ⟨.enter, .yesUp, ()⟩
  riskCfg := RiskConfig.permissive
  execCfg := ⟨"eager", ⟨1 / 50, 0, 1⟩⟩
  cfg := {
    stakeUsd := 5
    earliestEntryT := earliestEntryT
    latestEntryT := 200
    dailyAlertPnlThreshold := -1000
    dailyPausePnlThreshold := -1000 }

/-- The eager driver's system after a boot that found the entries of `rows`. -/
def eagerBoot (rows : List String) : World ℚ Unit :=
  World.boot (DriverState.boot () false (some rows) 0 0) Table.empty Table.empty

/-- A tick that quotes both tokens at 0.50. -/
def quotedDict (slug : String) (ts t closeTs : ℚ) : TickDict ℚ where
  ts := ts
  windowCloseTs := closeTs
  marketSlug := slug
  conditionId := some "0x1"
  tInWindow := some t
  spotPrice := some 100
  openPrice := some 100
  pmYesAsk := some (1 / 2)
  pmNoAsk := some (1 / 2)

/-- Tables with one spot price at the start of a window and one at its end. -/
def twoTicks (openTs openPrice closeTs closePrice : ℚ) : PriceTables ℚ where
  paperTicks := [⟨"0x1", openTs, some openPrice, none, none⟩,
    ⟨"0x1", closeTs, some closePrice, none, none⟩]
  candles := []

/-- A tick is handled and both rows of its entry are committed. -/
def entryLabels (d : TickDict ℚ) : List (DriverLabel ℚ) :=
  [⟨d.ts, .tick d false⟩, ⟨d.ts, .consumerResumes ⟨none, .committed⟩⟩,
    ⟨d.ts, .consumerResumes ⟨none, .committed⟩⟩, ⟨d.ts, .consumerResumes ⟨none, .committed⟩⟩]

/-- The watchdog wakes and reads both prices; the write of the exit fill is still out. -/
def watchdogLabels (clock : ℚ) (tables : PriceTables ℚ) : List (DriverLabel ℚ) :=
  [⟨clock, .watchdogWakes⟩, ⟨clock, .watchdogResumes ⟨some tables, .committed⟩⟩,
    ⟨clock, .watchdogResumes ⟨some tables, .committed⟩⟩]

/-- A position bought 100 s into its window and settled 20 s after its close; the write of
the exit fill is still out. -/
def settledRun : List (DriverLabel ℚ) :=
  entryLabels (quotedDict "btc-updown-5m-1200" 1300 100 1500) ++
    watchdogLabels 1520 (twoTicks 1200 100 1500 101)

end Instance

end TradingEdge.Analysis
