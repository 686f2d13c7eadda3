import TradingEdge.Analysis.DriverSteps
import TradingEdge.Program.TickRecorder

/-!
# When a position is settled, and against which open

The recorder publishes markets of two lengths, with `t_in_window` counted from the market's own
open; the driver settles at `t_in_window ≥ 300` and looks for the open price 305 s before the
close.  For a five-minute market both fit.  For a fifteen-minute market they do not: an open
position is taken for settlement ten minutes before the close, against a price in the middle
of the window.

The invariant `Timely` follows every settlement under way: it is of the market of its slug,
and for a five-minute market it was begun after the close.  `settles_on_time` is the result for
runs that look up the open price of five-minute markets only, with a tick recorded at the open.
-/

set_option autoImplicit false

namespace TradingEdge.Analysis

open TradingEdge.Model TradingEdge.Program TradingEdge.Library

variable {K S P : Type} [Field K] [LinearOrder K]

/-! ## What reaches the driver -/

/-- The message was published by the recorder, for a market that closes at the time its slug
says. -/
def Published (closeOf : String → ℤ) (d : TickDict K) : Prop :=
  ∃ (m m' : MarketMeta K) (book : Option (CLOBBookSnapshot K)) (feed : FeedSnapshot K) (now : K)
    (row : PaperTickRow K), recordMarket m book feed now = (m', some (d, row)) ∧
      m.windowCloseTs = closeOf m.slug

/-- The paper ticks in the tables hold spot prices of a path. -/
def RecordsPath (path : K → K) (tables : PriceTables K) : Prop :=
  ∀ row ∈ tables.paperTicks, ∀ spot, row.spotPrice = some spot → 0 < spot →
    spot = path row.ts

/-- The world around the driver: the clock does not go back, ticks come from the recorder and
arrive after they were published, and the database answers with recorded prices. -/
structure FeedLabel (closeOf : String → ℤ) (path : K → K) (pre : List (DriverLabel K))
    (l : DriverLabel K) : Prop where
  clock : ∀ earlier ∈ pre, earlier.clock ≤ l.clock
  ticks : ∀ d ks, l.action = .tick d ks → Published closeOf d ∧ d.ts ≤ l.clock
  tables : ∀ reply tables, l.action = .consumerResumes reply ∨ l.action = .watchdogResumes reply →
    reply.tables = some tables → RecordsPath path tables

/-- Every settlement comes at or after the close of its market, and compares with a price from
within five seconds of that market's open. -/
def SettlesOnTime (path : K → K) (es : List (DriverEvent K P)) : Prop :=
  ∀ call, .settled call ∈ es → call.pos.windowCloseTs ≤ call.clock ∧
    ∃ t : K,
      |t - (call.pos.windowCloseTs - (windowSecondsForSlug call.pos.marketSlug : K))| ≤ 5 ∧
        call.openPrice = path t

/-- The settlement that a step answers, and the answer. -/
def answered (w : World K S) (l : DriverLabel K) :
    Option (SettleJob K × SettlePoint K × DbReply K) :=
  match l.action, w.consumer, w.watchdog with
  | .consumerResumes reply, .settling job point, _ => some (job, point, reply)
  | .watchdogResumes reply, _, .settling job point _ => some (job, point, reply)
  | _, _, _ => none

/-- A first-tick query that the step answers is about a five-minute market, and finds a priced
tick from within five seconds of its open. -/
def openRecorded (w : World K S) (l : DriverLabel K) : Bool :=
  match answered w l with
  | some (job, .firstTick _ _, reply) =>
    decide (¬Is15m job.pos.marketSlug ∧ ∃ row ∈ (reply.tables.map fun t => t.paperTicks).getD [],
      row.conditionId = job.pos.conditionId ∧ |row.ts - (job.pos.windowCloseTs - 300)| ≤ 5 ∧
        0 < row.spotPrice.getD 0)
  | _ => true

omit [Field K] [LinearOrder K] in
/-- A step that answers a settlement resumes the consumer or the watchdog. -/
theorem answered_eq_some (w : World K S) (l : DriverLabel K) (job : SettleJob K)
    (point : SettlePoint K) (reply : DbReply K) (h : answered w l = some (job, point, reply)) :
    (l.action = .consumerResumes reply ∧ w.consumer = .settling job point) ∨
      (l.action = .watchdogResumes reply ∧ ∃ rest, w.watchdog = .settling job point rest) := by
  unfold answered at h
  split at h
  · rename_i haction hconsumer
    cases h
    exact Or.inl ⟨haction, hconsumer⟩
  · rename_i rest haction hwatchdog
    cases h
    exact Or.inr ⟨haction, rest, hwatchdog⟩
  · cases h

/-- The other markets last five minutes. -/
theorem windowSeconds_of_not_15m (slug : String) (h : ¬Is15m slug) :
    windowSecondsForSlug slug = 300 := if_neg h

/-! ## Settlements under way -/

section Timely

variable (closeOf : String → ℤ)

/-- The position is of the market of `slug`. -/
def OfMarket (slug : String) (pos : Position K) : Prop :=
  pos.marketSlug = slug ∧ pos.windowCloseTs = (closeOf slug : K)

/-- The position is of the market of `slug`, and if that is a five-minute market, its close has
passed at one of the labels. -/
def Due (ls : List (DriverLabel K)) (slug : String) (pos : Position K) : Prop :=
  OfMarket closeOf slug pos ∧
    (¬Is15m slug → ∃ l ∈ ls, (closeOf slug : K) ≤ l.clock)

/-- The settlement is due, and does not wait for the candle of the open. -/
def JobTimely (ls : List (DriverLabel K)) (job : SettleJob K) (point : SettlePoint K) : Prop :=
  Due closeOf ls job.slug job.pos ∧ ∀ p t, point ≠ .ohlcvOpen p t

/-- What the consumer holds is timely. -/
def ConsumerTimely (ls : List (DriverLabel K)) : Consumer K → Prop
  | .settling job point => JobTimely closeOf ls job point
  | .persistingOrder attempt | .persistingFill attempt =>
    OfMarket closeOf attempt.position.marketSlug attempt.position
  | _ => True

/-- What the watchdog holds is timely. -/
def WatchdogTimely (ls : List (DriverLabel K)) : Watchdog K → Prop
  | .settling job point rest =>
    JobTimely closeOf ls job point ∧ ∀ e ∈ rest, Due closeOf ls e.1 e.2
  | .sleeping => True

/-- The invariant of a run: open positions are filed under their market, and settlements are
timely. -/
structure Timely (ls : List (DriverLabel K)) (w : World K S) : Prop where
  openPositions : OpenAll (OfMarket closeOf) w.driver
  consumer : ConsumerTimely closeOf ls w.consumer
  watchdog : WatchdogTimely closeOf ls w.watchdog

variable {closeOf}

/-- A settlement that is due stays so. -/
theorem Due.mono {ls : List (DriverLabel K)} {slug : String} {pos : Position K}
    (h : Due closeOf ls slug pos) (l : DriverLabel K) : Due closeOf (ls ++ [l]) slug pos := by
  refine ⟨h.1, fun h5m => ?_⟩
  obtain ⟨l0, hl0, hclose⟩ := h.2 h5m
  exact ⟨l0, List.mem_append_left _ hl0, hclose⟩

/-- So does the consumer's. -/
theorem ConsumerTimely.mono {ls : List (DriverLabel K)} {consumer : Consumer K}
    (h : ConsumerTimely closeOf ls consumer) (l : DriverLabel K) :
    ConsumerTimely closeOf (ls ++ [l]) consumer := by
  cases consumer with
  | settling job point => exact ⟨h.1.mono l, h.2⟩
  | _ => exact h

/-- So do the watchdog's. -/
theorem WatchdogTimely.mono {ls : List (DriverLabel K)} {watchdog : Watchdog K}
    (h : WatchdogTimely closeOf ls watchdog) (l : DriverLabel K) :
    WatchdogTimely closeOf (ls ++ [l]) watchdog := by
  cases watchdog with
  | sleeping => trivial
  | settling job point rest => exact ⟨⟨h.1.1.mono l, h.1.2⟩, fun e he => (h.2 e he).mono l⟩

/-- The watchdog goes on with a position that is due. -/
theorem watchdogTimely_next (ls : List (DriverLabel K)) (now : K)
    (rest : List (String × Position K)) (h : ∀ e ∈ rest, Due closeOf ls e.1 e.2) :
    WatchdogTimely closeOf ls (Watchdog.next now rest) := by
  cases rest with
  | nil => trivial
  | cons e rest =>
    rw [List.forall_mem_cons] at h
    exact ⟨⟨h.1, by rintro _ _ ⟨⟩⟩, h.2⟩

/-- The first-tick query finds a tick of the open if there is one. -/
theorem firstPaperTickSpot_of_recorded [IsStrictOrderedRing K] (tables : PriceTables K)
    (conditionId : String) (closeTs : K) (row : PaperTickRow K) (spot : K)
    (hrow : row ∈ tables.paperTicks) (hcid : row.conditionId = conditionId)
    (hts : |row.ts - (closeTs - 300)| ≤ 5) (hspot : row.spotPrice = some spot)
    (hpos : 0 < spot) :
    ∃ first ∈ tables.paperTicks, ∃ price, first.spotPrice = some price ∧ 0 < price ∧
      |first.ts - (closeTs - 300)| ≤ 5 ∧
      (firstPaperTickSpot (some tables) conditionId closeTs).1 = some price := by
  rw [abs_le] at hts
  have hlo : closeTs - 305 ≤ row.ts := by linarith [hts.1]
  have hhi : row.ts ≤ closeTs + 5 := by linarith [hts.2]
  cases hfirst : firstPricedTick tables.paperTicks conditionId closeTs with
  | none =>
    rw [firstPricedTick, List.argmin_eq_none] at hfirst
    have hmem : row ∈ (ticksOfWindow tables.paperTicks conditionId closeTs).filter
        fun r => r.spotPrice.any fun sp => 0 < sp := by
      simp only [ticksOfWindow, List.mem_filter, decide_eq_true_eq, hspot, Option.any_some]
      exact ⟨⟨hrow, hcid, hlo, hhi⟩, hpos⟩
    rw [hfirst] at hmem
    exact absurd hmem List.not_mem_nil
  | some first =>
    obtain ⟨hmem, -, hfirstLo, -, price, hprice, hpricePos⟩ :=
      firstPricedTick_spec tables.paperTicks conditionId closeTs first hfirst
    have hle := firstPricedTick_le tables.paperTicks conditionId closeTs first row spot hfirst
      hrow hcid hlo hhi hspot hpos
    refine ⟨first, hmem, price, hprice, hpricePos, ?_, ?_⟩
    · rw [abs_le]
      constructor <;> linarith [hts.2]
    · simp only [firstPaperTickSpot, hfirst, hprice]

/-- After an answer the consumer's settlement is over or still due. -/
theorem consumerTimely_after (ls : List (DriverLabel K)) (job : SettleJob K)
    (status : SettleStatus K) (hdue : Due closeOf ls job.slug job.pos)
    (h : ∀ next, status = .waiting next → ∀ p t, next ≠ .ohlcvOpen p t) :
    ConsumerTimely closeOf ls (consumerAfter job status) := by
  cases status with
  | waiting next => exact ⟨hdue, h next rfl⟩
  | _ => trivial

/-- After an answer the watchdog's settlement is over or still due, and so are the next ones. -/
theorem watchdogTimely_after (ls : List (DriverLabel K)) (job : SettleJob K)
    (rest : List (String × Position K)) (status : SettleStatus K)
    (hdue : Due closeOf ls job.slug job.pos) (hrest : ∀ e ∈ rest, Due closeOf ls e.1 e.2)
    (h : ∀ next, status = .waiting next → ∀ p t, next ≠ .ohlcvOpen p t) :
    WatchdogTimely closeOf ls (watchdogAfter job rest status) := by
  cases status with
  | waiting next => exact ⟨⟨hdue, h next rfl⟩, hrest⟩
  | returned => exact watchdogTimely_next ls job.now rest hrest
  | raised => trivial

/-- A published tick 300 s into the window of a five-minute market comes after its close.
SOURCE: paper/tick_recorder.py:100-120 -/
theorem Published.closed_of_5m [IsStrictOrderedRing K] {d : TickDict K}
    (h : Published closeOf d) (h5m : ¬Is15m d.marketSlug) (ht : 300 ≤ orZero d.tInWindow) :
    (closeOf d.marketSlug : K) ≤ d.ts := by
  obtain ⟨m, m', book, feed, now, row, hrec, hclose⟩ := h
  obtain ⟨-, hts, hslug, -, -, htIn, -⟩ := recordMarket_published m m' book feed now d row hrec
  rw [hslug] at h5m
  rw [htIn, orZero, Option.getD_some, tInWindowAt, windowSeconds_of_not_15m _ h5m, hclose,
    le_max_iff] at ht
  rw [hslug, hts]
  push_cast at ht
  rcases ht with ht | ht <;> linarith

/-- A published tick has the close of its market. -/
theorem Published.windowCloseTs_eq {d : TickDict K} (h : Published closeOf d) :
    d.windowCloseTs = closeOf d.marketSlug := by
  obtain ⟨m, m', book, feed, now, row, hrec, hclose⟩ := h
  obtain ⟨-, -, hslug, hcloseTs, -⟩ := recordMarket_published m m' book feed now d row hrec
  rw [hcloseTs, hslug, hclose]

variable [FloorRing K] (env : DriverEnv K S P)

/-- A settlement whose first-tick query is answered never turns to the candle of the open. -/
theorem settleEffect_timely (st : DriverState K S) (clock : K) (job : SettleJob K)
    (reply : DbReply K) (point : SettlePoint K)
    (r : DriverState K S × SettleStatus K × List (DriverEvent K P))
    (effect : SettleEffect env st clock job reply point r)
    (hfound : ∀ p t, point = .firstTick p t →
      (firstPaperTickSpot reply.tables job.pos.conditionId job.pos.windowCloseTs).1 ≠ none) :
    ∀ next, r.2.1 = .waiting next → ∀ p t, next ≠ .ohlcvOpen p t := by
  cases effect with
  | quiet _ st' status same plain =>
    rintro next hnext p t rfl
    obtain ⟨hpoint, hnone⟩ := plain _ hnext
    exact hfound p t hpoint hnone
  | dropped _ st' same => rintro _ ⟨⟩
  | settled _ pos settlePrice settleTs openPrice isOpen reads => rintro next ⟨⟩ p t ⟨⟩
  | booked pos settleTs pnl fill => rintro next ⟨⟩ p t ⟨⟩

omit [FloorRing K] in
/-- What an answered first-tick query says under the condition on it. -/
theorem found_of_openRecorded [IsStrictOrderedRing K] {w : World K S} {l : DriverLabel K}
    (h : openRecorded w l = true) {job : SettleJob K} {p t : K} {reply : DbReply K}
    (hanswers : answered w l = some (job, .firstTick p t, reply)) :
    ¬Is15m job.pos.marketSlug ∧ ∃ tables, reply.tables = some tables ∧
      ∃ first ∈ tables.paperTicks, ∃ price, first.spotPrice = some price ∧ 0 < price ∧
        |first.ts - (job.pos.windowCloseTs - 300)| ≤ 5 ∧
        (firstPaperTickSpot reply.tables job.pos.conditionId job.pos.windowCloseTs).1 =
          some price := by
  rw [openRecorded, hanswers] at h
  obtain ⟨h5m, row, hrow, hcid, hts, hpos⟩ := of_decide_eq_true h
  refine ⟨h5m, ?_⟩
  cases htables : reply.tables with
  | none =>
    rw [htables] at hrow
    cases hrow
  | some tables =>
    rw [htables] at hrow
    cases hspot : row.spotPrice with
    | none =>
      rw [hspot] at hpos
      exact absurd hpos (lt_irrefl _)
    | some spot =>
      rw [hspot] at hpos
      exact ⟨tables, rfl, firstPaperTickSpot_of_recorded tables job.pos.conditionId
        job.pos.windowCloseTs row spot hrow hcid hts hspot hpos⟩

/-- **One step keeps the settlements timely.** -/
theorem timely_step [IsStrictOrderedRing K] (path : K → K) (ls : List (DriverLabel K))
    (w : World K S) (l : DriverLabel K) (hl : FeedLabel closeOf path ls l)
    (hrec : openRecorded w l = true) (h : Timely closeOf ls w) :
    Timely closeOf (ls ++ [l]) ((driverMachine env).next w l) := by
  obtain ⟨hopen, hcons, hwatch⟩ := h
  have hattempt : ∀ attempt, attemptOf w.consumer = some attempt →
      OfMarket closeOf attempt.position.marketSlug attempt.position := by
    intro attempt hattempt
    cases hc : w.consumer with
    | persistingOrder _ | persistingFill _ =>
      rw [hc] at hattempt hcons
      cases hattempt
      exact hcons
    | _ =>
      rw [hc] at hattempt
      cases hattempt
  have hfound : ∀ job point reply, answered w l = some (job, point, reply) →
      ∀ p t, point = .firstTick p t →
      (firstPaperTickSpot reply.tables job.pos.conditionId job.pos.windowCloseTs).1 ≠ none := by
    rintro job _ reply hanswers p t rfl
    obtain ⟨-, tables, -, first, -, price, -, -, -, hprice⟩ := found_of_openRecorded hrec hanswers
    rw [hprice]
    exact Option.some_ne_none price
  have hopen' := openAll_step env w l hopen hattempt
  have heffect := driver_effect env w l
  generalize (driverMachine env).next w l = w' at heffect hopen' ⊢
  generalize (driverMachine env).emits w l = es at heffect
  suffices h : ConsumerTimely closeOf (ls ++ [l]) w'.consumer ∧
      WatchdogTimely closeOf (ls ++ [l]) w'.watchdog from ⟨hopen', h.1, h.2⟩
  clear hopen' hattempt
  cases heffect with
  | tick d ks action idle =>
    obtain ⟨hpub, hts⟩ := hl.ticks d ks action
    refine ⟨?_, hwatch.mono l⟩
    dsimp only
    rcases handleTick_consumer env w.driver l.clock d ks with hc | ⟨pos, hpos, ht, hc⟩ |
      ⟨risk, dec, strategy, attempt, -, hok, hc⟩
    · rw [hc]
      trivial
    · rw [hc]
      refine ⟨⟨hopen _ _ hpos, fun h5m => ?_⟩, by rintro _ _ ⟨⟩⟩
      exact ⟨l, by simp, (hpub.closed_of_5m h5m ht).trans hts⟩
    · rw [hc]
      obtain ⟨hslug, hclose, -⟩ := tryEnter_ok _ _ _ _ _ hok
      refine ⟨rfl, ?_⟩
      rw [hclose, hslug]
      exact hpub.windowCloseTs_eq
  | consumerSettles reply job point r action consumer effect =>
    rw [consumer] at hcons
    exact ⟨consumerTimely_after _ job _ (hcons.1.mono l) (settleEffect_timely env _ _ _ _ _ _
      effect (hfound job point reply (by simp [answered, action, consumer]))), hwatch.mono l⟩
  | orderWritten reply attempt consumer next hnext =>
    rw [consumer] at hcons
    refine ⟨?_, hwatch.mono l⟩
    rcases hnext with rfl | rfl
    · exact hcons
    · trivial
  | entryFails reply attempt consumer => exact ⟨trivial, hwatch.mono l⟩
  | enters reply attempt consumer => exact ⟨trivial, hwatch.mono l⟩
  | notified => exact ⟨trivial, hwatch.mono l⟩
  | wakes sleeping =>
    refine ⟨hcons.mono l, watchdogTimely_next _ _ _ fun e he => ?_⟩
    obtain ⟨hmem, hexpired⟩ := List.mem_filter.mp he
    have hmarket := hopen e.1 e.2 ((Dict.mem_entries_iff _ _ _).mp hmem)
    refine ⟨hmarket, fun _ => ⟨l, by simp, ?_⟩⟩
    simp only [decide_eq_true_eq] at hexpired
    rw [← hmarket.2]
    linarith [hexpired.2]
  | watchdogSettles reply job point rest r action watchdog effect =>
    rw [watchdog] at hwatch
    exact ⟨hcons.mono l, watchdogTimely_after _ job rest _ (hwatch.1.1.mono l)
      (fun e he => (hwatch.2 e he).mono l) (settleEffect_timely env _ _ _ _ _ _
        effect (hfound job point reply (by simp [answered, action, watchdog])))⟩
  | _ => exact ⟨hcons.mono l, hwatch.mono l⟩

/-- A call of `exec.settle` answers a settlement that read its open price, for the position
open in its market. -/
theorem settled_of_mem (w : World K S) (l : DriverLabel K) (call : SettleCall K)
    (he : .settled call ∈ (driverMachine env).emits w l) :
    ∃ job point reply, answered w l = some (job, point, reply) ∧
      w.driver.openPositions.get? job.slug = some call.pos ∧ call.clock = l.clock ∧
      ReadsOpen job reply call.openPrice point := by
  have hsettle : ∀ (job : SettleJob K) (reply : DbReply K) (point : SettlePoint K)
      (r : DriverState K S × SettleStatus K × List (DriverEvent K P)),
      SettleEffect env w.driver l.clock job reply point r → .settled call ∈ r.2.2 →
      w.driver.openPositions.get? job.slug = some call.pos ∧ call.clock = l.clock ∧
        ReadsOpen job reply call.openPrice point := by
    intro job reply point r effect hmem
    cases effect with
    | quiet => cases hmem
    | dropped => simp at hmem
    | settled _ pos settlePrice settleTs openPrice isOpen reads =>
      obtain rfl := DriverEvent.settled.inj (List.mem_singleton.mp hmem)
      exact ⟨isOpen, rfl, reads⟩
    | booked => simp at hmem
  have heffect := driver_effect env w l
  generalize (driverMachine env).next w l = w' at heffect
  generalize (driverMachine env).emits w l = es at heffect he
  cases heffect with
  | tick d ks action idle =>
    rcases mem_handleTick_events env _ _ _ _ _ he with h | ⟨-, h⟩ | ⟨-, h⟩ | ⟨_, h⟩ |
      ⟨_, _, _, -, h⟩ <;> cases h
  | consumerSettles reply job point r action consumer effect =>
    exact ⟨job, point, reply, by simp [answered, action, consumer],
      hsettle job reply point r effect he⟩
  | watchdogSettles reply job point rest r action watchdog effect =>
    exact ⟨job, point, reply, by simp [answered, action, watchdog],
      hsettle job reply point r effect he⟩
  | enters reply attempt consumer => simp at he
  | _ => cases he

/-- A timely settlement that is answered calls `exec.settle` on time, against the open of its
market. -/
theorem settled_step [IsStrictOrderedRing K] (path : K → K) (ls : List (DriverLabel K))
    (w : World K S) (l : DriverLabel K) (hl : FeedLabel closeOf path ls l)
    (hrec : openRecorded w l = true) (h : Timely closeOf ls w) (call : SettleCall K)
    (he : .settled call ∈ (driverMachine env).emits w l) :
    call.pos.windowCloseTs ≤ call.clock ∧ ∃ t : K,
      |t - (call.pos.windowCloseTs - (windowSecondsForSlug call.pos.marketSlug : K))| ≤ 5 ∧
        call.openPrice = path t := by
  obtain ⟨job, point, reply, hanswers, hget, hclock, hreads⟩ := settled_of_mem env w l call he
  obtain ⟨hslug, hclose⟩ := h.openPositions _ _ hget
  have hjob : JobTimely closeOf ls job point := by
    rcases answered_eq_some w l job point reply hanswers with ⟨-, hc⟩ | ⟨-, rest, hw⟩
    · have := h.consumer
      rw [hc] at this
      exact this
    · have := h.watchdog
      rw [hw] at this
      exact this.1
  obtain ⟨⟨⟨hjobSlug, hjobClose⟩, hpast⟩, hnoCandle⟩ := hjob
  cases point with
  | firstTick p t =>
    obtain ⟨h5m, tables, htables, first, hfirst, price, hprice, hpos, hnear, hfound⟩ :=
      found_of_openRecorded hrec hanswers
    rw [hjobSlug] at h5m
    constructor
    · obtain ⟨l0, hl0, hclosed⟩ := hpast h5m
      rw [hclose, hclock]
      exact hclosed.trans (hl.clock l0 hl0)
    · refine ⟨first.ts, ?_, ?_⟩
      · rw [hslug, windowSeconds_of_not_15m _ h5m, hclose, ← hjobClose]
        exact_mod_cast hnear
      · have hanswer : some call.openPrice = some price := hreads.symm.trans hfound
        rw [Option.some.inj hanswer]
        refine hl.tables reply tables ?_ htables first hfirst price hprice hpos
        exact (answered_eq_some w l job _ reply hanswers).imp And.left And.left
  | ohlcvOpen p t => exact absurd rfl (hnoCandle p t)
  | _ => exact absurd hreads not_false

/-- **When positions are settled on time.** In every run from a boot whose first-tick queries
are about five-minute markets with a tick recorded at the open, no position is settled before
its window closes, and the price compared with is the one at the market's own open.
SOURCE: paper/driver.py:348-362, 511-649, paper/tick_recorder.py:35-46 -/
theorem settles_on_time [IsStrictOrderedRing K] (closeOf : String → ℤ) (path : K → K)
    (strategy : S) (paused : Bool) (rows : Option (List String)) (dailyPnl : K)
    (dailyTrades : ℤ) (orders : Table (OrderRow.key (K := K)))
    (fills : Table (FillRow.key (K := K))) (ls : List (DriverLabel K))
    (hfeed : Obeys (FeedLabel closeOf path) ls)
    (hrec : (driverMachine env).Along (fun w l => openRecorded w l = true)
      (World.boot (DriverState.boot strategy paused rows dailyPnl dailyTrades) orders fills)
      ls) :
    SettlesOnTime path ((driverMachine env).trace
      (World.boot (DriverState.boot strategy paused rows dailyPnl dailyTrades) orders fills)
      ls) := by
  generalize hboot : World.boot (DriverState.boot strategy paused rows dailyPnl dailyTrades)
    orders fills = boot at hrec ⊢
  have hstart : Timely closeOf [] boot := by
    rw [← hboot]
    refine ⟨fun slug pos hget => ?_, trivial, trivial⟩
    simp [World.boot, DriverState.boot] at hget
  have hrun : ∀ pre, Obeys (FeedLabel closeOf path) pre →
      (driverMachine env).Along (fun w l => openRecorded w l = true) boot pre →
      Timely closeOf pre ((driverMachine env).final boot pre) := fun pre hpre halong =>
    (driverMachine env).invariant
      (fun pre l => FeedLabel closeOf path pre l ∧
        openRecorded ((driverMachine env).final boot pre) l = true)
      (fun pre w _ => Timely closeOf pre w) boot hstart
      (fun pre l hl ih => timely_step env path pre _ l hl.1 hl.2 ih) pre
      ((Obeys.and_iff pre).mpr ⟨hpre, halong⟩)
  intro call hcall
  obtain ⟨pre, l, post, heq, he⟩ := ((driverMachine env).mem_trace_iff _ _ _).mp hcall
  exact settled_step env path pre _ l (hfeed pre l post heq) (hrec pre l post heq)
    (hrun pre (Obeys.of_append (heq ▸ hfeed)) (Obeys.of_append (heq ▸ hrec))) call he

end Timely

section Instance

/-- A market whose open price was captured. -/
def quotedMarket (slug : String) (closeTs : ℤ) : MarketMeta ℚ :=
  ⟨"0x1", slug, closeTs, 100, true⟩

/-- Both tokens offered at 0.50. -/
def quotedBook : CLOBBookSnapshot ℚ := ⟨49 / 100, 1 / 2, 49 / 100, 1 / 2, 10, 10⟩

/-- The message about such a market with that book. -/
def publishedTick (slug : String) (closeTs : ℤ) (spot now : ℚ) : TickDict ℚ :=
  composeTick (quotedMarket slug closeTs) quotedBook ⟨spot, spot⟩ now

/-- Inside the publishing window that message is published. -/
theorem published_publishedTick (slug : String) (closeTs : ℤ) (spot now : ℚ)
    (hin : IsInPublishingWindow closeTs now slug) :
    Published (fun _ => closeTs) (publishedTick slug closeTs spot now) := by
  have hlen : ¬(windowSecondsForSlug slug : ℚ) < tInWindowAt closeTs slug now := by
    rw [not_lt, tInWindowAt, max_le_iff]
    refine ⟨?_, by linarith [hin.2]⟩
    unfold windowSecondsForSlug
    split <;> norm_num
  have hcapture : (quotedMarket slug closeTs).captureOpen ⟨spot, spot⟩ now =
      quotedMarket slug closeTs := if_neg fun h => Bool.noConfusion h.1
  refine ⟨quotedMarket slug closeTs, quotedMarket slug closeTs, some quotedBook, ⟨spot, spot⟩,
    now, composeRow (quotedMarket slug closeTs) ⟨spot, spot⟩ now, ?_, rfl⟩
  refine (if_neg (not_not.mpr hin)).trans ?_
  dsimp only
  rw [hcapture]
  exact if_neg hlen

/-- The price is 100 and then, at `t`, 101. -/
def steppedPath (t : ℚ) (ts : ℚ) : ℚ := if ts < t then 100 else 101

/-- A fifteen-minute market is entered at 100 s, and its tick at 600 s takes the position for
settlement. -/
def earlyRun : List (DriverLabel ℚ) :=
  entryLabels (publishedTick "btc-updown-15m-900" 900 100 100) ++
    [⟨600, .tick (publishedTick "btc-updown-15m-900" 900 101 600) false⟩,
      ⟨600, .consumerResumes ⟨some (twoTicks 596 100 600 101), .committed⟩⟩,
      ⟨600, .consumerResumes ⟨some (twoTicks 596 100 600 101), .committed⟩⟩]

/-- Two ticks, at the open and at the close, record the stepped price. -/
theorem recordsPath_twoTicks (openTs closeTs : ℚ) (h : openTs < closeTs) :
    RecordsPath (steppedPath closeTs) (twoTicks openTs 100 closeTs 101) := by
  intro row hrow spot hspot hpos
  simp only [twoTicks, List.mem_cons, List.not_mem_nil, or_false] at hrow
  rcases hrow with rfl | rfl
  · simp_all [steppedPath, eq_comm]
  · simp_all [steppedPath, eq_comm]

/-- The world around `earlyRun` is in order. -/
theorem feed_earlyRun : Obeys (FeedLabel (fun _ => 900) (steppedPath 600)) earlyRun := by
  have hpub : ∀ spot now : ℚ, 0 ≤ now → now < 900 →
      Published (fun _ => 900) (publishedTick "btc-updown-15m-900" 900 spot now) := by
    intro spot now h0 h1
    refine published_publishedTick _ _ _ _ ⟨?_, by exact_mod_cast h1⟩
    rw [windowSecondsForSlug, if_pos (by decide +kernel)]
    push_cast
    linarith
  have hpath := recordsPath_twoTicks 596 600 (by norm_num)
  simp only [earlyRun, entryLabels, List.cons_append, List.nil_append, Obeys.cons_iff]
  refine ⟨?_, ?_, ?_, ?_, ?_, ?_, ?_, Obeys.nil⟩
  all_goals
    refine ⟨by decide +kernel, fun d ks hd => ?_, fun reply tables hreply htables => ?_⟩
    · cases hd <;> exact ⟨hpub _ _ (by norm_num) (by norm_num), le_refl _⟩
    · rcases hreply with hreply | hreply <;> cases hreply <;> cases htables <;> exact hpath

def settlesEarly : DriverEvent ℚ Unit → Bool
  | .settled call => call.clock < call.pos.windowCloseTs
  | _ => false

/-- A position in a fifteen-minute market is settled five minutes before the close, against a
price from ten minutes after the open.
SOURCE: paper/driver.py:350, 629-643, paper/tick_recorder.py:35-46 -/
theorem settled_before_close :
    Obeys (FeedLabel (fun _ => 900) (steppedPath 600)) earlyRun ∧
      ¬SettlesOnTime (steppedPath 600)
        ((driverMachine (eagerDriver 60)).trace (eagerBoot []) earlyRun) := by
  refine ⟨feed_earlyRun, fun h => ?_⟩
  have hearly : ((driverMachine (eagerDriver 60)).trace (eagerBoot []) earlyRun).any
      settlesEarly = true := by decide +kernel
  obtain ⟨e, he, hlt⟩ := List.any_eq_true.mp hearly
  cases e with
  | settled call => exact absurd (h call he).1 (not_le.mpr (of_decide_eq_true hlt))
  | _ => cases hlt

/-- A five-minute market is entered 100 s into its window and settled after its close. -/
def timelyRun : List (DriverLabel ℚ) :=
  entryLabels (publishedTick "btc-updown-5m-1500" 1500 100 1300) ++
    watchdogLabels 1520 (twoTicks 1200 100 1500 101)

/-- The labels of the run are what the feed gives. -/
theorem feed_timelyRun : Obeys (FeedLabel (fun _ => 1500) (steppedPath 1500)) timelyRun := by
  have hpub := published_publishedTick "btc-updown-5m-1500" 1500 100 1300
    (by constructor <;> decide +kernel)
  have hpath := recordsPath_twoTicks 1200 1500 (by norm_num)
  simp only [timelyRun, entryLabels, watchdogLabels, List.cons_append, List.nil_append,
    Obeys.cons_iff]
  refine ⟨?_, ?_, ?_, ?_, ?_, ?_, ?_, Obeys.nil⟩
  all_goals
    refine ⟨by decide +kernel, fun d ks hd => ?_, fun reply tables hreply htables => ?_⟩
    · cases hd <;> exact ⟨hpub, le_refl _⟩
    · rcases hreply with hreply | hreply <;> cases hreply <;> cases htables <;> exact hpath

/-- That run settles on time. -/
theorem settles_on_time_timelyRun :
    SettlesOnTime (steppedPath 1500)
      ((driverMachine (eagerDriver 60)).trace (eagerBoot []) timelyRun) := by
  refine settles_on_time (eagerDriver 60) (fun _ => 1500) (steppedPath 1500) () false (some [])
    0 0 Table.empty Table.empty timelyRun feed_timelyRun ?_
  simp only [Machine.Along, timelyRun, entryLabels, watchdogLabels, List.cons_append,
    List.nil_append, Obeys.cons_iff]
  refine ⟨?_, ?_, ?_, ?_, ?_, ?_, ?_, Obeys.nil⟩ <;> decide +kernel

end Instance

end TradingEdge.Analysis
