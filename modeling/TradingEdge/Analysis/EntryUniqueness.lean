import TradingEdge.Analysis.DriverSteps

/-!
# One entry, one settlement

Four facts about every run of the paper driver, whatever the interleaving and whatever the
database answers.

* No market is entered twice.  The set of traded markets is cleared at midnight and loses a
  market after its window, so the guard is not the set alone: the invariant `Guarded` says
  that an entered market is in the set or the last handled tick is past its close.  It
  survives the midnight roll because a window lies inside one UTC day.
* Positions are conserved: what `try_enter` returned is what is open, settled or dropped.
* So no position is settled more often than it was returned.
* The daily pnl is the sum of the pnls booked since the last day roll.
-/

set_option autoImplicit false

namespace TradingEdge.Analysis

open TradingEdge.Model TradingEdge.Program TradingEdge.Library

variable {K S P : Type} [Field K] [LinearOrder K]

/-! ## What a run says -/

/-- The positions an event returns from `try_enter`. -/
def returnedOf : DriverEvent K P → List (Position K)
  | .entered pos => [pos]
  | _ => []

/-- The positions an event hands to `exec.settle`. -/
def settledOf : DriverEvent K P → List (Position K)
  | .settled call => [call.pos]
  | _ => []

/-- The positions an event settles or gives up. -/
def closedOf : DriverEvent K P → List (Position K)
  | .settled call => [call.pos]
  | .dropped pos => [pos]
  | _ => []

/-- The pnl an event books. -/
def bookedOf : DriverEvent K P → K
  | .booked _ _ pnl _ => pnl
  | _ => 0

/-- An event that rolls the day. -/
def isDayRoll : DriverEvent K P → Bool
  | .dayRolled _ => true
  | _ => false

/-- The markets a run has entered. -/
def enteredSlugs (es : List (DriverEvent K P)) : List String :=
  (es.flatMap returnedOf).map fun pos => pos.marketSlug

/-- The tick messages among some labels. -/
def ticksOf (ls : List (DriverLabel K)) : List (TickDict K) :=
  ls.filterMap fun l =>
    match l.action with
    | .tick d _ => some d
    | _ => none

/-- The start of the window of a market that closes at `300 * c`. -/
def opensAt (c : ℤ) : K := 300 * c - 300

/-- A tick as the feed gives it: timestamps do not go back, a market keeps its close, a
multiple of 300, and `t_in_window` counts from the open. -/
structure OrderlyTick (closeOf : String → ℤ) (pre : List (DriverLabel K)) (d : TickDict K) :
    Prop where
  ordered : ∀ earlier ∈ ticksOf pre, earlier.ts ≤ d.ts
  close : d.windowCloseTs = 300 * closeOf d.marketSlug
  tInWindow : orZero d.tInWindow = max 0 (d.ts - (d.windowCloseTs - 300))

/-- The ticks of a run are orderly. -/
def OrderlyTicks (closeOf : String → ℤ) (pre : List (DriverLabel K)) (l : DriverLabel K) :
    Prop :=
  ∀ d ks, l.action = .tick d ks → OrderlyTick closeOf pre d

/-- The positions of a run add up: none is settled more often than `try_enter` returned it, what is
open is what was returned less what was settled or given up, and the daily pnl is what was booked
since the last day roll. -/
structure PositionsAccounted [FloorRing K] (env : DriverEnv K S P) (w : World K S)
    (ls : List (DriverLabel K)) : Prop where
  settled_once : (((driverMachine env).trace w ls).flatMap settledOf).Subperm
    (((driverMachine env).trace w ls).flatMap returnedOf)
  open_conserved : (((driverMachine env).trace w ls).flatMap returnedOf).Perm
    (((driverMachine env).final w ls).driver.openPositions.values ++
      ((driverMachine env).trace w ls).flatMap closedOf)
  dailyPnl_booked : ((driverMachine env).final w ls).driver.dailyPnl =
    ((sinceLast isDayRoll ((driverMachine env).trace w ls)).map bookedOf).sum

/-- No market is entered twice in a run. -/
def EnteredOnce [FloorRing K] (env : DriverEnv K S P) (w : World K S)
    (ls : List (DriverLabel K)) : Prop :=
  (enteredSlugs ((driverMachine env).trace w ls)).Nodup

/-- The trades of a run add up. -/
def TradesAccounted [FloorRing K] (env : DriverEnv K S P) (w : World K S)
    (ls : List (DriverLabel K)) : Prop :=
  EnteredOnce env w ls ∧ PositionsAccounted env w ls

omit [Field K] [LinearOrder K] in
/-- The ticks after one more step. -/
theorem mem_ticksOf_concat (pre : List (DriverLabel K)) (l : DriverLabel K) (d : TickDict K) :
    d ∈ ticksOf (pre ++ [l]) ↔ d ∈ ticksOf pre ∨ ∃ ks, l.action = .tick d ks := by
  unfold ticksOf
  rw [List.filterMap_append, List.mem_append]
  refine or_congr_right ?_
  cases ha : l.action with
  | tick d' ks => simp [ha, eq_comm]
  | _ => simp [ha]

/-! ## Custody of the positions -/

section Custody

variable [FloorRing K] (env : DriverEnv K S P)

/-- An entry being persisted has no open position in its market. -/
def NothingPending (w : World K S) : Prop :=
  ∀ attempt, attemptOf w.consumer = some attempt →
    w.driver.openPositions.get? attempt.position.marketSlug = none

/-- A settlement releases what it takes out. -/
theorem settleEffect_conserves (st : DriverState K S) (clock : K) (job : SettleJob K)
    (reply : DbReply K) (point : SettlePoint K)
    (r : DriverState K S × SettleStatus K × List (DriverEvent K P))
    (effect : SettleEffect env st clock job reply point r) :
    st.openPositions.values.Perm (r.1.openPositions.values ++ r.2.2.flatMap closedOf) ∧
      r.2.2.flatMap returnedOf = [] ∧
      ∀ slug, st.openPositions.get? slug = none → r.1.openPositions.get? slug = none := by
  have hpop : ∀ slug, st.openPositions.get? slug = none →
      (st.openPositions.pop job.slug).get? slug = none := by
    intro slug h
    rw [Dict.get?_pop]
    split
    · rfl
    · exact h
  cases effect with
  | quiet _ st' status same plain =>
    rw [same.openPositions]
    exact ⟨by simp, rfl, fun _ h => h⟩
  | dropped _ st' same =>
    rw [same.openPositions]
    cases hget : st.openPositions.get? job.slug with
    | none =>
      dsimp only
      rw [Dict.pop_of_get?_none _ _ hget]
      exact ⟨by simp, rfl, fun _ h => h⟩
    | some pos =>
      refine ⟨?_, rfl, hpop⟩
      exact (Dict.values_perm_pop _ _ _ hget).trans (List.perm_append_singleton _ _).symm
  | settled _ pos settlePrice settleTs openPrice isOpen reads =>
    refine ⟨?_, rfl, hpop⟩
    exact (Dict.values_perm_pop _ _ _ isOpen).trans (List.perm_append_singleton _ _).symm
  | booked pos settleTs pnl fill => exact ⟨by simp [closedOf], rfl, fun _ h => h⟩

/-- The events of a tick move no position. -/
theorem handleTick_moves_nothing (st : DriverState K S) (clock : K) (d : TickDict K)
    (ks : Bool) :
    (handleTick env st clock d ks).2.2.flatMap returnedOf = [] ∧
      (handleTick env st clock d ks).2.2.flatMap closedOf = [] := by
  simp only [List.flatMap_eq_nil_iff]
  refine ⟨fun e he => ?_, fun e he => ?_⟩ <;>
    rcases mem_handleTick_events env st clock d ks e he with rfl | ⟨-, rfl⟩ | ⟨-, rfl⟩ |
      ⟨_, rfl⟩ | ⟨_, _, _, -, rfl⟩ <;> rfl

/-- While an entry is persisted its market stays without a position. -/
theorem nothingPending_step (w : World K S) (l : DriverLabel K) (h : NothingPending w) :
    NothingPending ((driverMachine env).next w l) := by
  have heffect := driver_effect env w l
  generalize (driverMachine env).next w l = w' at heffect ⊢
  generalize (driverMachine env).emits w l = es at heffect
  intro attempt hattempt
  cases heffect with
  | tick d ks action idle =>
    dsimp only at hattempt ⊢
    rw [handleTick_openPositions]
    obtain ⟨risk, dec, strategy, hgate, hok⟩ := attemptOf_handleTick hattempt
    have hnone := ((tickGate_eq_enter_iff env _ _ _ risk dec strategy).mp hgate).2.1
    rw [(tryEnter_ok _ _ _ _ _ hok).1]
    simpa using hnone
  | control msg => cases msg <;> exact h attempt hattempt
  | consumerSettles reply job point r action consumer effect =>
    dsimp only at hattempt
    rw [attemptOf_consumerAfter] at hattempt
    cases hattempt
  | orderWritten reply attempt' consumer next hnext =>
    rcases hnext with rfl | rfl
    · cases hattempt
      exact h attempt (by rw [consumer]; rfl)
    · cases hattempt
  | watchdogSettles reply job point rest r action watchdog effect =>
    exact (settleEffect_conserves _ _ _ _ _ _ _ effect).2.2 _ (h attempt hattempt)
  | sweep =>
    dsimp only
    rw [(sameAccounts_orphanCleanup _ _).openPositions]
    exact h attempt hattempt
  | stall => exact h attempt hattempt
  | wakes sleeping => exact h attempt hattempt
  | _ => cases hattempt

/-- **Positions are conserved**: what `try_enter` returned is open, settled or given up. -/
theorem custody :
    Custody (driverMachine env) NothingPending (fun w => w.driver.openPositions.values)
      returnedOf closedOf where
  preserved := nothingPending_step env
  conserved w l hpending := by
    have heffect := driver_effect env w l
    generalize (driverMachine env).next w l = w' at heffect ⊢
    generalize (driverMachine env).emits w l = es at heffect ⊢
    cases heffect with
    | tick d ks action idle =>
      obtain ⟨hreturned, hclosed⟩ := handleTick_moves_nothing env w.driver l.clock d ks
      simp only [handleTick_openPositions, hreturned, hclosed]
      exact List.Perm.refl _
    | control msg => cases msg <;> simp [DriverState.handleControlMessage]
    | consumerSettles reply job point r action consumer effect =>
      obtain ⟨hperm, hreturned, -⟩ := settleEffect_conserves _ _ _ _ _ _ _ effect
      rw [hreturned, List.append_nil]
      exact hperm
    | watchdogSettles reply job point rest r action watchdog effect =>
      obtain ⟨hperm, hreturned, -⟩ := settleEffect_conserves _ _ _ _ _ _ _ effect
      rw [hreturned, List.append_nil]
      exact hperm
    | enters reply attempt consumer =>
      have hnone := hpending attempt (by rw [consumer]; rfl)
      simp [DriverState.recordEntry, Dict.values_set_of_get?_none _ _ _ hnone, returnedOf,
        closedOf]
    | sweep => simp [(sameAccounts_orphanCleanup w.driver l.clock).openPositions]
    | _ => simp

end Custody

/-! ## The daily pnl -/

section DailyPnl

variable [FloorRing K] (env : DriverEnv K S P)

/-- How an event changes the daily pnl. -/
def accrue (total : K) (e : DriverEvent K P) : K :=
  if isDayRoll e then 0 else total + bookedOf e

omit [LinearOrder K] [FloorRing K] in
/-- Events without a booking and without a roll change nothing. -/
theorem foldl_accrue_of_forall (es : List (DriverEvent K P)) (total : K)
    (h : ∀ e ∈ es, isDayRoll e = false ∧ bookedOf e = 0) : es.foldl accrue total = total := by
  induction es with
  | nil => rfl
  | cons e es ih =>
    rw [List.forall_mem_cons] at h
    obtain ⟨⟨hroll, hbooked⟩, hes⟩ := h
    rw [List.foldl_cons, accrue, hroll, hbooked, if_neg Bool.false_ne_true, add_zero]
    exact ih hes

/-- A tick resets the daily pnl exactly when it rolls the day. -/
theorem foldl_accrue_handleTick (st : DriverState K S) (clock : K) (d : TickDict K)
    (ks : Bool) :
    (handleTick env st clock d ks).2.2.foldl accrue st.dailyPnl =
      (handleTick env st clock d ks).1.dailyPnl := by
  have hgate : ∀ total, (gated env st clock d ks).2.2.foldl accrue total = total := by
    intro total
    refine foldl_accrue_of_forall _ _ fun e he => ?_
    rcases mem_atGate_events env _ _ _ _ _ _ e he with ⟨_, rfl, -⟩ | ⟨_, _, _, -, rfl⟩ <;>
      exact ⟨rfl, rfl⟩
  have hpause : ∀ total, (pauseEvents env (rolledState env st d) d.marketSlug).foldl accrue
      total = (total : K) := by
    intro total
    refine foldl_accrue_of_forall _ _ fun e he => ?_
    unfold pauseEvents at he
    split at he
    · rw [List.mem_singleton.mp he]
      exact ⟨rfl, rfl⟩
    · cases he
  rw [handleTick_dailyPnl, rolledState_dailyPnl, handleTick_eq]
  dsimp only
  rw [List.cons_append, List.cons_append, List.foldl_cons, List.foldl_append,
    List.foldl_append, hpause, hgate]
  rw [rollEvents_eq]
  by_cases hroll : Rolls st d
  · rw [if_pos hroll, if_pos hroll]
    rfl
  · rw [if_neg hroll, if_neg hroll]
    simp [accrue, isDayRoll, bookedOf]

/-- A settlement accrues what it books. -/
theorem foldl_accrue_settle (st : DriverState K S) (clock : K) (job : SettleJob K)
    (reply : DbReply K) (point : SettlePoint K)
    (r : DriverState K S × SettleStatus K × List (DriverEvent K P))
    (effect : SettleEffect env st clock job reply point r) :
    r.2.2.foldl accrue st.dailyPnl = r.1.dailyPnl := by
  cases effect with
  | quiet _ st' status same plain => exact same.dailyPnl.symm
  | dropped _ st' same =>
    rw [same.dailyPnl]
    refine foldl_accrue_of_forall _ _ fun e he => ?_
    obtain ⟨pos, -, rfl⟩ := List.mem_map.mp he
    exact ⟨rfl, rfl⟩
  | settled => simp [accrue, isDayRoll, bookedOf]
  | booked => rfl

/-- **One step accrues its events.** -/
theorem dailyPnl_step (w : World K S) (l : DriverLabel K) :
    ((driverMachine env).next w l).driver.dailyPnl =
      ((driverMachine env).emits w l).foldl accrue w.driver.dailyPnl := by
  have heffect := driver_effect env w l
  generalize (driverMachine env).next w l = w' at heffect ⊢
  generalize (driverMachine env).emits w l = es at heffect ⊢
  cases heffect with
  | tick d ks action idle => exact (foldl_accrue_handleTick env w.driver l.clock d ks).symm
  | control msg => cases msg <;> rfl
  | consumerSettles reply job point r action consumer effect =>
    exact (foldl_accrue_settle env _ _ _ _ _ _ effect).symm
  | watchdogSettles reply job point rest r action watchdog effect =>
    exact (foldl_accrue_settle env _ _ _ _ _ _ effect).symm
  | enters reply attempt consumer =>
    simp [DriverState.recordEntry, accrue, isDayRoll, bookedOf]
  | sweep => exact (sameAccounts_orphanCleanup w.driver l.clock).dailyPnl
  | _ => rfl

/-- Over a run from a daily pnl of zero, the daily pnl is the sum of what was booked since
the last day roll. -/
theorem dailyPnl_run (w : World K S) (hw : w.driver.dailyPnl = 0) (ls : List (DriverLabel K)) :
    ((driverMachine env).final w ls).driver.dailyPnl =
      ((sinceLast isDayRoll ((driverMachine env).trace w ls)).map bookedOf).sum := by
  rw [← foldl_reset, (driverMachine env).foldl_trace (fun w => w.driver.dailyPnl) accrue
    (dailyPnl_step env), hw]
  rfl

end DailyPnl

/-! ## No market is entered twice -/

section Unique

variable [FloorRing K] [IsStrictOrderedRing K] (env : DriverEnv K S P) (closeOf : String → ℤ)

omit [FloorRing K] in
/-- On an orderly tick, 300 s into the window is past the close. -/
theorem OrderlyTick.closed_iff {closeOf : String → ℤ} {pre : List (DriverLabel K)}
    {d : TickDict K} (h : OrderlyTick closeOf pre d) :
    300 ≤ orZero d.tInWindow ↔ 300 * (closeOf d.marketSlug : K) ≤ d.ts := by
  rw [h.tInWindow, h.close, le_max_iff]
  constructor
  · rintro (h0 | h0) <;> linarith
  · intro h0
    right
    linarith

/-- The last handled tick is past the open of a market, and the market is marked as traded
unless that tick is past its close. -/
def Guarded (pre : List (DriverLabel K)) (st : DriverState K S) (slug : String) : Prop :=
  ∃ d ∈ ticksOf pre, st.today = some (utcDay d.ts) ∧ opensAt (closeOf slug) ≤ d.ts ∧
    (slug ∈ st.tradeTaken ∨ 300 * (closeOf slug : K) ≤ d.ts)

/-- No market was entered twice, every entered market is guarded, and the market of an entry
being persisted was not entered before. -/
structure EntriesGuarded (pre : List (DriverLabel K)) (w : World K S)
    (es : List (DriverEvent K P)) : Prop where
  nodup : (enteredSlugs es).Nodup
  guarded : ∀ slug ∈ enteredSlugs es, Guarded closeOf pre w.driver slug
  pending : ∀ attempt, attemptOf w.consumer = some attempt →
    attempt.position.marketSlug ∉ enteredSlugs es ∧ ∃ d ∈ ticksOf pre,
      w.driver.today = some (utcDay d.ts) ∧ opensAt (closeOf attempt.position.marketSlug) ≤ d.ts

/-- A mark survives the day roll of a later tick, unless that tick is past the close of the
market: up to then the day is the same, since a window lies inside one day. -/
theorem guarded_atGates (st : DriverState K S) (slug : String) (d d' : TickDict K)
    (horder : d.ts ≤ d'.ts) (htoday : st.today = some (utcDay d.ts))
    (hopen : opensAt (closeOf slug) ≤ d.ts)
    (h : slug ∈ st.tradeTaken ∨ 300 * (closeOf slug : K) ≤ d.ts) :
    slug ∈ (gateState env st d').tradeTaken ∨ 300 * (closeOf slug : K) ≤ d'.ts := by
  by_cases hclosed : 300 * (closeOf slug : K) ≤ d'.ts
  · exact Or.inr hclosed
  · left
    have hnotYet : d'.ts < 300 * (closeOf slug : K) := not_le.mp hclosed
    have htaken : slug ∈ st.tradeTaken :=
      h.resolve_right fun hc => hclosed (hc.trans horder)
    have hday : utcDay d'.ts = utcDay d.ts := utcDay_of_window hopen horder hnotYet
    have hsame : ¬Rolls st d' := by
      rw [Rolls, hday, htoday]
      exact fun hne => hne rfl
    rw [mem_gateState_tradeTaken, rolledState_tradeTaken, if_neg hsame]
    exact Or.inl htaken

/-- It also survives the rest of the tick: the post-window discard needs a tick past the
close. -/
theorem guarded_handleTick (pre : List (DriverLabel K)) (st : DriverState K S) (clock : K)
    (ks : Bool) (slug : String) (d : TickDict K) (horderly : OrderlyTick closeOf pre d)
    (h : slug ∈ (gateState env st d).tradeTaken ∨ 300 * (closeOf slug : K) ≤ d.ts) :
    slug ∈ (handleTick env st clock d ks).1.tradeTaken ∨ 300 * (closeOf slug : K) ≤ d.ts := by
  rcases h with htaken | hclosed
  · rcases atGate_tradeTaken env (gateState env st d) clock (conditionIdOf d) ks
      (observeTick env st d).ctx (gateOf env st d) with heq | ⟨ht, heq⟩
    · exact Or.inl (by rw [handleTick_eq]; exact heq ▸ htaken)
    · by_cases hslug : slug = d.marketSlug
      · right
        rw [hslug]
        exact horderly.closed_iff.mp ht
      · left
        rw [handleTick_eq]
        change slug ∈ (gated env st clock d ks).1.tradeTaken
        rw [gated, heq]
        exact Finset.mem_erase.mpr ⟨hslug, htaken⟩
  · exact Or.inr hclosed

/-- A market entered before is not sent to the entry by an orderly tick. -/
theorem not_guarded_of_enter (pre : List (DriverLabel K)) (hlatest : env.cfg.latestEntryT < 300)
    (st : DriverState K S) (d : TickDict K) (horderly : OrderlyTick closeOf pre d)
    (risk : RiskState K) (dec : Decision P) (strategy : S)
    (hgate : gateOf env st d = .enter risk dec strategy) :
    ¬(d.marketSlug ∈ (gateState env st d).tradeTaken ∨
      300 * (closeOf d.marketSlug : K) ≤ d.ts) := by
  obtain ⟨-, -, hfree, ⟨-, hlate⟩, -⟩ := (tickGate_eq_enter_iff env _ _ _ risk dec strategy).mp hgate
  rintro (htaken | hclosed)
  · exact hfree htaken
  · have ht := horderly.closed_iff.mpr hclosed
    have hlate' : orZero d.tInWindow ≤ (env.cfg.latestEntryT : K) := hlate
    have : ((300 : ℤ) : K) ≤ (env.cfg.latestEntryT : K) := by
      push_cast
      exact ht.trans hlate'
    exact absurd (Int.cast_le.mp this) (not_le.mpr hlatest)

/-- A tick that is sent to the entry is past the open of its market, if the entry window
starts after the open or no tick comes before it. -/
theorem opensAt_le_of_enter (pre : List (DriverLabel K)) (st : DriverState K S)
    (d : TickDict K) (horderly : OrderlyTick closeOf pre d)
    (hopen : 0 < env.cfg.earliestEntryT ∨ d.windowCloseTs - 300 ≤ d.ts)
    (risk : RiskState K) (dec : Decision P) (strategy : S)
    (hgate : gateOf env st d = .enter risk dec strategy) :
    opensAt (closeOf d.marketSlug) ≤ d.ts := by
  obtain ⟨-, -, -, ⟨hearly, -⟩, -⟩ := (tickGate_eq_enter_iff env _ _ _ risk dec strategy).mp hgate
  unfold opensAt
  rw [← horderly.close]
  rcases hopen with hpos | h
  · have ht : 0 < orZero d.tInWindow := (Int.cast_pos.mpr hpos).trans_le hearly
    rw [horderly.tInWindow, lt_max_iff] at ht
    rcases ht with ht | ht
    · exact absurd ht (lt_irrefl _)
    · linarith
  · exact h

omit [IsStrictOrderedRing K] [Field K] [LinearOrder K] [FloorRing K] in
/-- Events that return no position enter no market. -/
theorem enteredSlugs_append_of_nil (es new : List (DriverEvent K P))
    (h : new.flatMap returnedOf = []) : enteredSlugs (es ++ new) = enteredSlugs es := by
  rw [enteredSlugs, List.flatMap_append, h, List.append_nil]
  rfl

omit [IsStrictOrderedRing K] [Field K] [LinearOrder K] [FloorRing K] in
/-- Settlements return no trade. -/
theorem flatMap_returnedOf_settlements (es : List (DriverEvent K P))
    (h : ∀ e ∈ es, isSettlement e = true) : es.flatMap returnedOf = [] := by
  rw [List.flatMap_eq_nil_iff]
  intro e he
  have := h e he
  cases e <;> first | rfl | cases this

/-- What a run assumes of its ticks so that no market is entered twice. -/
def EntryTicks (pre : List (DriverLabel K)) (l : DriverLabel K) : Prop :=
  ∀ d ks, l.action = .tick d ks → OrderlyTick closeOf pre d ∧
    (0 < env.cfg.earliestEntryT ∨ d.windowCloseTs - 300 ≤ d.ts)

/-- **One step keeps the entries guarded.** -/
theorem entriesGuarded_step (hlatest : env.cfg.latestEntryT < 300)
    (pre : List (DriverLabel K)) (w : World K S) (es : List (DriverEvent K P))
    (l : DriverLabel K) (hl : EntryTicks env closeOf pre l)
    (h : EntriesGuarded closeOf pre w es) :
    EntriesGuarded closeOf (pre ++ [l]) ((driverMachine env).next w l)
      (es ++ (driverMachine env).emits w l) := by
  obtain ⟨hnodup, hguarded, hpending⟩ := h
  have hold : ∀ d ∈ ticksOf pre, d ∈ ticksOf (pre ++ [l]) := fun d hd =>
    (mem_ticksOf_concat pre l d).mpr (Or.inl hd)
  have heffect := driver_tradeEffect env w l
  generalize (driverMachine env).next w l = w' at heffect ⊢
  generalize (driverMachine env).emits w l = new at heffect ⊢
  cases heffect with
  | tick d ks action idle driver consumer events =>
    obtain ⟨horderly, hopen⟩ := hl d ks action
    have hnew : d ∈ ticksOf (pre ++ [l]) := (mem_ticksOf_concat pre l d).mpr (Or.inr ⟨ks, action⟩)
    have hatGates : ∀ slug ∈ enteredSlugs es, opensAt (closeOf slug) ≤ d.ts ∧
        (slug ∈ (gateState env w.driver d).tradeTaken ∨ 300 * (closeOf slug : K) ≤ d.ts) := by
      intro slug hslug
      obtain ⟨d0, hd0, htoday, hopen0, htaken⟩ := hguarded slug hslug
      have horder := horderly.ordered d0 hd0
      exact ⟨hopen0.trans horder,
        guarded_atGates env closeOf w.driver slug d0 d horder htoday hopen0 htaken⟩
    have hslugs : enteredSlugs (es ++ new) = enteredSlugs es := by
      rw [events]
      exact enteredSlugs_append_of_nil es _ (handleTick_moves_nothing env _ _ _ _).1
    refine ⟨by rw [hslugs]; exact hnodup, ?_, ?_⟩
    · intro slug hslug
      rw [hslugs] at hslug
      obtain ⟨hpast, htaken⟩ := hatGates slug hslug
      rw [driver]
      exact ⟨d, hnew, handleTick_today env _ _ _ _, hpast,
        guarded_handleTick env closeOf pre w.driver l.clock ks slug d horderly htaken⟩
    · intro attempt hattempt
      rw [consumer] at hattempt
      obtain ⟨risk, dec, strategy, hgate, hok⟩ := attemptOf_handleTick hattempt
      have hslug : attempt.position.marketSlug = d.marketSlug := (tryEnter_ok _ _ _ _ _ hok).1
      rw [hslug, hslugs, driver]
      refine ⟨fun hmem => ?_, d, hnew, handleTick_today env _ _ _ _, ?_⟩
      · exact not_guarded_of_enter env closeOf pre hlatest w.driver d horderly risk dec strategy
          hgate (hatGates _ hmem).2
      · exact opensAt_le_of_enter env closeOf pre w.driver d horderly hopen risk dec strategy
          hgate
  | enters attempt before after driver events =>
    obtain ⟨hfresh, d, hd, htoday, hpast⟩ := hpending attempt before
    have hslugs : enteredSlugs (es ++ new) =
        enteredSlugs es ++ [attempt.position.marketSlug] := by
      rw [events]
      simp [enteredSlugs, returnedOf]
    refine ⟨?_, ?_, fun attempt' hattempt => by rw [after] at hattempt; cases hattempt⟩
    · rw [hslugs]
      exact hnodup.append (List.nodup_singleton _) (List.disjoint_singleton.mpr hfresh)
    · intro slug hslug
      rw [hslugs, List.mem_append, List.mem_singleton] at hslug
      rw [driver]
      rcases hslug with hslug | rfl
      · obtain ⟨d0, hd0, htoday0, hpast0, htaken⟩ := hguarded slug hslug
        exact ⟨d0, hold d0 hd0, htoday0, hpast0, htaken.imp_left (Finset.mem_insert_of_mem ·)⟩
      · exact ⟨d, hold d hd, htoday, hpast, Or.inl (Finset.mem_insert_self _ _)⟩
  | aside tradeTaken today consumer events noTick =>
    have hslugs : enteredSlugs (es ++ new) = enteredSlugs es :=
      enteredSlugs_append_of_nil es new (flatMap_returnedOf_settlements new events)
    refine ⟨by rw [hslugs]; exact hnodup, ?_, ?_⟩
    · intro slug hslug
      rw [hslugs] at hslug
      obtain ⟨d, hd, htoday, hpast, htaken⟩ := hguarded slug hslug
      exact ⟨d, hold d hd, today.trans htoday, hpast, tradeTaken ▸ htaken⟩
    · intro attempt hattempt
      obtain ⟨hfresh, d, hd, htoday, hpast⟩ := hpending attempt (consumer attempt hattempt)
      exact ⟨hslugs ▸ hfresh, d, hold d hd, today.trans htoday, hpast⟩

/-- **No run enters a market twice**, on orderly ticks. -/
theorem enteredSlugs_nodup (hlatest : env.cfg.latestEntryT < 300) (w : World K S)
    (hidle : w.consumer = .idle) (ls : List (DriverLabel K))
    (hls : Obeys (EntryTicks env closeOf) ls) :
    (enteredSlugs ((driverMachine env).trace w ls)).Nodup := by
  have hstart : EntriesGuarded closeOf [] w ([] : List (DriverEvent K P)) := by
    refine ⟨List.nodup_nil, fun slug hslug => absurd hslug List.not_mem_nil, ?_⟩
    intro attempt hattempt
    rw [hidle] at hattempt
    cases hattempt
  exact ((driverMachine env).invariant (EntryTicks env closeOf) (EntriesGuarded closeOf) w hstart
    (fun pre l hl ih => entriesGuarded_step env closeOf hlatest pre _ _ l hl ih) ls hls).nodup

omit [IsStrictOrderedRing K] in
/-- No position is settled more often than it was returned. -/
theorem settled_subperm_returned (w : World K S) (hidle : w.consumer = .idle)
    (hopen : w.driver.openPositions = Dict.empty) (ls : List (DriverLabel K)) :
    (((driverMachine env).trace w ls).flatMap settledOf).Subperm
      (((driverMachine env).trace w ls).flatMap returnedOf) := by
  have hpending : NothingPending w := by
    intro attempt hattempt
    rw [hidle] at hattempt
    cases hattempt
  have hempty : w.driver.openPositions.values = [] := by rw [hopen]; rfl
  have hclosed := (custody env).released_subperm w hpending hempty ls
  refine List.Sublist.subperm ?_ |>.trans hclosed
  refine List.Sublist.flatMap_right _ fun e => ?_
  cases e <;> simp [settledOf, closedOf]

omit [IsStrictOrderedRing K] in
/-- The open positions are the returned ones less the settled and the dropped ones. -/
theorem open_perm_returned (w : World K S) (hidle : w.consumer = .idle)
    (hopen : w.driver.openPositions = Dict.empty) (ls : List (DriverLabel K)) :
    (((driverMachine env).trace w ls).flatMap returnedOf).Perm
      (((driverMachine env).final w ls).driver.openPositions.values ++
        ((driverMachine env).trace w ls).flatMap closedOf) := by
  have hpending : NothingPending w := by
    intro attempt hattempt
    rw [hidle] at hattempt
    cases hattempt
  have h := (custody env).run w hpending ls
  simpa [hopen] using h

/-- **Entry uniqueness and exactly-once settlement.** Over every run of the paper driver from a
fresh start, under any interleaving and any answers of the database, on orderly ticks: the positions
are accounted for, and no market is entered twice if the entry window starts after the open of a
market or no tick comes before it.
SOURCE: paper/driver.py:314-562, 676-714 -/
theorem trades_accounted (hlatest : env.cfg.latestEntryT < 300) (strategy : S)
    (paused : Bool) (rows : Option (List String)) (dailyTrades : ℤ)
    (orders : Table (OrderRow.key (K := K))) (fills : Table (FillRow.key (K := K)))
    (ls : List (DriverLabel K)) (hticks : Obeys (OrderlyTicks closeOf) ls) :
    let w := World.boot (DriverState.boot strategy paused rows 0 dailyTrades) orders fills
    PositionsAccounted env w ls ∧
      ((0 < env.cfg.earliestEntryT ∨ ∀ d ∈ ticksOf ls, d.windowCloseTs - 300 ≤ d.ts) →
        EnteredOnce env w ls) := by
  intro w
  refine ⟨⟨settled_subperm_returned env w rfl rfl ls, open_perm_returned env w rfl rfl ls,
    dailyPnl_run env w rfl ls⟩, fun hopen => ?_⟩
  refine enteredSlugs_nodup env closeOf hlatest w rfl ls fun pre l post hls d ks action => ?_
  refine ⟨hticks pre l post hls d ks action, hopen.imp_right fun h => h d ?_⟩
  rw [hls, ticksOf, List.mem_filterMap]
  exact ⟨l, by simp, by rw [action]⟩

end Unique

section Instance

/-- A market is entered at the last second of a day, settled, and its next tick belongs to
the next day. -/
def reentryRun : List (DriverLabel ℚ) :=
  entryLabels (quotedDict "btc-updown-5m-86400" 86399 0 86700) ++
    watchdogLabels 86716 (twoTicks 86400 100 86700 101) ++
    entryLabels (quotedDict "btc-updown-5m-86400" 86400 0 86700)

/-- The ticks of `reentryRun` are orderly: its market closes at 289 times 300. -/
theorem orderly_reentryRun : Obeys (OrderlyTicks fun _ => 289) reentryRun := by
  simp only [reentryRun, entryLabels, watchdogLabels, List.cons_append, List.nil_append,
    Obeys.cons_iff]
  refine ⟨?_, ?_, ?_, ?_, ?_, ?_, ?_, ?_, ?_, ?_, ?_, Obeys.nil⟩
  all_goals intro d ks hd; cases hd
  · exact ⟨by simp [ticksOf], by norm_num [quotedDict], by norm_num [quotedDict, orZero]⟩
  · exact ⟨List.forall_mem_singleton.mpr (by norm_num [quotedDict]), by norm_num [quotedDict],
      by norm_num [quotedDict, orZero]⟩

/-- With an entry window that starts at zero, a market whose first tick comes before its open,
at the end of a day, is entered again after midnight.
SOURCE: paper/driver.py:358, 708-714 -/
theorem entered_twice_over_midnight :
    Obeys (OrderlyTicks fun _ => 289) reentryRun ∧ (eagerDriver 0).cfg.latestEntryT < 300 ∧
      ¬TradesAccounted (eagerDriver 0) (eagerBoot []) reentryRun := by
  refine ⟨orderly_reentryRun, by decide +kernel, fun h => ?_⟩
  exact absurd h.1 (by unfold EnteredOnce; decide +kernel)

/-- The ticks of the run are orderly. -/
theorem orderly_settledRun : Obeys (OrderlyTicks fun _ => 5) settledRun := by
  simp only [settledRun, entryLabels, watchdogLabels, List.cons_append, List.nil_append,
    Obeys.cons_iff]
  refine ⟨?_, ?_, ?_, ?_, ?_, ?_, ?_, Obeys.nil⟩
  all_goals intro d ks hd; cases hd
  exact ⟨by simp [ticksOf], by norm_num [quotedDict], by norm_num [quotedDict, orZero]⟩

/-- One entry and its settlement, under an entry window that starts at 60 s. -/
theorem trades_accounted_settledRun :
    TradesAccounted (eagerDriver 60) (eagerBoot []) settledRun := by
  obtain ⟨hpositions, hentries⟩ := trades_accounted (eagerDriver 60) (fun _ => 5)
    (by decide +kernel) () false (some []) 0 Table.empty Table.empty settledRun orderly_settledRun
  exact ⟨hentries (Or.inl (by decide +kernel)), hpositions⟩

end Instance

end TradingEdge.Analysis
