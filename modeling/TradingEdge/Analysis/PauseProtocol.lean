import TradingEdge.Analysis.DriverSteps
import TradingEdge.Program.PauseControl

/-!
# Pauses that get lost

The pause of a driver is a replica of the flag in `trading.strategy_state`: `replicaOf` maps the
control system onto the abstract protocol, and the ticks, settlements and sweeps of the driver
onto nothing (`controlStep_replica`).  Nothing makes the driver read the flag a second time, so a
message it misses, or one that comes after a newer one, decides what it holds from then on;
`pauses_kept_iff` says in which runs that never happens.
-/

set_option autoImplicit false

namespace TradingEdge.Analysis

open TradingEdge.Model TradingEdge.Program TradingEdge.Library

variable {K S P : Type}

/-! ## The flag and the driver -/

/-- The flag in the database; a strategy without a row is not paused.
SOURCE: paper/driver.py:248-255 -/
def storedFlag (c : ControlSystem K S) : Bool := c.stored.getD false

/-- The control system as a replica of the flag. -/
def replicaOf (c : ControlSystem K S) : Replica Bool where
  stored := storedFlag c
  pending := c.calls
  cached := c.world.driver.paused
  link := c.link

/-- Every call has finished, the driver is subscribed, and no message is in flight. -/
def Settled (c : ControlSystem K S) : Prop := c.calls = [] ∧ c.link = .up []

/-- Once the calls have finished the driver is going to hold the stored flag, and holds it when
no message is in flight. -/
structure PauseKept (c : ControlSystem K S) : Prop where
  upcoming : (replicaOf c).Coherent
  settled : Settled c → c.world.driver.paused = storedFlag c

/-- The step does not take the last word from the driver.  The last call to publish is the one
that wrote last, or one with the same flag, and the driver is subscribed, or holds that flag, or
has yet to read it; and when the query of the flag fails, or the connection breaks, after all calls
have published, the driver already holds the flag. -/
def KeepsPause (c : ControlSystem K S) (l : ControlLabel K S) : Prop :=
  match l with
  | .callPublishes i => ∀ paused, c.calls = [paused] → i = 0 →
    match c.link with
    | .starting => True
    | .down => c.world.driver.paused = storedFlag c
    | .up _ => paused = storedFlag c
  | .rehydrates ok =>
    ok = false → c.link = .starting → c.calls = [] → c.world.driver.paused = storedFlag c
  | .disconnects =>
    ∀ queue, c.link = .up queue → c.calls = [] → c.world.driver.paused = storedFlag c
  | _ => True

variable [Field K] [LinearOrder K] [FloorRing K] (env : DriverEnv K S P)

/-! ## The driver's own steps -/

omit [Field K] [LinearOrder K] [FloorRing K] in
/-- A message sets the pause it was published for.
SOURCE: paper/driver.py:263-287, api/main.py:166, 179 -/
theorem handleControlMessage_published (st : DriverState K S) (paused : Bool) :
    (st.handleControlMessage (publishedMessage paused)).paused = paused := by
  cases paused <;> rfl

/-- No stretch of a settlement pauses the driver, or wakes it. -/
theorem settleStep_paused (st : DriverState K S) (clock : K) (job : SettleJob K)
    (point : SettlePoint K) (reply : DbReply K) :
    (settleStep env st clock job point reply).1.paused = st.paused := by
  have heffect := settleStep_effect env st clock job reply point
  generalize settleStep env st clock job point reply = r at heffect ⊢
  cases heffect with
  | quiet _ st' status same plain => exact same.paused
  | dropped _ st' same => exact same.paused
  | settled => rfl
  | booked => rfl

/-- Nothing but a control message pauses a running driver, or wakes it. -/
theorem paused_step (w : World K S) (l : DriverLabel K) (h : ∀ msg, l.action ≠ .control msg) :
    (driverStep env w l).1.driver.paused = w.driver.paused := by
  unfold driverStep
  cases action : l.action with
  | tick d ks =>
    dsimp only
    split
    · exact handleTick_paused env w.driver l.clock d ks
    · rfl
  | control msg => exact absurd action (h msg)
  | consumerResumes reply =>
    dsimp only
    cases hc : w.consumer with
    | settling job point =>
      rw [consumerStep_settling env w l.clock reply hc]
      exact settleStep_paused env w.driver l.clock job point reply
    | persistingOrder a =>
      rw [consumerStep, hc]
      dsimp only
      split <;> rfl
    | persistingFill a =>
      rw [consumerStep, hc]
      dsimp only
      split <;> rfl
    | _ => rw [consumerStep, hc]
  | watchdogWakes =>
    dsimp only
    unfold watchdogWake
    split <;> rfl
  | watchdogResumes reply =>
    dsimp only
    cases hw : w.watchdog with
    | sleeping => rw [watchdogStep, hw]
    | settling job point rest =>
      rw [watchdogStep_settling env w l.clock reply hw]
      exact settleStep_paused env w.driver l.clock job point reply
  | orphanSweep => exact (sameAccounts_orphanCleanup w.driver l.clock).paused

/-- The driver's own work leaves the row, the calls, the subscription and the pause alone. -/
theorem controlStep_driver (c : ControlSystem K S) (l : DriverLabel K) :
    (controlStep env c (.driver l)).1.stored = c.stored ∧
      (controlStep env c (.driver l)).1.calls = c.calls ∧
      (controlStep env c (.driver l)).1.link = c.link ∧
      (controlStep env c (.driver l)).1.world.driver.paused = c.world.driver.paused := by
  unfold controlStep
  dsimp only
  split
  · exact ⟨rfl, rfl, rfl, rfl⟩
  · exact ⟨rfl, rfl, rfl, rfl⟩
  · exact ⟨rfl, rfl, rfl, rfl⟩
  · rename_i hno_control _
    exact ⟨rfl, rfl, rfl, paused_step env c.world l hno_control⟩

/-! ## The protocol under the driver -/

/-- What a step of the control system is to the replica.  The driver's own work is nothing to it,
nor is a subscription or a message that has to wait for the consumer. -/
def replicaLabel (c : ControlSystem K S) (l : ControlLabel K S) : Option (ReplicaLabel Bool) :=
  match l with
  | .callWrites paused => some (.writes paused)
  | .callPublishes i => some (.publishes i)
  | .restarts _ _ _ _ => some (.restarts false)
  | .rehydrates ok => some (.loads ok)
  | .subscribes =>
    match c.world.consumer with
    | .idle => some .subscribes
    | _ => none
  | .disconnects => some .disconnects
  | .receives =>
    match c.world.consumer with
    | .idle => some .receives
    | _ => none
  | .driver _ => none

/-- A driver that has not read the flag is not paused.
SOURCE: paper/driver.py:79 -/
def StartsAwake (c : ControlSystem K S) : Prop := (replicaOf c).StartsWith false

/-- **Simulation.** A step of the control system is a step of the replica, or nothing to it. -/
theorem controlStep_replica (c : ControlSystem K S) (l : ControlLabel K S) (h : StartsAwake c) :
    replicaOf (controlStep env c l).1 =
      match replicaLabel c l with
      | some l' => (replicaOf c).step l'
      | none => replicaOf c := by
  cases l with
  | callWrites paused => rfl
  | callPublishes i =>
    unfold controlStep replicaLabel Replica.step
    dsimp only [replicaOf]
    cases c.calls[i]? with
    | none => rfl
    | some paused => rfl
  | restarts strategy rows dailyPnl dailyTrades => rfl
  | rehydrates ok =>
    unfold controlStep replicaLabel Replica.step
    dsimp only [replicaOf]
    cases hlink : c.link with
    | starting =>
      cases ok with
      | false => rfl
      | true =>
        have hawake : c.world.driver.paused = false := h hlink
        dsimp only [storedFlag, DriverState.rehydratePauseState]
        cases hstored : c.stored with
        | none => simp [hawake]
        | some paused => rfl
    | _ => simp [hlink]
  | subscribes =>
    unfold controlStep replicaLabel Replica.step
    dsimp only [replicaOf]
    cases hc : c.world.consumer with
    | idle => cases hlink : c.link <;> simp [hlink, storedFlag]
    | _ => cases hlink : c.link <;> simp [hlink, storedFlag]
  | disconnects =>
    unfold controlStep replicaLabel Replica.step
    dsimp only [replicaOf]
    cases hlink : c.link <;> simp [hlink, storedFlag]
  | receives =>
    unfold controlStep replicaLabel Replica.step
    dsimp only [replicaOf]
    cases hc : c.world.consumer with
    | idle =>
      cases hlink : c.link with
      | up queue =>
        cases queue with
        | nil => simp [hlink, storedFlag]
        | cons paused queue => simp [storedFlag, handleControlMessage_published]
      | _ => simp [hlink, storedFlag]
    | _ =>
      cases hlink : c.link with
      | up queue => cases queue <;> simp [hlink, storedFlag]
      | _ => simp [hlink, storedFlag]
  | driver l =>
    obtain ⟨hstored, hcalls, hlink, hpaused⟩ := controlStep_driver env c l
    unfold replicaOf storedFlag
    rw [hstored, hcalls, hlink, hpaused]
    rfl

omit [Field K] [LinearOrder K] [FloorRing K] in
/-- A restarted driver is not paused. -/
theorem eq_false_of_restarts (c : ControlSystem K S) (l : ControlLabel K S) (a : Bool)
    (h : replicaLabel c l = some (.restarts a)) : a = false := by
  unfold replicaLabel at h
  cases l with
  | restarts strategy rows dailyPnl dailyTrades =>
    cases h
    rfl
  | subscribes =>
    dsimp only at h
    split at h <;> cases h
  | receives =>
    dsimp only at h
    split at h <;> cases h
  | _ => cases h

/-- A step keeps the instances starting awake. -/
theorem startsAwake_step (c : ControlSystem K S) (l : ControlLabel K S) (h : StartsAwake c) :
    StartsAwake (controlStep env c l).1 := by
  unfold StartsAwake
  rw [controlStep_replica env c l h]
  cases hlabel : replicaLabel c l with
  | none => exact h
  | some l' =>
    refine (replicaOf c).startsWith_step false l' ?_ h
    rintro a rfl
    exact eq_false_of_restarts c l a hlabel

/-! ## Runs -/

omit [Field K] [LinearOrder K] [FloorRing K] in
/-- The condition on a step is the one of the protocol. -/
theorem keepsPause_iff (c : ControlSystem K S) (l : ControlLabel K S) :
    KeepsPause c l ↔ ∀ l' ∈ replicaLabel c l, (replicaOf c).Keeps l' := by
  have hsome : ∀ l', replicaLabel c l = some l' → (KeepsPause c l ↔ (replicaOf c).Keeps l') →
      (KeepsPause c l ↔ ∀ l' ∈ replicaLabel c l, (replicaOf c).Keeps l') := by
    intro l' hl' hiff
    rw [hl', hiff]
    simp
  cases l with
  | callWrites paused => exact hsome _ rfl Iff.rfl
  | callPublishes i =>
    refine hsome _ rfl ?_
    unfold KeepsPause Replica.Keeps replicaOf
    cases c.link <;> rfl
  | restarts strategy rows dailyPnl dailyTrades => exact hsome _ rfl Iff.rfl
  | rehydrates ok => exact hsome _ rfl Iff.rfl
  | disconnects => exact hsome _ rfl Iff.rfl
  | driver l => exact iff_of_true trivial (by rintro l' ⟨⟩)
  | subscribes =>
    refine iff_of_true trivial fun l' hl' => ?_
    unfold replicaLabel at hl'
    dsimp only at hl'
    split at hl' <;> cases hl'
    trivial
  | receives =>
    refine iff_of_true trivial fun l' hl' => ?_
    unfold replicaLabel at hl'
    dsimp only at hl'
    split at hl' <;> cases hl'
    trivial

/-- **One step** keeps the driver in touch with the flag exactly when it leaves it the last
word. -/
theorem coherent_controlStep_iff (c : ControlSystem K S) (l : ControlLabel K S)
    (hawake : StartsAwake c) (h : (replicaOf c).Coherent) :
    (replicaOf (controlStep env c l).1).Coherent ↔ KeepsPause c l := by
  rw [controlStep_replica env c l hawake, keepsPause_iff]
  cases replicaLabel c l with
  | none => simpa using h
  | some l' => simpa using (replicaOf c).coherent_step_iff l' h

omit [Field K] [LinearOrder K] [FloorRing K] in
/-- The pause is kept if the replica is coherent. -/
theorem pauseKept_iff (c : ControlSystem K S) : PauseKept c ↔ (replicaOf c).Coherent :=
  ⟨fun h => h.upcoming, fun h => ⟨h, fun hsettled => h.cached_eq hsettled.1 hsettled.2⟩⟩

/-- **The pause of a run.** From every boot, beside any calls under way, the driver keeps in touch
with the flag throughout the run, and holds it whenever all calls have finished and no message is
in flight, exactly when no step takes the last word from it.
SOURCE: paper/driver.py:133-201, 237-287, api/main.py:158-181, api/db.py:165-177 -/
theorem pauses_kept_iff (stored : Option Bool) (calls : List Bool) (strategy : S)
    (rows : Option (List String)) (dailyPnl : K) (dailyTrades : ℤ)
    (orders : Table (OrderRow.key (K := K))) (fills : Table (FillRow.key (K := K)))
    (ls : List (ControlLabel K S)) :
    (∀ pre post, ls = pre ++ post → PauseKept ((controlMachine env).final
      (ControlSystem.boot stored calls strategy rows dailyPnl dailyTrades orders fills) pre)) ↔
    (controlMachine env).Along KeepsPause
      (ControlSystem.boot stored calls strategy rows dailyPnl dailyTrades orders fills) ls := by
  generalize hboot : ControlSystem.boot stored calls strategy rows dailyPnl dailyTrades orders
    fills = boot
  have hawake : ∀ pre, StartsAwake ((controlMachine env).final boot pre) := by
    intro pre
    induction pre using List.reverseRecOn with
    | nil =>
      rw [← hboot]
      exact fun _ => rfl
    | append_singleton pre l ih =>
      rw [Machine.final_concat]
      exact startsAwake_step env _ l ih
  apply (controlMachine env).forall_final_iff PauseKept KeepsPause boot
  · rw [pauseKept_iff, ← hboot]
    exact fun _ hlink => absurd rfl hlink
  · intro pre l h
    rw [pauseKept_iff] at h ⊢
    exact coherent_controlStep_iff env _ l (hawake pre) h

/-- A pause is written after the driver has read the flag and published before it is subscribed:
the call has finished, nothing is in flight, and the driver is not paused.
SOURCE: paper/driver.py:135, 156-161, api/main.py:163-166 -/
theorem pause_lost_at_boot :
    ¬∀ (env : DriverEnv ℚ Unit Unit) (ls : List (ControlLabel ℚ Unit)),
      Settled ((controlMachine env).final
        (ControlSystem.boot none [] () (some []) 0 0 Table.empty Table.empty) ls) →
      ((controlMachine env).final
        (ControlSystem.boot none [] () (some []) 0 0 Table.empty Table.empty) ls).world.driver.paused =
        storedFlag ((controlMachine env).final
          (ControlSystem.boot none [] () (some []) 0 0 Table.empty Table.empty) ls) := by
  intro h
  exact absurd (h (eagerDriver 0) [.rehydrates true, .callWrites true, .callPublishes 0, .subscribes]
    ⟨rfl, rfl⟩) (by decide +kernel)

end TradingEdge.Analysis
