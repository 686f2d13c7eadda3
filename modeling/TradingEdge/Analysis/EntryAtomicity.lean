import TradingEdge.Analysis.EntryUniqueness
import TradingEdge.Analysis.Provenance

/-!
# The two writes of an entry

`try_enter` writes the order, which says `FILLED`, then the fill, each in a transaction of its
own, and returns the position if neither raises.  Its one `except` clause returns `None` and
undoes nothing, so what an entry leaves behind depends on which of the two raised, and on
whether the row was committed first (`entries_atomic_iff`).
-/

set_option autoImplicit false

namespace TradingEdge.Analysis

open TradingEdge.Model TradingEdge.Program TradingEdge.Library

variable {K S P : Type} [Field K] [LinearOrder K]

/-! ## What an entry leaves -/

/-- The order of the entry is in `trading.orders`. -/
def OrderFiled (w : World K S) (a : EntryAttempt K) : Prop :=
  a.order.key ∈ w.orders.rows.map OrderRow.key

/-- The entry fill is in `trading.fills`. -/
def FillFiled (w : World K S) (a : EntryAttempt K) : Prop :=
  a.fill.key ∈ w.fills.rows.map FillRow.key

/-- The driver holds the position. -/
def PositionHeld (w : World K S) (a : EntryAttempt K) : Prop :=
  w.driver.openPositions.get? a.position.marketSlug = some a.position

instance (w : World K S) (a : EntryAttempt K) : Decidable (OrderFiled w a) :=
  inferInstanceAs (Decidable (_ ∈ _))

instance (w : World K S) (a : EntryAttempt K) : Decidable (FillFiled w a) :=
  inferInstanceAs (Decidable (_ ∈ _))

/-- The order row, the fill row and the position all exist, or none of them does. -/
def AllOrNone (w : World K S) (a : EntryAttempt K) : Prop :=
  OrderFiled w a ∧ FillFiled w a ∧ PositionHeld w a ∨
    ¬OrderFiled w a ∧ ¬FillFiled w a ∧ ¬PositionHeld w a

/-- The call of `try_enter` that prepared this entry ends with the step. -/
def EndsEntry [FloorRing K] (env : DriverEnv K S P) (w : World K S) (l : DriverLabel K)
    (a : EntryAttempt K) : Prop :=
  attemptOf w.consumer = some a ∧ attemptOf ((driverMachine env).next w l).consumer = none

/-- An entry that ends with the step leaves all three or none. -/
def EntryAtomic [FloorRing K] (env : DriverEnv K S P) (w : World K S) (l : DriverLabel K) :
    Prop :=
  ∀ a, EndsEntry env w l a → AllOrNone ((driverMachine env).next w l) a

/-- The order write either goes through, or raises before its commit with neither row there; the
fill write goes through.
SOURCE: paper/exec_client.py:135-203 -/
def EntryPersists (w : World K S) (l : DriverLabel K) : Prop :=
  match l.action, w.consumer with
  | .consumerResumes reply, .persistingOrder a =>
    reply.write = .committed ∨ reply.write = .failed ∧ ¬OrderFiled w a ∧ ¬FillFiled w a
  | .consumerResumes reply, .persistingFill _ => reply.write = .committed
  | _, _ => True

/-! ## The steps of an entry -/

section Steps

variable [FloorRing K] (env : DriverEnv K S P) (w : World K S) (l : DriverLabel K)

/-- SOURCE: paper/exec_client.py:136-168 -/
theorem driverStep_persistingOrder (reply : DbReply K) (a : EntryAttempt K)
    (action : l.action = .consumerResumes reply) (before : w.consumer = .persistingOrder a) :
    driverStep env w l =
      ({ w with
          orders := writeRow reply.write a.order w.orders
          consumer := if reply.write = .committed then .persistingFill a else .idle }, []) := by
  unfold driverStep
  rw [action]
  dsimp only
  unfold consumerStep
  rw [before]
  dsimp only
  cases reply.write <;> rfl

/-- SOURCE: paper/exec_client.py:169-230, paper/driver.py:417-424 -/
theorem driverStep_persistingFill (reply : DbReply K) (a : EntryAttempt K)
    (action : l.action = .consumerResumes reply) (before : w.consumer = .persistingFill a) :
    driverStep env w l =
      if reply.write = .committed then
        ({ w with
            driver := w.driver.recordEntry a.position a.position.marketSlug
            fills := writeRow reply.write a.fill w.fills
            consumer := .notifyingOpen }, [.entered a.position])
      else
        ({ w with fills := writeRow reply.write a.fill w.fills, consumer := .idle }, []) := by
  unfold driverStep
  rw [action]
  dsimp only
  unfold consumerStep
  rw [before]
  dsimp only
  cases reply.write <;> rfl

/-- An entry waits until its write is answered. -/
theorem consumer_waits (a : EntryAttempt K) (h : attemptOf w.consumer = some a)
    (hother : ∀ reply, l.action ≠ .consumerResumes reply) :
    ((driverMachine env).next w l).consumer = w.consumer := by
  change (driverStep env w l).1.consumer = w.consumer
  unfold driverStep
  cases action : l.action with
  | tick d ks =>
    dsimp only
    split
    · rename_i idle
      rw [idle] at h
      cases h
    · rfl
  | control msg =>
    dsimp only
    split <;> rfl
  | consumerResumes reply => exact absurd action (hother reply)
  | watchdogWakes =>
    dsimp only
    unfold watchdogWake
    split <;> rfl
  | watchdogResumes reply =>
    dsimp only
    cases hw : w.watchdog with
    | sleeping => rw [watchdogStep, hw]
    | settling job point rest => rw [watchdogStep_settling env w l.clock reply hw]
  | orphanSweep => rfl

/-- The order of an entry that writes its fill is there. -/
def OrderBeforeFill (w : World K S) : Prop :=
  ∀ a, w.consumer = .persistingFill a → OrderFiled w a

/-- Orders stay in the table. -/
theorem orderFiled_step (a : EntryAttempt K) (h : OrderFiled w a) :
    OrderFiled ((driverMachine env).next w l) a := by
  have hkeep : ∀ o ∈ w.orders.rows, o ∈ ((driverMachine env).next w l).orders.rows := by
    have heffect := driver_effect env w l
    generalize (driverMachine env).next w l = w' at heffect ⊢
    generalize (driverMachine env).emits w l = es at heffect
    intro o ho
    cases heffect with
    | orderWritten reply attempt consumer next hnext => exact mem_writeRow_of_mem _ _ _ ho
    | _ => exact ho
  obtain ⟨o, ho, hkey⟩ := List.mem_map.mp h
  exact List.mem_map.mpr ⟨o, hkeep o ho, hkey⟩

/-- An entry comes to its fill when the order has been committed. -/
theorem persistingFill_step (a : EntryAttempt K)
    (h : ((driverMachine env).next w l).consumer = .persistingFill a) :
    w.consumer = .persistingFill a ∨ ∃ reply, l.action = .consumerResumes reply ∧
      reply.write = .committed ∧ w.consumer = .persistingOrder a := by
  have hwaits := fun b hb hother => consumer_waits env w l b hb hother
  have horder : ∀ b reply, l.action = .consumerResumes reply → w.consumer = .persistingOrder b →
      ((driverMachine env).next w l).consumer =
        if reply.write = .committed then .persistingFill b else .idle := by
    intro b reply action hb
    have hstep : (driverMachine env).next w l = _ :=
      congrArg Prod.fst (driverStep_persistingOrder env w l reply b action hb)
    rw [hstep]
  have heffect := driver_effect env w l
  generalize (driverMachine env).next w l = w' at heffect h hwaits horder
  generalize (driverMachine env).emits w l = es at heffect
  cases heffect with
  | tick d ks action idle =>
    rcases handleTick_consumer env w.driver l.clock d ks with hc | ⟨pos, -, -, hc⟩ |
      ⟨risk, dec, strategy, attempt, -, -, hc⟩
    · rw [hc] at h
      cases h
    · rw [hc] at h
      cases h
    · rw [hc] at h
      cases h
  | consumerSettles reply job point r action consumer effect =>
    have hnone := attemptOf_consumerAfter job r.2.1
    rw [show consumerAfter job r.2.1 = .persistingFill a from h] at hnone
    cases hnone
  | orderWritten reply attempt consumer next hnext =>
    by_cases hother : ∃ reply', l.action = .consumerResumes reply'
    · obtain ⟨reply', action⟩ := hother
      have hafter := horder attempt reply' action consumer
      rw [h] at hafter
      split at hafter
      · rename_i hwrite
        cases hafter
        exact Or.inr ⟨reply', action, hwrite, consumer⟩
      · cases hafter
    · have hsame := hwaits attempt (by rw [consumer]; rfl) (not_exists.mp hother)
      rw [h, consumer] at hsame
      cases hsame
  | entryFails reply attempt consumer => cases h
  | enters reply attempt consumer => cases h
  | notified => cases h
  | _ => exact Or.inl h

/-- A step keeps the order before its fill. -/
theorem orderBeforeFill_step (h : OrderBeforeFill w) :
    OrderBeforeFill ((driverMachine env).next w l) := by
  intro a ha
  rcases persistingFill_step env w l a ha with hbefore | ⟨reply, action, hwrite, hbefore⟩
  · exact orderFiled_step env w l a (h a hbefore)
  · have hstep : (driverMachine env).next w l = _ :=
      congrArg Prod.fst (driverStep_persistingOrder env w l reply a action hbefore)
    rw [hstep]
    exact key_mem_writeRow _ _ _ (by rw [hwrite]; decide)

/-- An entry ends only with the answer to one of its writes. -/
theorem exists_reply_of_endsEntry (a : EntryAttempt K) (h : EndsEntry env w l a) :
    ∃ reply, l.action = .consumerResumes reply := by
  by_contra hother
  obtain ⟨hbefore, hafter⟩ := h
  rw [consumer_waits env w l a hbefore (not_exists.mp hother), hbefore] at hafter
  cases hafter

/-- An entry under way is atomic if all or none of it is there once it is over. -/
theorem entryAtomic_iff_of_attempt (a : EntryAttempt K) (before : attemptOf w.consumer = some a) :
    EntryAtomic env w l ↔ (attemptOf ((driverMachine env).next w l).consumer = none →
      AllOrNone ((driverMachine env).next w l) a) := by
  constructor
  · intro h hafter
    exact h a ⟨before, hafter⟩
  · rintro h b ⟨hb, hafter⟩
    obtain rfl := Option.some.inj (before.symm.trans hb)
    exact h hafter

omit [FloorRing K] [Field K] [LinearOrder K] in
/-- An entry under way has no position yet. -/
theorem not_positionHeld_of_pending (a : EntryAttempt K) (hpending : NothingPending w)
    (before : attemptOf w.consumer = some a) : ¬PositionHeld w a := by
  unfold PositionHeld
  rw [hpending a before]
  exact (Option.some_ne_none _).symm

/-- The answer to the order write: an entry that goes on is not over, and one that does not is
to leave neither row. -/
theorem entryAtomic_order_iff (reply : DbReply K) (a : EntryAttempt K)
    (action : l.action = .consumerResumes reply) (before : w.consumer = .persistingOrder a)
    (hpending : NothingPending w) :
    EntryAtomic env w l ↔
      reply.write = .committed ∨ reply.write = .failed ∧ ¬OrderFiled w a ∧ ¬FillFiled w a := by
  have hattempt : attemptOf w.consumer = some a := by
    rw [before]
    rfl
  have hclosed := not_positionHeld_of_pending w a hpending hattempt
  have hstep : (driverMachine env).next w l = _ :=
    congrArg Prod.fst (driverStep_persistingOrder env w l reply a action before)
  rw [entryAtomic_iff_of_attempt env w l a hattempt, hstep]
  cases hwrite : reply.write with
  | committed => simp [attemptOf]
  | failed =>
    -- neither table changes
    simp only [reduceCtorEq, if_false, attemptOf, true_imp_iff, false_or, true_and]
    constructor
    · rintro (⟨-, -, hheld⟩ | ⟨horder, hfill, -⟩)
      · exact absurd hheld hclosed
      · exact ⟨horder, hfill⟩
    · rintro ⟨horder, hfill⟩
      exact Or.inr ⟨horder, hfill, hclosed⟩
  | committedThenFailed =>
    -- the order is there, and nothing else comes
    simp only [reduceCtorEq, if_false, attemptOf, true_imp_iff, false_or, false_and, iff_false]
    rintro (⟨-, -, hheld⟩ | ⟨horder, -, -⟩)
    · exact hclosed hheld
    · exact horder (key_mem_writeRow .committedThenFailed a.order w.orders (by decide))

/-- The answer to the fill write: the order is there, so the fill and the position have to
come. -/
theorem entryAtomic_fill_iff (reply : DbReply K) (a : EntryAttempt K)
    (action : l.action = .consumerResumes reply) (before : w.consumer = .persistingFill a)
    (hpending : NothingPending w) (horder : OrderBeforeFill w) :
    EntryAtomic env w l ↔ reply.write = .committed := by
  have hattempt : attemptOf w.consumer = some a := by
    rw [before]
    rfl
  have hclosed := not_positionHeld_of_pending w a hpending hattempt
  have hfiled := horder a before
  have hstep : (driverMachine env).next w l = _ :=
    congrArg Prod.fst (driverStep_persistingFill env w l reply a action before)
  rw [entryAtomic_iff_of_attempt env w l a hattempt, hstep]
  by_cases hwrite : reply.write = .committed
  · rw [if_pos hwrite]
    refine iff_of_true (fun _ => Or.inl ⟨hfiled, ?_, ?_⟩) hwrite
    · exact key_mem_writeRow reply.write a.fill w.fills (by rw [hwrite]; decide)
    · exact Dict.get?_set_self _ _ _
  · rw [if_neg hwrite]
    refine iff_of_false (fun h => ?_) hwrite
    rcases h rfl with ⟨-, -, hheld⟩ | ⟨hno, -, -⟩
    · exact hclosed hheld
    · exact hno hfiled

/-- **One step.** An entry that ends with it leaves all three or none exactly when its write
persists. -/
theorem entryAtomic_iff (hpending : NothingPending w) (horder : OrderBeforeFill w) :
    EntryAtomic env w l ↔ EntryPersists w l := by
  unfold EntryPersists
  split
  · rename_i reply a action before
    exact entryAtomic_order_iff env w l reply a action before hpending
  · rename_i reply a action before
    exact entryAtomic_fill_iff env w l reply a action before hpending horder
  · rename_i hno_order hno_fill
    refine iff_of_true (fun a hends => ?_) trivial
    obtain ⟨reply, action⟩ := exists_reply_of_endsEntry env w l a hends
    have hattempt := hends.1
    cases before : w.consumer with
    | persistingOrder b => exact (hno_order reply b action before).elim
    | persistingFill b => exact (hno_fill reply b action before).elim
    | _ =>
      rw [before] at hattempt
      cases hattempt

end Steps

/-! ## Runs -/

section Runs

variable [FloorRing K] (env : DriverEnv K S P)

/-- In every run, an entry under way has no position yet, and one that writes its fill has its
order in the table. -/
theorem entryUnderWay_run (boot : World K S) (hidle : attemptOf boot.consumer = none)
    (ls : List (DriverLabel K)) : NothingPending ((driverMachine env).final boot ls) ∧
      OrderBeforeFill ((driverMachine env).final boot ls) := by
  induction ls using List.reverseRecOn with
  | nil =>
    rw [Machine.final_nil]
    constructor
    · intro a ha
      rw [ha] at hidle
      cases hidle
    · intro a ha
      rw [ha] at hidle
      cases hidle
  | append_singleton ls l ih =>
    rw [Machine.final_concat]
    exact ⟨nothingPending_step env _ l ih.1, orderBeforeFill_step env _ l ih.2⟩

/-- **The entries of a run.** In every run, every entry that ends leaves its order, its fill and
its position, or none of them, exactly when every order write goes through or raises before its
commit with neither row there, and every fill write goes through.
SOURCE: paper/exec_client.py:118-230, common/db.py:51-71, paper/driver.py:397-418 -/
theorem entries_atomic_iff (strategy : S) (paused : Bool) (rows : Option (List String))
    (dailyPnl : K) (dailyTrades : ℤ) (orders : Table (OrderRow.key (K := K)))
    (fills : Table (FillRow.key (K := K))) (ls : List (DriverLabel K)) :
    (driverMachine env).Along (EntryAtomic env)
        (World.boot (DriverState.boot strategy paused rows dailyPnl dailyTrades) orders fills) ls ↔
      (driverMachine env).Along EntryPersists
        (World.boot (DriverState.boot strategy paused rows dailyPnl dailyTrades) orders fills)
        ls := by
  generalize hboot : World.boot (DriverState.boot strategy paused rows dailyPnl dailyTrades)
    orders fills = boot
  have hidle : attemptOf boot.consumer = none := by
    rw [← hboot]
    rfl
  have hstep : ∀ pre l, EntryAtomic env ((driverMachine env).final boot pre) l ↔
      EntryPersists ((driverMachine env).final boot pre) l := by
    intro pre l
    obtain ⟨hpending, horder⟩ := entryUnderWay_run env boot hidle pre
    exact entryAtomic_iff env _ l hpending horder
  exact ⟨Obeys.mono fun pre l => (hstep pre l).mp, Obeys.mono fun pre l => (hstep pre l).mpr⟩

/-- The order of an entry is committed and its fill is refused: a filled order stays, without a
fill and without a position.
SOURCE: paper/exec_client.py:136-203 -/
theorem order_without_fill :
    ¬∀ (env : DriverEnv ℚ Unit Unit) (ls : List (DriverLabel ℚ)),
      (driverMachine env).Along (EntryAtomic env) (eagerBoot []) ls := by
  intro h
  have hsteps := h (eagerDriver 0)
    [⟨1300, .tick (quotedDict "btc-updown-5m-1200" 1300 100 1500) false⟩,
      ⟨1300, .consumerResumes ⟨none, .committed⟩⟩, ⟨1300, .consumerResumes ⟨none, .failed⟩⟩]
  rw [Machine.along_cons_iff, Machine.along_cons_iff, Machine.along_cons_iff] at hsteps
  obtain ⟨-, -, hlast, -⟩ := hsteps
  have hfilled := fun a hbefore horder =>
    (hlast a ⟨hbefore, Option.isNone_iff_eq_none.mp (by decide +kernel)⟩).elim
      (fun hall => hall.2.1) (fun hnone => absurd horder hnone.1)
  exact absurd (show ∀ a ∈ attemptOf _, OrderFiled _ a → FillFiled _ a from hfilled)
    (by decide +kernel)

end Runs

end TradingEdge.Analysis
