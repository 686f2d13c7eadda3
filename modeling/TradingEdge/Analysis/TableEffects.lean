import TradingEdge.Analysis.SettleUniqueness
import TradingEdge.Program.Reconciliation

/-!
# What the driver does to its tables

A step whose write goes through is one of five things (`TableEffect`): it leaves the tables alone,
prepares an entry, writes the entry's order, writes its fill and returns it, or writes the exit
fill of a settlement and books it.
-/

set_option autoImplicit false

namespace TradingEdge.Analysis

open TradingEdge.Model TradingEdge.Program TradingEdge.Library

variable {K S P : Type} [Field K] [LinearOrder K]

/-! ## Marks -/

/-- A fill as the reconciliation reads it: its time, and its pnl if it is a settle fill. -/
def fillMark (f : FillRow K) : K × Option K := (f.ts, f.settlePnl)

/-- What an event leaves in `trading.fills`. -/
def eventMarks : DriverEvent K P → List (K × Option K)
  | .entered pos => [(pos.entryTs + 100 / 1000, none)]
  | .booked _ _ pnl fill => [(fill.ts, some pnl)]
  | _ => []

/-! ## What a step whose writes go through does to the tables -/

/-- The write that the step answers has been committed, if there is one. -/
def Persists (l : DriverLabel K) : Prop :=
  match l.action with
  | .consumerResumes reply => reply.write = .committed
  | .watchdogResumes reply => reply.write = .committed
  | _ => True

instance (l : DriverLabel K) : Decidable (Persists l) := by
  unfold Persists
  split <;> infer_instance

section Step

variable [FloorRing K] (env : DriverEnv K S P)

/-- The consumer has the entry it had, or neither before nor after one. -/
def SameEntry (w w' : World K S) : Prop :=
  w'.consumer = w.consumer ∨ attemptOf w.consumer = none ∧ attemptOf w'.consumer = none

/-- A step leaves the tables alone, prepares an entry, writes its order, writes its fill and
returns it, or writes the exit fill of a settlement and books it. -/
inductive TableEffect (w : World K S) (l : DriverLabel K) (w' : World K S)
    (es : List (DriverEvent K P)) : Prop where
  | aside (orders : w'.orders = w.orders) (fills : w'.fills = w.fills) (same : SameEntry w w')
      (marks : es.flatMap eventMarks = [])
  | prepares (a : EntryAttempt K) (enters : Enters env w l a) (orders : w'.orders = w.orders)
      (fills : w'.fills = w.fills) (after : w'.consumer = .persistingOrder a)
      (marks : es.flatMap eventMarks = [])
  | ordered (a : EntryAttempt K) (before : w.consumer = .persistingOrder a)
      (after : w'.consumer = .persistingFill a)
      (orders : w'.orders = w.orders.insertNew a.order) (fills : w'.fills = w.fills)
      (events : es = [])
  | entered (a : EntryAttempt K) (before : w.consumer = .persistingFill a)
      (after : attemptOf w'.consumer = none) (orders : w'.orders = w.orders)
      (fills : w'.fills = w.fills.insertNew a.fill) (events : es = [.entered a.position])
  | booked (pos : Position K) (settleTs pnl : K) (fill : FillRow K)
      (waits : consumerPoint w.consumer = some (.settleFill pos settleTs pnl fill) ∨
        watchdogPoint w.watchdog = some (.settleFill pos settleTs pnl fill))
      (same : SameEntry w w') (orders : w'.orders = w.orders)
      (fills : w'.fills = w.fills.insertNew fill)
      (events : es = [.booked pos settleTs pnl fill])

/-- A stretch of a settlement writes its exit fill and books it, or does neither. -/
theorem settleStep_marks (st : DriverState K S) (clock : K) (job : SettleJob K)
    (point : SettlePoint K) (reply : DbReply K) (hreply : reply.write = .committed)
    (fills : Table (FillRow.key (K := K))) :
    (∃ pos settleTs pnl fill, point = .settleFill pos settleTs pnl fill ∧
      point.write reply.write fills = fills.insertNew fill ∧
      (settleStep env st clock job point reply).2.2 = [.booked pos settleTs pnl fill]) ∨
    (point.write reply.write fills = fills ∧
      (settleStep env st clock job point reply).2.2.flatMap eventMarks = []) := by
  have heffect := settleStep_effect env st clock job reply point
  cases point with
  | settleFill pos settleTs pnl fill =>
    refine Or.inl ⟨pos, settleTs, pnl, fill, rfl, ?_, rfl⟩
    rw [hreply]
    rfl
  | _ =>
    refine Or.inr ⟨rfl, ?_⟩
    generalize settleStep env st clock job _ reply = r at heffect
    cases heffect with
    | quiet _ st' status same plain => rfl
    | dropped _ st' same =>
      rw [List.flatMap_eq_nil_iff]
      intro e he
      obtain ⟨pos, -, rfl⟩ := List.mem_map.mp he
      rfl
    | settled => rfl

/-- A tick writes no fill. -/
theorem handleTick_marks (st : DriverState K S) (clock : K) (d : TickDict K) (ks : Bool) :
    (handleTick env st clock d ks).2.2.flatMap eventMarks = [] := by
  rw [List.flatMap_eq_nil_iff]
  intro e he
  rcases mem_handleTick_events env st clock d ks e he with rfl | ⟨-, rfl⟩ | ⟨-, rfl⟩ |
    ⟨_, rfl⟩ | ⟨_, _, _, -, rfl⟩ <;> rfl

/-- **What a step whose write goes through does to the tables.** -/
theorem driver_tableEffect (w : World K S) (l : DriverLabel K) (hpersists : Persists l) :
    TableEffect env w l ((driverMachine env).next w l) ((driverMachine env).emits w l) := by
  change TableEffect env w l (driverStep env w l).1 (driverStep env w l).2
  unfold Persists at hpersists
  unfold driverStep
  cases action : l.action with
  | tick d ks =>
    dsimp only
    cases idle : w.consumer with
    | idle =>
      dsimp only
      rcases handleTick_consumer env w.driver l.clock d ks with hc | ⟨pos, -, -, hc⟩ |
        ⟨risk, dec, strategy, a, hgate, hok, hc⟩
      · exact .aside rfl rfl (Or.inr ⟨by rw [idle]; rfl, by dsimp only; rw [hc]; rfl⟩)
          (handleTick_marks env _ _ _ _)
      · exact .aside rfl rfl (Or.inr ⟨by rw [idle]; rfl, by dsimp only; rw [hc]; rfl⟩)
          (handleTick_marks env _ _ _ _)
      · exact .prepares a ⟨idle, d, ks, risk, dec, strategy, action, hgate, hok⟩ rfl rfl hc
          (handleTick_marks env _ _ _ _)
    | _ => exact .aside rfl rfl (Or.inl rfl) rfl
  | control msg =>
    dsimp only
    cases idle : w.consumer with
    | idle => exact .aside rfl rfl (Or.inr ⟨by rw [idle]; rfl, rfl⟩) rfl
    | _ => exact .aside rfl rfl (Or.inl rfl) rfl
  | consumerResumes reply =>
    rw [action] at hpersists
    dsimp only at hpersists ⊢
    cases hc : w.consumer with
    | settling job point =>
      rw [consumerStep_settling env w l.clock reply hc]
      have hsame : SameEntry w { w with
          driver := (settleStep env w.driver l.clock job point reply).1
          consumer := consumerAfter job (settleStep env w.driver l.clock job point reply).2.1
          fills := point.write reply.write w.fills } :=
        Or.inr ⟨by rw [hc]; rfl, attemptOf_consumerAfter job _⟩
      rcases settleStep_marks env w.driver l.clock job point reply hpersists w.fills with
        ⟨pos, settleTs, pnl, fill, rfl, hwrite, hevents⟩ | ⟨hwrite, hmarks⟩
      · exact .booked pos settleTs pnl fill (Or.inl (by rw [hc]; rfl)) hsame rfl hwrite hevents
      · exact .aside rfl hwrite hsame hmarks
    | idle =>
      rw [consumerStep, hc]
      exact .aside rfl rfl (Or.inl rfl) rfl
    | notifyingOpen =>
      rw [consumerStep, hc]
      exact .aside rfl rfl (Or.inr ⟨by rw [hc]; rfl, rfl⟩) rfl
    | persistingOrder a =>
      rw [consumerStep, hc]
      dsimp only
      rw [hpersists]
      exact .ordered a hc rfl rfl rfl rfl
    | persistingFill a =>
      rw [consumerStep, hc]
      dsimp only
      rw [hpersists]
      exact .entered a hc rfl rfl rfl rfl
  | watchdogWakes =>
    dsimp only
    unfold watchdogWake
    split
    · exact .aside rfl rfl (Or.inl rfl) rfl
    · exact .aside rfl rfl (Or.inl rfl) rfl
  | watchdogResumes reply =>
    rw [action] at hpersists
    dsimp only at hpersists ⊢
    cases hw : w.watchdog with
    | sleeping =>
      rw [watchdogStep, hw]
      exact .aside rfl rfl (Or.inl rfl) rfl
    | settling job point rest =>
      rw [watchdogStep_settling env w l.clock reply hw]
      rcases settleStep_marks env w.driver l.clock job point reply hpersists w.fills with
        ⟨pos, settleTs, pnl, fill, rfl, hwrite, hevents⟩ | ⟨hwrite, hmarks⟩
      · exact .booked pos settleTs pnl fill (Or.inr (by rw [hw]; rfl)) (Or.inl rfl) rfl hwrite
          hevents
      · exact .aside rfl hwrite (Or.inl rfl) hmarks
  | orphanSweep => exact .aside rfl rfl (Or.inl rfl) rfl

end Step

end TradingEdge.Analysis
