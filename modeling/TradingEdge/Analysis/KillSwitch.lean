import TradingEdge.Analysis.Provenance
import TradingEdge.Program.MMDriver

/-!
# The kill switch

While a `KILL_SWITCH` file exists the engine is to refuse every order.  `try_enter` looks for
the file before anything else, so whatever a `PaperDriver` persists or opens stems from an entry
that started without it (`blocked_step`, `started_run`).  The market making driver places its
orders in the book without looking: it keeps the rule only where no placement comes up
(`kill_switch_iff`).
-/

set_option autoImplicit false

namespace TradingEdge.Analysis

open TradingEdge.Model TradingEdge.Program TradingEdge.Library

/-! ## The paper driver -/

section Paper

variable {K S P : Type} [Field K] [LinearOrder K] [FloorRing K] (env : DriverEnv K S P)

/-- A call of `try_enter` under the file leaves nothing behind: no order on its way to the
database, no new row, and no position.
SOURCE: paper/exec_client.py:96-102 -/
def Blocked (w : World K S) (l : DriverLabel K) : Prop :=
  ∀ d req, l.action = .tick d true → .tryEnter req ∈ (driverMachine env).emits w l →
    attemptOf ((driverMachine env).next w l).consumer = none ∧
      ((driverMachine env).next w l).orders = w.orders ∧
      ((driverMachine env).next w l).driver.openPositions = w.driver.openPositions

/-- With the kill switch active a step starts no entry. -/
theorem blocked_step (w : World K S) (l : DriverLabel K) : Blocked env w l := by
  intro d req action htries
  obtain ⟨d', ks, action', idle, -⟩ := (mem_emits_tryEnter_iff env w l req).mp htries
  obtain ⟨rfl, rfl⟩ := DriverAction.tick.inj (action.symm.trans action')
  change attemptOf (driverStep env w l).1.consumer = none ∧ (driverStep env w l).1.orders = w.orders ∧
    (driverStep env w l).1.driver.openPositions = w.driver.openPositions
  rw [driverStep_tick env w l d true action idle]
  refine ⟨?_, rfl, handleTick_openPositions env w.driver l.clock d true⟩
  dsimp only
  rcases handleTick_consumer env w.driver l.clock d true with hc | ⟨pos, -, -, hc⟩ |
    ⟨risk, dec, strategy, attempt, -, hok, -⟩
  · rw [hc]
    rfl
  · rw [hc]
    rfl
  · -- `try_enter` refuses under the file
    rw [tryEnter, if_pos rfl] at hok
    cases hok

/-- The run has started this entry, at a tick without the file. -/
def Started (boot : World K S) (ls : List (DriverLabel K)) (a : EntryAttempt K) : Prop :=
  ∃ pre l post, ls = pre ++ l :: post ∧ Enters env ((driverMachine env).final boot pre) l a ∧
    ∃ d, l.action = .tick d false

/-- An entry that was started stays so. -/
theorem Started.concat {boot : World K S} {ls : List (DriverLabel K)} {a : EntryAttempt K}
    (h : Started env boot ls a) (l : DriverLabel K) : Started env boot (ls ++ [l]) a := by
  obtain ⟨pre, l', post, heq, henters, htick⟩ := h
  refine ⟨pre, l', post ++ [l], ?_, henters, htick⟩
  rw [heq, List.append_assoc, List.cons_append]

/-- An entry that starts, starts without the file.
SOURCE: paper/exec_client.py:96-102 -/
theorem started_of_enters (boot : World K S) (ls : List (DriverLabel K)) (l : DriverLabel K)
    (a : EntryAttempt K) (h : Enters env ((driverMachine env).final boot ls) l a) :
    Started env boot (ls ++ [l]) a := by
  obtain ⟨-, d, ks, risk, dec, strategy, action, -, hok⟩ := id h
  cases ks with
  | false => exact ⟨ls, l, [], rfl, h, d, action⟩
  | true =>
    rw [tryEnter, if_pos rfl] at hok
    cases hok

/-- All that a run persists as an order, or opens as a position, comes from entries that it has
started without the file. -/
structure FromStarted (boot : World K S) (ls : List (DriverLabel K)) : Prop where
  attempt : ∀ a, attemptOf ((driverMachine env).final boot ls).consumer = some a →
    Started env boot ls a
  orders : ∀ o ∈ ((driverMachine env).final boot ls).orders.rows,
    o ∈ boot.orders.rows ∨ ∃ a, Started env boot ls a ∧ o = a.order
  entered : ∀ pos, .entered pos ∈ (driverMachine env).trace boot ls →
    ∃ a, Started env boot ls a ∧ pos = a.position

/-- A position is entered at the return of the entry under way. -/
theorem entered_step (w : World K S) (l : DriverLabel K) (pos : Position K)
    (h : .entered pos ∈ (driverMachine env).emits w l) :
    ∃ a, attemptOf w.consumer = some a ∧ pos = a.position := by
  have heffect := driver_tradeEffect env w l
  generalize (driverMachine env).next w l = w' at heffect
  generalize (driverMachine env).emits w l = es at heffect h
  cases heffect with
  | tick d ks action idle driver consumer events =>
    rw [events] at h
    rcases mem_handleTick_events env w.driver l.clock d ks _ h with heq | ⟨-, heq⟩ | ⟨-, heq⟩ |
      ⟨_, heq⟩ | ⟨_, _, _, -, heq⟩ <;> cases heq
  | enters attempt before after driver events =>
    rw [events] at h
    cases List.mem_singleton.mp h
    exact ⟨attempt, before, rfl⟩
  | aside tradeTaken today consumer events noTick => cases events _ h

/-- **Runs of the paper driver.** -/
theorem started_run (boot : World K S) (hidle : attemptOf boot.consumer = none)
    (ls : List (DriverLabel K)) : FromStarted env boot ls := by
  induction ls using List.reverseRecOn with
  | nil =>
    refine ⟨fun a ha => ?_, fun o ho => Or.inl ho, fun pos hpos => by cases hpos⟩
    rw [Machine.final_nil, hidle] at ha
    cases ha
  | append_singleton ls l ih =>
    refine ⟨?_, ?_, ?_⟩
    · intro a ha
      rw [Machine.final_concat] at ha
      rcases attempt_step env _ l a ha with hbefore | henters
      · exact (ih.attempt a hbefore).concat env l
      · exact started_of_enters env boot ls l a henters
    · intro o ho
      rw [Machine.final_concat] at ho
      rcases (rows_step env _ l).1 o ho with hbefore | ⟨a, ha, rfl⟩
      · rcases ih.orders o hbefore with hboot | ⟨a, ha, heq⟩
        · exact Or.inl hboot
        · exact Or.inr ⟨a, ha.concat env l, heq⟩
      · exact Or.inr ⟨a, (ih.attempt a ha).concat env l, rfl⟩
    · intro pos hpos
      rw [Machine.trace_concat] at hpos
      rcases List.mem_append.mp hpos with hbefore | hnow
      · obtain ⟨a, ha, heq⟩ := ih.entered pos hbefore
        exact ⟨a, ha.concat env l, heq⟩
      · obtain ⟨a, ha, heq⟩ := entered_step env _ l pos hnow
        exact ⟨a, (ih.attempt a ha).concat env l, heq⟩

end Paper

/-! ## The market making driver -/

section Maker

variable {K : Type}

/-- The answer of `place` to an order that it takes, or knows already. -/
def isPlacement : MMEvent K → Bool
  | .placed _ | .duplicate _ => true
  | _ => false

/-- `place` has been called: it has answered, or raised. -/
def CallsPlace (sent : Dispatched K) : Prop :=
  sent.raised.isSome = true ∨ sent.events.any isPlacement = true

instance (sent : Dispatched K) : Decidable (CallsPlace sent) := inferInstanceAs (Decidable (_ ∨ _))

variable [Field K] [LinearOrder K] (env : MMDriverEnv K) (g : GlobalMMState K)

/-- The action submits an order: a new quote within the shared caps, or the replacement of a
quote that is still in the book.
SOURCE: paper/mm_driver.py:137-197 -/
def Submits (b : LimitBook K) : MMAction K → Prop
  | .post new => g.blockPostQuote env.cfg.name (new.qtyShares * new.price)
      (new.qtyShares * new.price) = none
  | .cancel _ _ _ => False
  | .replace oldClientOrderId _ => (b.get? oldClientOrderId).isSome = true

/-- An order that is sent is an order that `place` is called for. -/
theorem callsPlace_placeOrder (b : LimitBook K) (o : LimitOrder K) :
    CallsPlace (placeOrder b o) := by
  unfold CallsPlace
  rcases placeOrder_cases b o with ⟨e, heq, -⟩ | ⟨b', heq, -⟩ | ⟨heq, -⟩
  · rw [heq]
    exact Or.inl rfl
  · rw [heq]
    exact Or.inr rfl
  · rw [heq]
    exact Or.inr rfl

/-- **One action.** `place` is called exactly for an action that submits an order.
SOURCE: paper/mm_driver.py:137-197 -/
theorem callsPlace_dispatchAction_iff (ctx : TickContext K) (b : LimitBook K) (a : MMAction K) :
    CallsPlace (dispatchAction env.toMMEnv g ctx b a) ↔ Submits env g b a := by
  cases a with
  | post new =>
    unfold dispatchAction Submits
    dsimp only
    cases hblock : g.blockPostQuote env.cfg.name (new.qtyShares * new.price)
      (new.qtyShares * new.price) with
    | none => exact iff_of_true (callsPlace_placeOrder b _) rfl
    | some block =>
      refine iff_of_false ?_ (by simp)
      rintro (h | h) <;> cases h
  | cancel clientOrderId reason slug =>
    unfold dispatchAction LimitBook.cancel
    dsimp only
    refine iff_of_false ?_ (fun h => h)
    rintro (h | h)
    · cases h
    · rw [List.any_map, List.any_eq_true] at h
      obtain ⟨o, -, ho⟩ := h
      cases ho
  | replace oldClientOrderId new =>
    unfold dispatchAction LimitBook.cancel Submits
    dsimp only
    cases hold : b.get? oldClientOrderId with
    | none =>
      refine iff_of_false ?_ (by simp)
      rintro (h | h) <;> cases h
    | some old =>
      refine iff_of_true ?_ rfl
      rcases callsPlace_placeOrder (b.pop oldClientOrderId) (env.limitOrder ctx new) with h | h
      · exact Or.inl h
      · right
        dsimp only
        rw [List.any_cons, h, Bool.or_true]

/-- The actions of a tick. -/
def actionsOf (st : MMPaperDriver K) (d : TickDict K) (clock : K) : List (MMAction K) :=
  (st.strategy.onTick env.toMMEnv (tickFromDict d) clock).1

/-- The book that the `i`-th action of a tick finds, if the actions before it have not raised. -/
def bookAt (st : MMPaperDriver K) (d : TickDict K) (clock : K) (i : ℕ) : Option (LimitBook K) :=
  let sent := dispatchAll env.toMMEnv g (tickFromDict d) st.limitBook
    ((actionsOf env st d clock).take i)
  if sent.raised.isSome = true then none else some sent.book

/-- The tick calls `place` for its `i`-th action. -/
def CallsPlaceAt (st : MMPaperDriver K) (d : TickDict K) (clock : K) (i : ℕ) : Prop :=
  st.paused = false ∧ ∃ a ∈ (actionsOf env st d clock)[i]?, ∃ b ∈ bookAt env g st d clock i,
    CallsPlace (dispatchAction env.toMMEnv g (tickFromDict d) b a)

/-- The `i`-th action of the tick submits an order. -/
def SubmitsAt (st : MMPaperDriver K) (d : TickDict K) (clock : K) (i : ℕ) : Prop :=
  st.paused = false ∧ ∃ a ∈ (actionsOf env st d clock)[i]?, ∃ b ∈ bookAt env g st d clock i,
    Submits env g b a

/-- A message of the consumer, and whether the file is there when the `i`-th action of a tick is
dispatched. -/
abbrev WatchedLabel (K : Type) : Type := MMLabel K × (ℕ → Bool)

/-- In every step of the run, `P` holds of no action that is dispatched under the file. -/
def NeverUnderFile (P : MMPaperDriver K → TickDict K → K → ℕ → Prop) (st : MMPaperDriver K)
    (ls : List (WatchedLabel K)) : Prop :=
  Obeys (fun pre l => ∀ d clock fillClock, l.1 = .tick d clock fillClock → ∀ i, l.2 i = true →
    ¬P ((mmMachine env g).final st (pre.map Prod.fst)) d clock i) ls

end Maker

section Engine

variable {K S P : Type} [Field K] [LinearOrder K] [FloorRing K]

/-- No driver of the engine submits an order under the file: every call of `try_enter` is blocked,
all that is persisted or opened comes from calls without the file, and `place` is not called. -/
def KillSwitchKept (env : DriverEnv K S P) (boot : World K S) (ls : List (DriverLabel K))
    (mmEnv : MMDriverEnv K) (g : GlobalMMState K) (st : MMPaperDriver K)
    (mmLs : List (WatchedLabel K)) : Prop :=
  ((driverMachine env).Along (Blocked env) boot ls ∧ FromStarted env boot ls) ∧
    NeverUnderFile mmEnv g (CallsPlaceAt mmEnv g) st mmLs

/-- **The kill switch.** Over every run of a paper driver and of a market making driver, no order
is submitted under the file exactly when no action of the market maker comes up under it that
submits one.
SOURCE: paper/exec_client.py:76-102; paper/mm_driver.py:67-197 -/
theorem kill_switch_iff (env : DriverEnv K S P) (strategy : S) (paused : Bool)
    (rows : Option (List String)) (dailyPnl : K) (dailyTrades : ℤ)
    (orders : Table (OrderRow.key (K := K))) (fills : Table (FillRow.key (K := K)))
    (ls : List (DriverLabel K)) (mmEnv : MMDriverEnv K) (g : GlobalMMState K)
    (k : KEstimator K) (mmPaused : Bool) (mmLs : List (WatchedLabel K)) :
    KillSwitchKept env (World.boot
        (DriverState.boot strategy paused rows dailyPnl dailyTrades) orders fills) ls mmEnv g
        (MMPaperDriver.init k mmPaused) mmLs ↔
      NeverUnderFile mmEnv g (SubmitsAt mmEnv g) (MMPaperDriver.init k mmPaused) mmLs := by
  have hplaces : ∀ st d clock i, CallsPlaceAt mmEnv g st d clock i ↔
      SubmitsAt mmEnv g st d clock i := by
    intro st d clock i
    unfold CallsPlaceAt SubmitsAt
    apply and_congr_right
    intro _
    simp only [callsPlace_dispatchAction_iff]
  have hpaper : (driverMachine env).Along (Blocked env) (World.boot
        (DriverState.boot strategy paused rows dailyPnl dailyTrades) orders fills) ls ∧
      FromStarted env (World.boot
        (DriverState.boot strategy paused rows dailyPnl dailyTrades) orders fills) ls :=
    ⟨fun pre l post _ => blocked_step env _ l, started_run env _ rfl ls⟩
  unfold KillSwitchKept NeverUnderFile
  rw [and_iff_right hpaper]
  simp only [hplaces]

/-- The first tick of the market maker posts two quotes while the file is there.
SOURCE: paper/mm_driver.py:95-96, 137-171 -/
theorem quotes_under_kill_switch :
    ¬∀ (env : DriverEnv ℚ Unit Unit) (ls : List (DriverLabel ℚ)) (mmEnv : MMDriverEnv ℚ)
      (g : GlobalMMState ℚ) (k : KEstimator ℚ) (mmLs : List (WatchedLabel ℚ)),
      KillSwitchKept env (eagerBoot []) ls mmEnv g (MMPaperDriver.init k false) mmLs := by
  intro h
  obtain ⟨-, hnever⟩ := h (eagerDriver 0) [] (soldEnv 75) (GlobalMMState.init 3500 350) ⟨Dict.empty⟩
    [(.tick (btcTick 1775 875 (1 / 5)) 1775 1775, fun _ => true)]
  apply hnever [] _ [] rfl (btcTick 1775 875 (1 / 5)) 1775 1775 rfl 0 rfl
  unfold CallsPlaceAt
  decide +kernel

end Engine

end TradingEdge.Analysis
