import TradingEdge.Program.LimitBookSim
import TradingEdge.Program.MMRebate
import TradingEdge.Program.PaperDriver

/-!
# The market making driver

`MMPaperDriver` of `paper/mm_driver.py` with the caps its instances share
(`paper/global_mm_state.py`).  The consumer handles one message at a time, and nothing else
touches the strategy and the book of a driver, so for one driver a handled tick is one step:
the strategy's actions are dispatched to the book in order, then the book is matched against
the mid and the strategy is told of the fills.  An exception that the book raises ends the
tick where it is.

`update_strategy` of the shared state has no caller: in a run of the engine the totals keep
their first values, so the shared state is an argument.  The buffers, indicators and daily
counters of the parent class are left out, since no quote depends on them.
-/

set_option autoImplicit false

namespace TradingEdge.Program

open TradingEdge.Model TradingEdge.Library

/-- SOURCE: paper/global_mm_state.py:32-38 -/
structure GlobalMMState (K : Type) where
  maxTotalCapitalAtRiskUsd : K
  maxTotalInventoryUsdc : K
  inventoryUsdcByStrategy : Dict String K
  capitalAtRiskByStrategy : Dict String K

/-- Which aggregate cap a quote would breach, with the projected total. -/
inductive GlobalBlock (K : Type) where
  | globalInventoryCap (projected : K)
  | globalCapitalCap (projected : K)
deriving DecidableEq

/-- The state the engine builds from its configuration.
SOURCE: cli/paper_engine.py:208-220 -/
def GlobalMMState.init {K : Type} (maxCapital maxInventory : K) : GlobalMMState K :=
  ⟨maxCapital, maxInventory, Dict.empty, Dict.empty⟩

/-- SOURCE: paper/mm_driver.py:45-47 -/
def instrumentIdYes (slug : String) : String := slug ++ "-YES.POLYMARKET"

/-- SOURCE: paper/mm_driver.py:50-52 -/
def sideToBookSide (side : Side) : String := if side = .yesUp then "BUY" else "SELL"

/-- A driver: its strategy, its book, and whether it is paused. -/
structure MMPaperDriver (K : Type) where
  strategy : MMRebate K
  limitBook : LimitBook K
  paused : Bool

/-- A driver at the start of the engine. -/
def MMPaperDriver.init {K : Type} (k : KEstimator K) (paused : Bool) : MMPaperDriver K :=
  ⟨MMRebate.init k, LimitBook.empty, paused⟩

/-- What a driver is built with. -/
structure MMDriverEnv (K : Type) extends MMEnv K where
  makerFeeBps : K

/-- What a tick does. -/
inductive MMEvent (K : Type) where
  | pausedSkip
  | capDropped (new : PostQuote K)
  | placed (o : LimitOrder K)
  | duplicate (o : LimitOrder K)
  | cancelled (o : LimitOrder K)
  | raised (e : PlaceError)
  | expired (o : LimitOrder K)
  | filled (f : LimitFill K) (inventory : K)
  | handled (ctx : TickContext K)

/-- The event is an exception of the book. -/
def MMEvent.isRaise {K : Type} : MMEvent K → Bool
  | .raised _ => true
  | _ => false

/-- The orders the events place. -/
def placedOf {K : Type} (events : List (MMEvent K)) : List (LimitOrder K) :=
  events.filterMap fun
    | .placed o => some o
    | _ => none

/-- The fills among the events. -/
def fillsOf {K : Type} (events : List (MMEvent K)) : List (LimitFill K) :=
  events.filterMap fun
    | .filled f _ => some f
    | _ => none

/-- The inventories after the fills among the events. -/
def inventoriesOf {K : Type} (events : List (MMEvent K)) : List K :=
  events.filterMap fun
    | .filled _ inventory => some inventory
    | _ => none

/-- The orders placed by some events. -/
theorem mem_placedOf_iff {K : Type} (events : List (MMEvent K)) (o : LimitOrder K) :
    o ∈ placedOf events ↔ .placed o ∈ events := by
  rw [placedOf, List.mem_filterMap]
  constructor
  · rintro ⟨e, he, heq⟩
    cases e <;> simp_all
  · intro h
    exact ⟨_, h, rfl⟩

/-- The fills of some events. -/
theorem mem_fillsOf_iff {K : Type} (events : List (MMEvent K)) (f : LimitFill K) :
    f ∈ fillsOf events ↔ ∃ inventory, .filled f inventory ∈ events := by
  rw [fillsOf, List.mem_filterMap]
  constructor
  · rintro ⟨e, he, heq⟩
    cases e <;> simp_all
    exact ⟨_, he⟩
  · rintro ⟨inventory, h⟩
    exact ⟨_, h, rfl⟩

/-- The inventories after the fills of some events. -/
theorem mem_inventoriesOf_iff {K : Type} (events : List (MMEvent K)) (inventory : K) :
    inventory ∈ inventoriesOf events ↔ ∃ f, .filled f inventory ∈ events := by
  rw [inventoriesOf, List.mem_filterMap]
  constructor
  · rintro ⟨e, he, heq⟩
    cases e <;> simp_all
    exact ⟨_, he⟩
  · rintro ⟨f, h⟩
    exact ⟨_, h, rfl⟩

/-- The book after an action, what happened, and the exception if there was one. -/
structure Dispatched (K : Type) where
  book : LimitBook K
  events : List (MMEvent K)
  raised : Option PlaceError

/-- A message of the consumer: a tick, with the wall clock when the strategy runs and when it
is told of the fills, or a control message. -/
inductive MMLabel (K : Type) where
  | tick (d : TickDict K) (clock fillClock : K)
  | control (msg : ControlMessage)

variable {K : Type} [Field K] [LinearOrder K]

/-- The sum of the totals of the other strategies. -/
def totalOfOthers (totals : Dict String K) (strategyId : String) : K :=
  ((totals.entries.filter fun e => e.1 ≠ strategyId).map Prod.snd).sum

/-- SOURCE: paper/global_mm_state.py:48-53 -/
def GlobalMMState.updateStrategy (g : GlobalMMState K) (strategyId : String)
    (inventoryUsdc capitalAtRiskUsd : K) : GlobalMMState K :=
  { g with
    inventoryUsdcByStrategy := g.inventoryUsdcByStrategy.set strategyId inventoryUsdc
    capitalAtRiskByStrategy := g.capitalAtRiskByStrategy.set strategyId capitalAtRiskUsd }

/-- SOURCE: paper/global_mm_state.py:55-88 -/
def GlobalMMState.blockPostQuote (g : GlobalMMState K) (strategyId : String)
    (deltaInventoryUsdc deltaCapitalAtRiskUsd : K) : Option (GlobalBlock K) :=
  let currentInv := (g.inventoryUsdcByStrategy.get? strategyId).getD 0
  let othersInv := totalOfOthers g.inventoryUsdcByStrategy strategyId
  let projectedInv := othersInv + |currentInv| + deltaInventoryUsdc
  if g.maxTotalInventoryUsdc < projectedInv then some (.globalInventoryCap projectedInv)
  else
    let currentCap := (g.capitalAtRiskByStrategy.get? strategyId).getD 0
    let othersCap := totalOfOthers g.capitalAtRiskByStrategy strategyId
    let projectedCap := othersCap + currentCap + deltaCapitalAtRiskUsd
    if g.maxTotalCapitalAtRiskUsd < projectedCap then some (.globalCapitalCap projectedCap)
    else none

/-- SOURCE: paper/mm_driver.py:199-208 -/
def coidForPost (env : MMEnv K) (slug : String) (ts : K) (q : PostQuote K) : String :=
  env.execLib.sha16 (env.cfg.name ++ "|" ++ slug ++ "|" ++ env.execLib.fmt6 ts ++ "|" ++
    q.side.value ++ "|" ++ q.clientIdSeed)

/-- The order a quote becomes.
SOURCE: paper/mm_driver.py:160-169, 179-191 -/
def MMEnv.limitOrder (env : MMEnv K) (ctx : TickContext K) (q : PostQuote K) : LimitOrder K where
  coid := coidForPost env ctx.marketSlug ctx.ts q
  strategyId := env.cfg.name
  instrumentId := instrumentIdYes ctx.marketSlug
  side := sideToBookSide q.side
  price := q.price
  qty := q.qtyShares
  tsPlaced := ctx.ts
  ttlS := if 0 < q.ttlSeconds then some (q.ttlSeconds : K) else none

/-- `place`, with its answer as an event. -/
def placeOrder (b : LimitBook K) (o : LimitOrder K) : Dispatched K :=
  match b.place o with
  | .error e => ⟨b, [], some e⟩
  | .ok (b', true) => ⟨b', [.placed o], none⟩
  | .ok (b', false) => ⟨b', [.duplicate o], none⟩

/-- SOURCE: paper/mm_driver.py:137-197 -/
def dispatchAction (env : MMEnv K) (g : GlobalMMState K) (ctx : TickContext K)
    (b : LimitBook K) (action : MMAction K) : Dispatched K :=
  match action with
  | .post new =>
    let deltaInv := new.qtyShares * new.price
    match g.blockPostQuote env.cfg.name deltaInv deltaInv with
    | some _ => ⟨b, [.capDropped new], none⟩
    | none => placeOrder b (env.limitOrder ctx new)
  | .cancel clientOrderId _ _ =>
    let (b, gone) := b.cancel clientOrderId
    ⟨b, gone.toList.map .cancelled, none⟩
  | .replace oldClientOrderId new =>
    let (b, gone) := b.cancel oldClientOrderId
    match gone with
    | none => ⟨b, [], none⟩
    | some old =>
      let sent := placeOrder b (env.limitOrder ctx new)
      { sent with events := .cancelled old :: sent.events }

/-- The actions of a tick in order, up to an exception.
SOURCE: paper/mm_driver.py:95-96 -/
def dispatchAll (env : MMEnv K) (g : GlobalMMState K) (ctx : TickContext K) :
    LimitBook K → List (MMAction K) → Dispatched K
  | b, [] => ⟨b, [], none⟩
  | b, action :: actions =>
    let sent := dispatchAction env g ctx b action
    match sent.raised with
    | some e => ⟨sent.book, sent.events, some e⟩
    | none =>
      let rest := dispatchAll env g ctx sent.book actions
      { rest with events := sent.events ++ rest.events }

/-- The strategy is told of a fill.
SOURCE: paper/mm_driver.py:108-119 -/
def creditFill (cfg : MMRebateConfig K) (m : MMRebate K) (slug : String) (f : LimitFill K)
    (clock : K) : MMRebate K :=
  let strategySide := if f.side = "BUY" then Side.yesUp else Side.yesDown
  m.onFill cfg slug f.coid strategySide.value f.price f.qty clock

/-- It is told of the fills of a tick one by one. -/
def creditFills (cfg : MMRebateConfig K) (slug : String) (clock : K) :
    MMRebate K → List (LimitFill K) → MMRebate K × List (MMEvent K)
  | m, [] => (m, [])
  | m, f :: fills =>
    let m := creditFill cfg m slug f clock
    let rest := creditFills cfg slug clock m fills
    (rest.1, .filled f (m.safety.inventory slug) :: rest.2)

/-- The matcher runs only on a mid strictly between zero and one.
SOURCE: paper/mm_driver.py:102-103 -/
def TickContext.Matched (ctx : TickContext K) : Prop :=
  0 < ctx.impliedProbYes ∧ ctx.impliedProbYes < 1

instance (ctx : TickContext K) : Decidable (TickContext.Matched ctx) :=
  inferInstanceAs (Decidable (_ ∧ _))

/-- The second half of a tick: match the book, and credit the fills.
SOURCE: paper/mm_driver.py:98-135 -/
def MMPaperDriver.matchTick (env : MMDriverEnv K) (st : MMPaperDriver K) (ctx : TickContext K)
    (clock : K) : MMPaperDriver K × List (MMEvent K) :=
  if TickContext.Matched ctx then
    let instrumentId := instrumentIdYes ctx.marketSlug
    let (book, fills) :=
      st.limitBook.onTick env.makerFeeBps instrumentId ctx.impliedProbYes ctx.ts
    let (strategy, events) := creditFills env.cfg ctx.marketSlug clock st.strategy fills
    ({ st with strategy := strategy, limitBook := book },
      (st.limitBook.expired instrumentId ctx.ts).map .expired ++ events)
  else (st, [])

/-- On such a mid the book gives the fills and the strategy is credited them. -/
theorem MMPaperDriver.matchTick_of_matched (env : MMDriverEnv K) (st : MMPaperDriver K)
    (ctx : TickContext K) (clock : K) (h : TickContext.Matched ctx) :
    st.matchTick env ctx clock =
      (⟨(creditFills env.cfg ctx.marketSlug clock st.strategy
          (st.limitBook.onTick env.makerFeeBps (instrumentIdYes ctx.marketSlug)
            ctx.impliedProbYes ctx.ts).2).1,
        (st.limitBook.onTick env.makerFeeBps (instrumentIdYes ctx.marketSlug)
          ctx.impliedProbYes ctx.ts).1, st.paused⟩,
        (st.limitBook.expired (instrumentIdYes ctx.marketSlug) ctx.ts).map .expired ++
          (creditFills env.cfg ctx.marketSlug clock st.strategy
            (st.limitBook.onTick env.makerFeeBps (instrumentIdYes ctx.marketSlug)
              ctx.impliedProbYes ctx.ts).2).2) :=
  if_pos h

/-- SOURCE: paper/mm_driver.py:67-135 -/
def MMPaperDriver.handleTick (env : MMDriverEnv K) (g : GlobalMMState K)
    (st : MMPaperDriver K) (d : TickDict K) (clock fillClock : K) :
    MMPaperDriver K × List (MMEvent K) :=
  let ctx := tickFromDict d
  if st.paused then (st, [.pausedSkip])
  else
    let (actions, strategy) := st.strategy.onTick env.toMMEnv ctx clock
    let sent := dispatchAll env.toMMEnv g ctx st.limitBook actions
    let st := { st with strategy := strategy, limitBook := sent.book }
    match sent.raised with
    | some e => (st, sent.events ++ [.raised e])
    | none =>
      let (st, events) := st.matchTick env ctx fillClock
      (st, sent.events ++ events ++ [.handled ctx])

/-- SOURCE: paper/driver.py:263-287 -/
def MMPaperDriver.handleControlMessage (st : MMPaperDriver K) (msg : ControlMessage) :
    MMPaperDriver K :=
  match msg with
  | .pause => { st with paused := true }
  | .resume => { st with paused := false }
  | .other => st

/-- One message. -/
def mmStep (env : MMDriverEnv K) (g : GlobalMMState K) (st : MMPaperDriver K) (l : MMLabel K) :
    MMPaperDriver K × List (MMEvent K) :=
  match l with
  | .tick d clock fillClock => st.handleTick env g d clock fillClock
  | .control msg => (st.handleControlMessage msg, [])

/-- One driver as a machine. -/
def mmMachine (env : MMDriverEnv K) (g : GlobalMMState K) :
    Machine (MMPaperDriver K) (MMLabel K) (MMEvent K) :=
  ⟨mmStep env g⟩

omit [Field K] [LinearOrder K] in
/-- The driver names an order as the strategy names its quote.
SOURCE: paper/mm_driver.py:199-208 -/
theorem coidForPost_newQuote (env : MMEnv K) (slug : String) (ts price qtyShares : K)
    (side : Side) :
    coidForPost env slug ts (env.cfg.newQuote slug side price qtyShares) =
      (env.liveQuote slug ts side price qtyShares).clientOrderId := rfl

/-- The three answers of a placement. -/
theorem placeOrder_cases (b : LimitBook K) (o : LimitOrder K) :
    (∃ e, placeOrder b o = ⟨b, [], some e⟩ ∧ o.check = some e) ∨
      (∃ b', placeOrder b o = ⟨b', [.placed o], none⟩ ∧ o.check = none ∧ b.get? o.coid = none ∧
        ∀ k, b'.get? k = if k = o.coid then some o else b.get? k) ∨
      (placeOrder b o = ⟨b, [.duplicate o], none⟩ ∧ (b.get? o.coid).isSome) := by
  unfold placeOrder
  cases hplace : b.place o with
  | error e =>
    refine Or.inl ⟨e, rfl, ?_⟩
    unfold LimitBook.place at hplace
    split at hplace
    · rename_i e' hcheck
      cases hplace
      exact hcheck
    · split at hplace <;> cases hplace
  | ok answer =>
    obtain ⟨b', taken⟩ := answer
    cases taken with
    | true => exact Or.inr (Or.inl ⟨b', rfl, b.place_true b' o hplace⟩)
    | false =>
      obtain ⟨hheld, rfl⟩ := b.place_false b' o hplace
      exact Or.inr (Or.inr ⟨rfl, hheld⟩)

/-- An order that is accepted under a free id is put there. -/
theorem placeOrder_of_free {b : LimitBook K} {o : LimitOrder K} (hcheck : o.check = none)
    (hfree : b.get? o.coid = none) :
    (placeOrder b o).raised = none ∧
      ∀ k, (placeOrder b o).book.get? k = if k = o.coid then some o else b.get? k := by
  rcases placeOrder_cases b o with ⟨e, -, hbad⟩ | ⟨b', heq, -, -, hget⟩ | ⟨-, hheld⟩
  · rw [hcheck] at hbad
    cases hbad
  · rw [heq]
    exact ⟨rfl, hget⟩
  · rw [hfree] at hheld
    cases hheld

/-- Actions that raise nothing are dispatched one list after the other. -/
theorem dispatchAll_append (env : MMEnv K) (g : GlobalMMState K) (ctx : TickContext K)
    (b : LimitBook K) (as as' : List (MMAction K))
    (h : (dispatchAll env g ctx b as).raised = none) :
    dispatchAll env g ctx b (as ++ as') =
      { dispatchAll env g ctx (dispatchAll env g ctx b as).book as' with
        events := (dispatchAll env g ctx b as).events ++
          (dispatchAll env g ctx (dispatchAll env g ctx b as).book as').events } := by
  induction as generalizing b with
  | nil => rfl
  | cons a as ih =>
    simp only [List.cons_append, dispatchAll] at h ⊢
    cases hraised : (dispatchAction env g ctx b a).raised with
    | some e => simp [hraised] at h
    | none =>
      simp only [hraised] at h ⊢
      rw [ih _ h, List.append_assoc]

/-- If a list of actions raises nothing, no prefix of it does. -/
theorem dispatchAll_raised_of_append (env : MMEnv K) (g : GlobalMMState K) (ctx : TickContext K)
    (b : LimitBook K) (as as' : List (MMAction K))
    (h : (dispatchAll env g ctx b (as ++ as')).raised = none) :
    (dispatchAll env g ctx b as).raised = none := by
  induction as generalizing b with
  | nil => rfl
  | cons a as ih =>
    simp only [List.cons_append, dispatchAll] at h ⊢
    cases hraised : (dispatchAction env g ctx b a).raised with
    | some e => simp [hraised] at h
    | none =>
      simp only [hraised] at h ⊢
      exact ih _ h

section Instance

/-- The strategy of the BTC 15 minute markets, with its quotes' lifetime and its inventory cap
left open.
SOURCE: config/strategies/polymarket_btc15m_mm_rebate_v1.toml -/
def btc15m (quoteTtlSeconds : ℤ) (inventoryCapUsdc : ℚ) : MMRebateConfig ℚ where
  name := "mm_rebate_v1_btc15m"
  slugPattern := some "btc-updown-15m-"
  zoneLo := 20 / 100
  zoneHi := 60 / 100
  deadLo := 99 / 100
  deadHi := 99 / 100
  entryWindowStartS := 30
  stakeNominalUsd := 30
  asParams := ⟨1 / 10, 900, 25, 500, 15⟩
  safetyParams := ⟨inventoryCapUsdc, 50, 5, 2, 60, 15, 15, false⟩
  ttlSeconds := quoteTtlSeconds

/-- Square roots of the squares in a table, for runs on chosen prices. -/
def tableRoots (roots : List ℚ) : MathLib ℚ where
  log x := x - 1
  exp x := x + 1
  sqrt x := (roots.find? fun r => r * r = x).getD 0
  erf x := x

/-- Ids that are told apart by what they are made of. -/
def plainIds : ExecLib ℚ where
  sha16 text := text
  fmt6 t := toString t.num ++ "/" ++ toString t.den
  random _ := 0

/-- That strategy in a driver, with the maker fee of the book. -/
def btc15mEnv (roots : List ℚ) (quoteTtlSeconds : ℤ) (inventoryCapUsdc : ℚ) :
    MMDriverEnv ℚ where
  lib := tableRoots roots
  execLib := plainIds
  cfg := btc15m quoteTtlSeconds inventoryCapUsdc
  makerFeeBps := 10

/-- A tick of one BTC market: when, how far into the window, and the mid. -/
def btcTick (ts tInWindow mid : ℚ) : TickDict ℚ where
  ts := ts
  windowCloseTs := ts - tInWindow + 900
  marketSlug := "btc-updown-15m-900"
  tInWindow := some tInWindow
  impliedProbYes := some mid

/-- Two quotes are posted, and when the mid moves up the ask is filled. -/
def soldRun : List (MMLabel ℚ) :=
  [.tick (btcTick 1775 875 (1 / 5)) 1775 1775, .tick (btcTick 1784 884 (289 / 1378)) 1784 1784]

/-- The driver of that run, with the roots of the volatilities it meets. -/
def soldEnv (inventoryCapUsdc : ℚ) : MMDriverEnv ℚ :=
  btc15mEnv [1 / 15, 187 / 3445, 13 / 250] 0 inventoryCapUsdc

end Instance

end TradingEdge.Program
