import TradingEdge.Program.MMDriver

/-!
# What a tick of the market making driver can do

The facts about one tick that the results about the market maker share.  A tick is skipped,
ends in an exception, or is dispatched and then matched (`handleTick_cases`); `sent` and
`quoted` are the dispatch and the driver between the two halves.  Of the events, those of the
dispatch belong to an action (`DispatchEvent`), and those of the match are evictions and
fills.
-/

set_option autoImplicit false

namespace TradingEdge.Analysis

open TradingEdge.Library TradingEdge.Model TradingEdge.Program

variable {K : Type} [Field K] [LinearOrder K]

/-- The order rests in the book for the market. -/
def Rests (b : LimitBook K) (slug : String) (o : LimitOrder K) : Prop :=
  b.get? o.coid = some o ∧ o.instrumentId = instrumentIdYes slug

section Book

variable (b : LimitBook K)

omit [Field K] [LinearOrder K] in
/-- What is left of a book, but for one id, rested before. -/
theorem Rests.of_pop {slug coid : String} {o : LimitOrder K} (h : Rests (b.pop coid) slug o) :
    Rests b slug o ∧ o.coid ≠ coid := by
  obtain ⟨hget, hinst⟩ := h
  rw [LimitBook.get?_pop] at hget
  by_cases hcoid : o.coid = coid
  · rw [if_pos hcoid] at hget
    cases hget
  · rw [if_neg hcoid] at hget
    exact ⟨⟨hget, hinst⟩, hcoid⟩

/-- After a placement there is at most the new order more than before. -/
theorem Rests.of_placeOrder {slug : String} {o new : LimitOrder K}
    (h : Rests (placeOrder b new).book slug o) : Rests b slug o ∨ o = new := by
  rcases placeOrder_cases b new with ⟨e, heq, -⟩ | ⟨b', heq, -, -, hget⟩ | ⟨heq, -⟩
  · rw [heq] at h
    exact Or.inl h
  · rw [heq] at h
    obtain ⟨hrest, hinst⟩ := h
    rw [hget] at hrest
    by_cases hcoid : o.coid = new.coid
    · rw [if_pos hcoid] at hrest
      exact Or.inr (Option.some.inj hrest).symm
    · rw [if_neg hcoid] at hrest
      exact Or.inl ⟨hrest, hinst⟩
  · rw [heq] at h
    exact Or.inl h

end Book

section Tick

variable {env : MMDriverEnv K} {g : GlobalMMState K} {st : MMPaperDriver K}

/-- The strategy's answer to a tick, dispatched. -/
def MMPaperDriver.sent (env : MMDriverEnv K) (g : GlobalMMState K) (st : MMPaperDriver K)
    (ctx : TickContext K) (clock : K) : Dispatched K :=
  dispatchAll env.toMMEnv g ctx st.limitBook (st.strategy.onTick env.toMMEnv ctx clock).1

/-- The driver between the dispatch of a tick and its match. -/
def MMPaperDriver.quoted (env : MMDriverEnv K) (g : GlobalMMState K) (st : MMPaperDriver K)
    (ctx : TickContext K) (clock : K) : MMPaperDriver K where
  strategy := (st.strategy.onTick env.toMMEnv ctx clock).2
  limitBook := (MMPaperDriver.sent env g st ctx clock).book
  paused := st.paused

variable (env g st) in
/-- A tick is skipped, ends in an exception, or is dispatched and matched.
SOURCE: paper/mm_driver.py:67-135 -/
theorem handleTick_cases (d : TickDict K) (clock fillClock : K) :
    (st.paused = true ∧ st.handleTick env g d clock fillClock = (st, [.pausedSkip])) ∨
      (st.paused = false ∧
        ((∃ e, (MMPaperDriver.sent env g st (tickFromDict d) clock).raised = some e ∧
            st.handleTick env g d clock fillClock =
              (MMPaperDriver.quoted env g st (tickFromDict d) clock,
                (MMPaperDriver.sent env g st (tickFromDict d) clock).events ++ [.raised e])) ∨
          ((MMPaperDriver.sent env g st (tickFromDict d) clock).raised = none ∧
            st.handleTick env g d clock fillClock =
              (((MMPaperDriver.quoted env g st (tickFromDict d) clock).matchTick env
                  (tickFromDict d) fillClock).1,
                (MMPaperDriver.sent env g st (tickFromDict d) clock).events ++
                  ((MMPaperDriver.quoted env g st (tickFromDict d) clock).matchTick env
                    (tickFromDict d) fillClock).2 ++ [.handled (tickFromDict d)])))) := by
  unfold MMPaperDriver.handleTick
  cases hpaused : st.paused with
  | true => exact Or.inl ⟨rfl, by simp⟩
  | false =>
    refine Or.inr ⟨rfl, ?_⟩
    cases hraised : (MMPaperDriver.sent env g st (tickFromDict d) clock).raised with
    | some e =>
      refine Or.inl ⟨e, rfl, ?_⟩
      unfold MMPaperDriver.sent at hraised
      simp [hraised, MMPaperDriver.quoted, MMPaperDriver.sent, hpaused]
    | none =>
      refine Or.inr ⟨rfl, ?_⟩
      unfold MMPaperDriver.sent at hraised
      simp [hraised, MMPaperDriver.quoted, MMPaperDriver.sent, hpaused]

/-- A dispatch moves no inventory. -/
theorem inventory_quoted (ctx : TickContext K) (clock : K) (slug : String) :
    (MMPaperDriver.quoted env g st ctx clock).strategy.safety.inventory slug =
      st.strategy.safety.inventory slug := by
  unfold MMPaperDriver.quoted
  by_cases hignored : env.cfg.Ignores ctx.marketSlug
  · rw [st.strategy.onTick_of_ignores env.toMMEnv ctx clock hignored]
  by_cases hquotes : st.strategy.Quotes env.toMMEnv ctx clock
  · exact (st.strategy.onTick_of_quotes env.toMMEnv ctx clock hquotes slug).2.2
  · obtain ⟨reason, safety, hinv, htick⟩ :=
      st.strategy.onTick_of_not_quotes env.toMMEnv ctx clock hignored hquotes
    rw [htick]
    have hcancel := (({ st.strategy with safety := safety } : MMRebate K).cancelAllForMarket_spec
      clock env.cfg ctx.marketSlug slug reason).2.2
    exact hcancel.trans (hinv slug)

/-- The action carries a new quote. -/
def Carries (a : MMAction K) (new : PostQuote K) : Prop :=
  a = .post new ∨ ∃ old, a = .replace old new

/-- What an event of a dispatched action can be. -/
inductive DispatchEvent (env : MMEnv K) (ctx : TickContext K) (a : MMAction K) :
    MMEvent K → Prop
  | placed (new : PostQuote K) (h : Carries a new)
    (hcheck : (env.limitOrder ctx new).check = none) :
    DispatchEvent env ctx a (.placed (env.limitOrder ctx new))
  | duplicate (new : PostQuote K) (h : Carries a new) :
    DispatchEvent env ctx a (.duplicate (env.limitOrder ctx new))
  | capDropped (new : PostQuote K) (h : Carries a new) : DispatchEvent env ctx a (.capDropped new)
  | cancelled (o : LimitOrder K) : DispatchEvent env ctx a (.cancelled o)

/-- The events of an action. -/
theorem mem_dispatchAction {ctx : TickContext K} {b : LimitBook K} {a : MMAction K}
    {e : MMEvent K} (h : e ∈ (dispatchAction env.toMMEnv g ctx b a).events) :
    DispatchEvent env.toMMEnv ctx a e := by
  have hplace : ∀ (b : LimitBook K) new, Carries a new →
      e ∈ (placeOrder b (env.toMMEnv.limitOrder ctx new)).events →
      DispatchEvent env.toMMEnv ctx a e := by
    intro b new hnew hmem
    rcases placeOrder_cases b (env.toMMEnv.limitOrder ctx new) with
      ⟨error, heq, -⟩ | ⟨b', heq, hcheck, -⟩ | ⟨heq, -⟩
    · rw [heq] at hmem
      cases hmem
    · rw [heq] at hmem
      exact List.mem_singleton.mp hmem ▸ .placed new hnew hcheck
    · rw [heq] at hmem
      exact List.mem_singleton.mp hmem ▸ .duplicate new hnew
  cases a with
  | post new =>
    have hnew : Carries (.post new) new := Or.inl rfl
    simp only [dispatchAction] at h
    split at h
    · exact List.mem_singleton.mp h ▸ .capDropped new hnew
    · exact hplace _ new hnew h
  | cancel coid slug reason =>
    simp only [dispatchAction, LimitBook.cancel, List.mem_map] at h
    obtain ⟨o, -, rfl⟩ := h
    exact .cancelled o
  | replace old new =>
    simp only [dispatchAction, LimitBook.cancel] at h
    split at h
    · cases h
    · rcases List.mem_cons.mp h with rfl | h
      · exact .cancelled _
      · exact hplace _ new (Or.inr ⟨old, rfl⟩) h

/-- The events of several actions are those of each. -/
theorem mem_dispatchAll {ctx : TickContext K} {b : LimitBook K} {as : List (MMAction K)}
    {e : MMEvent K} (h : e ∈ (dispatchAll env.toMMEnv g ctx b as).events) :
    ∃ a ∈ as, DispatchEvent env.toMMEnv ctx a e := by
  induction as generalizing b with
  | nil => cases h
  | cons a as ih =>
    simp only [dispatchAll] at h
    have hcases : e ∈ (dispatchAction env.toMMEnv g ctx b a).events ∨
        e ∈ (dispatchAll env.toMMEnv g ctx
          (dispatchAction env.toMMEnv g ctx b a).book as).events := by
      revert h
      split
      · exact Or.inl
      · exact List.mem_append.mp
    rcases hcases with hhere | hlater
    · exact ⟨a, List.mem_cons_self, mem_dispatchAction hhere⟩
    · obtain ⟨a', ha', he⟩ := ih hlater
      exact ⟨a', List.mem_cons_of_mem a ha', he⟩

/-- What rests after a dispatch rested before, or was placed by it. -/
theorem get?_dispatchAction {ctx : TickContext K} {b : LimitBook K} {a : MMAction K}
    {coid : String} {o : LimitOrder K}
    (h : (dispatchAction env.toMMEnv g ctx b a).book.get? coid = some o) :
    b.get? coid = some o ∨ .placed o ∈ (dispatchAction env.toMMEnv g ctx b a).events := by
  have hplace : ∀ (b : LimitBook K) new, (placeOrder b new).book.get? coid = some o →
      b.get? coid = some o ∨ .placed o ∈ (placeOrder b new).events := by
    intro b new hget
    rcases placeOrder_cases b new with ⟨error, heq, -⟩ | ⟨b', heq, -, -, hb'⟩ | ⟨heq, -⟩
    · rw [heq] at hget
      exact Or.inl hget
    · rw [heq] at hget ⊢
      rw [hb'] at hget
      by_cases hcoid : coid = new.coid
      · rw [if_pos hcoid] at hget
        exact Or.inr (by simp [Option.some.inj hget])
      · rw [if_neg hcoid] at hget
        exact Or.inl hget
    · rw [heq] at hget
      exact Or.inl hget
  have hpop : ∀ id, (b.pop id).get? coid = some o → b.get? coid = some o := by
    intro id hget
    rw [LimitBook.get?_pop] at hget
    split at hget
    · cases hget
    · exact hget
  cases a with
  | post new =>
    simp only [dispatchAction] at h ⊢
    split at h
    · exact Or.inl h
    · exact hplace b _ h
  | cancel id slug reason => exact Or.inl (hpop id h)
  | replace old new =>
    simp only [dispatchAction, LimitBook.cancel] at h ⊢
    split at h
    · exact Or.inl (hpop old h)
    · rcases hplace _ _ h with hrest | hplaced
      · exact Or.inl (hpop old hrest)
      · exact Or.inr (List.mem_cons_of_mem _ hplaced)

/-- An order in the book after the actions was there, or has been placed. -/
theorem get?_dispatchAll {ctx : TickContext K} {b : LimitBook K} {as : List (MMAction K)}
    {coid : String} {o : LimitOrder K}
    (h : (dispatchAll env.toMMEnv g ctx b as).book.get? coid = some o) :
    b.get? coid = some o ∨ .placed o ∈ (dispatchAll env.toMMEnv g ctx b as).events := by
  induction as generalizing b with
  | nil => exact Or.inl h
  | cons a as ih =>
    simp only [dispatchAll] at h ⊢
    cases hraised : (dispatchAction env.toMMEnv g ctx b a).raised with
    | some e =>
      simp only [hraised] at h ⊢
      exact get?_dispatchAction h
    | none =>
      simp only [hraised] at h ⊢
      rcases ih h with hrest | hplaced
      · rcases get?_dispatchAction hrest with hrest | hplaced
        · exact Or.inl hrest
        · exact Or.inr (List.mem_append_left _ hplaced)
      · exact Or.inr (List.mem_append_right _ hplaced)

/-- The match of a tick places nothing, and what it fills has crossed the mid.
SOURCE: paper/limit_book_sim.py:219-239 -/
theorem matchTick_events {ctx : TickContext K} {clock : K} {e : MMEvent K}
    (h : e ∈ (st.matchTick env ctx clock).2) :
    (∀ o, e ≠ .placed o) ∧ ∀ f inventory, e = .filled f inventory →
      ∃ o : LimitOrder K, f = o.fill env.makerFeeBps ctx.ts ∧ o.Crossed ctx.impliedProbYes := by
  have hcredit : ∀ (m : MMRebate K) (fills : List (LimitFill K)),
      e ∈ (creditFills env.cfg ctx.marketSlug clock m fills).2 →
      ∃ f ∈ fills, ∃ inventory, e = .filled f inventory := by
    intro m fills he
    induction fills generalizing m with
    | nil => simp [creditFills] at he
    | cons f fills ih =>
      rw [creditFills, List.mem_cons] at he
      rcases he with rfl | he
      · exact ⟨f, List.mem_cons_self, _, rfl⟩
      · obtain ⟨f', hf', hrest⟩ := ih _ he
        exact ⟨f', List.mem_cons_of_mem f hf', hrest⟩
  by_cases hmatched : TickContext.Matched ctx
  · rw [st.matchTick_of_matched env ctx clock hmatched, List.mem_append, List.mem_map] at h
    rcases h with ⟨o, -, rfl⟩ | h
    · exact ⟨fun _ => by simp, fun _ _ => by simp⟩
    · obtain ⟨f, hf, inventory, rfl⟩ := hcredit _ _ h
      refine ⟨fun _ => by simp, fun f' inventory' heq => ?_⟩
      obtain ⟨rfl, -⟩ := MMEvent.filled.inj heq
      rw [LimitBook.onTick, List.mem_map] at hf
      obtain ⟨o, ho, rfl⟩ := hf
      exact ⟨o, rfl, ((st.limitBook.mem_hit_iff _ _ _ o).mp ho).2.2.2⟩
  · rw [MMPaperDriver.matchTick, if_neg hmatched] at h
    cases h

/-- The match adds no order. -/
theorem get?_matchTick {ctx : TickContext K} {clock : K} {coid : String}
    {o : LimitOrder K} (h : (st.matchTick env ctx clock).1.limitBook.get? coid = some o) :
    st.limitBook.get? coid = some o := by
  by_cases hmatched : TickContext.Matched ctx
  · rw [st.matchTick_of_matched env ctx clock hmatched] at h
    rw [LimitBook.get?_onTick, Option.filter_eq_some_iff] at h
    exact h.1
  · rw [MMPaperDriver.matchTick, if_neg hmatched] at h
    exact h

/-- An event of a tick is one of its dispatch, or of its match, or its last.
SOURCE: paper/mm_driver.py:67-135 -/
theorem mem_handleTick {d : TickDict K} {clock fillClock : K} {e : MMEvent K}
    (h : e ∈ (st.handleTick env g d clock fillClock).2) :
    e ∈ (MMPaperDriver.sent env g st (tickFromDict d) clock).events ∨
      e ∈ ((MMPaperDriver.quoted env g st (tickFromDict d) clock).matchTick env (tickFromDict d)
        fillClock).2 ∨
      e = .pausedSkip ∨ (∃ error, e = .raised error) ∨ e = .handled (tickFromDict d) := by
  rcases handleTick_cases env g st d clock fillClock with
    ⟨-, htick⟩ | ⟨-, ⟨error, -, htick⟩ | ⟨-, htick⟩⟩
  · rw [htick, List.mem_singleton] at h
    exact Or.inr (Or.inr (Or.inl h))
  · rw [htick, List.mem_append, List.mem_singleton] at h
    rcases h with h | h
    · exact Or.inl h
    · exact Or.inr (Or.inr (Or.inr (Or.inl ⟨error, h⟩)))
  · rw [htick, List.mem_append, List.mem_append, List.mem_singleton] at h
    rcases h with (h | h) | h
    · exact Or.inl h
    · exact Or.inr (Or.inl h)
    · exact Or.inr (Or.inr (Or.inr (Or.inr h)))

/-- A move that posts a quote, in place of another or not. -/
def Posts (move : SideMove K) : Prop := move = .post ∨ ∃ old, move = .replace old

/-- An order that a dispatch places is the quote that a tick which passes the gates posts on one
of the two sides, and one the book accepts.
SOURCE: paper/mm_driver.py:94-96, 137-197 -/
theorem placed_mem_sent {ctx : TickContext K} {clock : K} {o : LimitOrder K}
    (h : .placed o ∈ (MMPaperDriver.sent env g st ctx clock).events) :
    st.strategy.Quotes env.toMMEnv ctx clock ∧ ∃ side,
      (side = .yesUp ∧ Posts (st.strategy.bidMove env.toMMEnv ctx) ∨
        side = .yesDown ∧ Posts (st.strategy.askMove env.toMMEnv ctx)) ∧
      o.check = none ∧
      o = env.toMMEnv.limitOrder ctx (st.strategy.newQuote env.toMMEnv ctx side) := by
  obtain ⟨a, ha, hevent⟩ := mem_dispatchAll h
  obtain ⟨new, hnew, hcheck, rfl⟩ : ∃ new, Carries a new ∧
      (env.toMMEnv.limitOrder ctx new).check = none ∧ o = env.toMMEnv.limitOrder ctx new := by
    cases hevent with
    | placed new hnew hcheck => exact ⟨new, hnew, hcheck, rfl⟩
  by_cases hignored : env.cfg.Ignores ctx.marketSlug
  · rw [st.strategy.onTick_of_ignores env.toMMEnv ctx clock hignored] at ha
    cases ha
  by_cases hquotes : st.strategy.Quotes env.toMMEnv ctx clock
  · have hactions := (st.strategy.onTick_of_quotes env.toMMEnv ctx clock hquotes ctx.marketSlug).1
    rw [hactions, List.mem_append] at ha
    have hmove : ∀ (move : SideMove K) (post : PostQuote K),
        a ∈ move.actions ctx.marketSlug post → Posts move ∧ new = post := by
      intro move post hmem
      cases move with
      | stay kept => cases hmem
      | give old =>
        rw [List.mem_singleton.mp hmem] at hnew
        rcases hnew with heq | ⟨old', heq⟩ <;> cases heq
      | post =>
        rw [List.mem_singleton.mp hmem] at hnew
        rcases hnew with heq | ⟨old', heq⟩ <;> cases heq
        exact ⟨Or.inl rfl, rfl⟩
      | replace old =>
        rw [List.mem_singleton.mp hmem] at hnew
        rcases hnew with heq | ⟨old', heq⟩ <;> cases heq
        exact ⟨Or.inr ⟨old, rfl⟩, rfl⟩
    refine ⟨hquotes, ?_⟩
    rcases ha with ha | ha
    · obtain ⟨hposts, rfl⟩ := hmove _ _ ha
      exact ⟨.yesUp, Or.inl ⟨rfl, hposts⟩, hcheck, rfl⟩
    · obtain ⟨hposts, rfl⟩ := hmove _ _ ha
      exact ⟨.yesDown, Or.inr ⟨rfl, hposts⟩, hcheck, rfl⟩
  · obtain ⟨reason, safety, -, htick⟩ :=
      st.strategy.onTick_of_not_quotes env.toMMEnv ctx clock hignored hquotes
    rw [htick, (({ st.strategy with safety := safety } : MMRebate K).cancelAllForMarket_spec clock
      env.cfg ctx.marketSlug ctx.marketSlug reason).1, List.mem_map] at ha
    obtain ⟨q, -, rfl⟩ := ha
    rcases hnew with heq | ⟨old, heq⟩ <;> cases heq

/-- What rests after a tick rested before it, or was placed by its dispatch. -/
theorem get?_handleTick {d : TickDict K} {clock fillClock : K} {coid : String} {o : LimitOrder K}
    (h : (st.handleTick env g d clock fillClock).1.limitBook.get? coid = some o) :
    st.limitBook.get? coid = some o ∨
      .placed o ∈ (MMPaperDriver.sent env g st (tickFromDict d) clock).events := by
  rcases handleTick_cases env g st d clock fillClock with
    ⟨-, htick⟩ | ⟨-, ⟨error, -, htick⟩ | ⟨-, htick⟩⟩
  · rw [htick] at h
    exact Or.inl h
  · rw [htick] at h
    exact get?_dispatchAll h
  · rw [htick] at h
    exact get?_dispatchAll (get?_matchTick h)

/-- Every order that rests has passed the checks of `place`.
SOURCE: paper/limit_book_sim.py:130-133 -/
theorem check_of_rests (env : MMDriverEnv K) (g : GlobalMMState K) (k : KEstimator K)
    (paused : Bool) (ls : List (MMLabel K)) (coid : String) (o : LimitOrder K)
    (h : ((mmMachine env g).final (MMPaperDriver.init k paused) ls).limitBook.get? coid = some o) :
    o.check = none := by
  induction ls using List.reverseRecOn with
  | nil => cases h
  | append_singleton ls l ih =>
    rw [Machine.final_concat] at h
    cases l with
    | control msg => cases msg <;> exact ih h
    | tick d clock fillClock =>
      rcases get?_handleTick h with hbefore | hplaced
      · exact ih hbefore
      · obtain ⟨-, side, -, hcheck, -⟩ := placed_mem_sent hplaced
        exact hcheck

/-- So its price and its quantity are positive, and it buys or sells. -/
theorem pos_of_check {o : LimitOrder K} (h : o.check = none) :
    0 < o.price ∧ 0 < o.qty ∧ (o.side = "BUY" ∨ o.side = "SELL") := by
  unfold LimitOrder.check at h
  split at h
  · cases h
  · rename_i hside
    split at h
    · cases h
    · rename_i hpos
      rw [not_or, not_le, not_le] at hpos
      refine ⟨hpos.1, hpos.2, ?_⟩
      by_contra hno
      rw [not_or] at hno
      exact hside hno

/-- What a tick places is placed by its dispatch. -/
theorem placed_mem_handleTick {d : TickDict K} {clock fillClock : K} {o : LimitOrder K}
    (h : .placed o ∈ (st.handleTick env g d clock fillClock).2) :
    .placed o ∈ (MMPaperDriver.sent env g st (tickFromDict d) clock).events := by
  rcases mem_handleTick h with h | h | h | ⟨error, h⟩ | h
  · exact h
  · exact absurd rfl ((matchTick_events h).1 o)
  · cases h
  · cases h
  · cases h

/-- What a tick fills has crossed its mid.
SOURCE: paper/limit_book_sim.py:219-239 -/
theorem crossed_of_fills {d : TickDict K} {clock fillClock : K} {o : LimitOrder K}
    (h : o.fill env.makerFeeBps d.ts ∈ fillsOf (st.handleTick env g d clock fillClock).2) :
    o.Crossed (tickFromDict d).impliedProbYes := by
  obtain ⟨inventory, hmem⟩ := (mem_fillsOf_iff _ _).mp h
  rcases mem_handleTick hmem with hmem | hmem | hmem | ⟨error, hmem⟩ | hmem
  · obtain ⟨a, -, hevent⟩ := mem_dispatchAll hmem
    cases hevent
  · obtain ⟨p, hfill, hcrossed⟩ := (matchTick_events hmem).2 _ _ rfl
    have hside : o.side = p.side := congrArg LimitFill.side hfill
    have hprice : o.price = p.price := congrArg LimitFill.price hfill
    unfold LimitOrder.Crossed
    rw [hside, hprice]
    exact hcrossed
  · cases hmem
  · cases hmem
  · cases hmem

/-- The bid's part of a dispatch. -/
def MMPaperDriver.bidSent (env : MMDriverEnv K) (g : GlobalMMState K) (st : MMPaperDriver K)
    (ctx : TickContext K) : Dispatched K :=
  dispatchAll env.toMMEnv g ctx st.limitBook
    ((st.strategy.bidMove env.toMMEnv ctx).actions ctx.marketSlug
      (st.strategy.newQuote env.toMMEnv ctx .yesUp))

/-- A dispatch that raises nothing raises nothing at the bid. -/
theorem bidSent_raised_of_sent {ctx : TickContext K} {clock : K}
    (hquotes : st.strategy.Quotes env.toMMEnv ctx clock)
    (h : (MMPaperDriver.sent env g st ctx clock).raised = none) :
    (MMPaperDriver.bidSent env g st ctx).raised = none := by
  unfold MMPaperDriver.sent at h
  rw [(st.strategy.onTick_of_quotes env.toMMEnv ctx clock hquotes ctx.marketSlug).1] at h
  exact dispatchAll_raised_of_append env.toMMEnv g ctx _ _ _ h

section Positive

variable [IsStrictOrderedRing K]

/-- The bid of a tick is positive.
SOURCE: strategies/polymarket_btc15m/_mm_features.py:148-154 -/
theorem optimalBidAsk_fst_pos (lib : MathLib K) (p q k t : K) (params : ASParams K) :
    0 < (optimalBidAsk lib p q k params t).1 := by
  have hcent : (0 : K) < 1 / 1000 := by norm_num
  unfold optimalBidAsk
  dsimp only
  split
  · exact lt_max_of_lt_left hcent
  · exact lt_max_of_lt_left hcent

/-- With a positive stake the bid is an order the book accepts, so it raises nothing.
SOURCE: paper/limit_book_sim.py:130-133 -/
theorem bidSent_raised_of_stake {ctx : TickContext K} (hstake : 0 < env.cfg.stakeNominalUsd) :
    (MMPaperDriver.bidSent env g st ctx).raised = none := by
  set new := st.strategy.newQuote env.toMMEnv ctx .yesUp with hnew
  have hprice : 0 < new.price := optimalBidAsk_fst_pos _ _ _ _ _ _
  have hqty : 0 < new.qtyShares := div_pos hstake (lt_max_of_lt_right (by norm_num))
  have hcheck : (env.toMMEnv.limitOrder ctx new).check = none := by
    have hside : (env.toMMEnv.limitOrder ctx new).side = "BUY" := rfl
    unfold LimitOrder.check
    rw [if_neg (by simp [hside]), if_neg]
    rintro (h | h)
    · exact absurd hprice (not_lt.mpr h)
    · exact absurd hqty (not_lt.mpr h)
  have hplace : ∀ b : LimitBook K, (placeOrder b (env.toMMEnv.limitOrder ctx new)).raised = none := by
    intro b
    rcases placeOrder_cases b (env.toMMEnv.limitOrder ctx new) with
      ⟨error, -, hbad⟩ | ⟨b', heq, -⟩ | ⟨heq, -⟩
    · rw [hcheck] at hbad
      cases hbad
    · rw [heq]
    · rw [heq]
  have hsingle : ∀ (b : LimitBook K) action,
      (dispatchAction env.toMMEnv g ctx b action).raised = none →
      (dispatchAll env.toMMEnv g ctx b [action]).raised = none := by
    intro b action haction
    simp only [dispatchAll, haction]
  unfold MMPaperDriver.bidSent
  cases st.strategy.bidMove env.toMMEnv ctx with
  | stay kept => rfl
  | give old => rfl
  | post =>
    apply hsingle
    simp only [dispatchAction]
    split
    · rfl
    · exact hplace _
  | replace old =>
    apply hsingle
    simp only [dispatchAction, LimitBook.cancel]
    split
    · rfl
    · exact hplace _

/-- Without a positive stake the book accepts nothing, so it stays empty.
SOURCE: paper/limit_book_sim.py:130-133 -/
theorem not_placed_of_stake {ctx : TickContext K} {clock : K} {o : LimitOrder K}
    (hstake : env.cfg.stakeNominalUsd ≤ 0) :
    .placed o ∉ (MMPaperDriver.sent env g st ctx clock).events := by
  intro h
  obtain ⟨-, side, -, hcheck, rfl⟩ := placed_mem_sent h
  have hqty : (env.toMMEnv.limitOrder ctx
      (st.strategy.newQuote env.toMMEnv ctx side)).qty ≤ 0 := by
    apply div_nonpos_of_nonpos_of_nonneg hstake
    exact le_max_of_le_right (by norm_num)
  unfold LimitOrder.check at hcheck
  split at hcheck
  · cases hcheck
  · rw [if_pos (Or.inr hqty)] at hcheck
    cases hcheck

end Positive

end Tick

end TradingEdge.Analysis
