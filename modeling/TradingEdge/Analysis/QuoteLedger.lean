import TradingEdge.Analysis.MakerSteps

/-!
# The ledger of the market maker covers its book

The strategy's ledger and the driver's book are two stores that only a recomputed id links.
`Tracked` is what every run keeps of their relation: a resting order of a market is a quote of
the ledger of that market, with the same id, side, price and quantity, and the ledger has at
most one quote a side.  The converse fails, since the strategy is not told when an order is
dropped or expires.

A tick deals with one side after the other, and for each side one move of the ledger goes with
at most one action on the book (`tracks_dispatch`), so the relation holds with the bid dealt
with and again with the ask.  `Tracked` gives the market maker's gate (`not_rests_of_not_quotes`):
where the strategy gives a market up it cancels the whole ledger, and so the whole book.
-/

set_option autoImplicit false

namespace TradingEdge.Analysis

open TradingEdge.Library TradingEdge.Model TradingEdge.Program

variable {K : Type} [Field K] [LinearOrder K]

section Ledger

variable {live : List (LiveQuote K)} {move : SideMove K} {new : LiveQuote K}

/-- The quotes of a ledger are on different sides, and each is on one. -/
structure OnePerSide (live : List (LiveQuote K)) : Prop where
  nodup : (live.map (·.side)).Nodup
  sided : ∀ q ∈ live, q.side ≠ .none

omit [Field K] [LinearOrder K] in
/-- An empty ledger has at most one quote a side. -/
theorem OnePerSide.nil : OnePerSide ([] : List (LiveQuote K)) := ⟨List.nodup_nil, by simp⟩

omit [Field K] [LinearOrder K] in
/-- Two quotes of a ledger on one side are one quote. -/
theorem OnePerSide.eq_of_side (h : OnePerSide live) {q q' : LiveQuote K} (hq : q ∈ live)
    (hq' : q' ∈ live) (hside : q.side = q'.side) : q = q' :=
  List.inj_on_of_nodup_map h.nodup hq hq' hside

omit [Field K] [LinearOrder K] in
/-- So has a part of one that has. -/
theorem OnePerSide.filter (h : OnePerSide live) (p : LiveQuote K → Bool) :
    OnePerSide (live.filter p) :=
  ⟨h.nodup.sublist (List.filter_sublist.map _), fun q hq => h.sided q (List.mem_of_mem_filter hq)⟩

omit [Field K] [LinearOrder K] in
/-- A quote on a free side can be added. -/
theorem OnePerSide.concat (h : OnePerSide live) (hnew : new.side ≠ .none)
    (hfree : ∀ q ∈ live, q.side ≠ new.side) : OnePerSide (live ++ [new]) := by
  constructor
  · rw [List.map_append, List.map_singleton]
    apply h.nodup.append (List.nodup_singleton _)
    rw [List.disjoint_singleton]
    intro hmem
    obtain ⟨q, hq, hside⟩ := List.mem_map.mp hmem
    exact hfree q hq hside
  · intro q hq
    rw [List.mem_append, List.mem_singleton] at hq
    rcases hq with hq | rfl
    · exact h.sided q hq
    · exact hnew

omit [Field K] [LinearOrder K] in
/-- A move keeps one quote a side, whatever quote of its side it found. -/
theorem OnePerSide.ledger (h : OnePerSide live) (hnew : new.side ≠ .none)
    (hfound : move.found = live.find? fun q => q.side = new.side) :
    OnePerSide (move.ledger new live) := by
  have hmem : ∀ old, live.find? (fun q => q.side = new.side) = some old →
      old ∈ live ∧ old.side = new.side := fun old hold =>
    ⟨List.mem_of_find?_eq_some hold, by simpa using List.find?_some hold⟩
  cases move with
  | stay kept => exact h
  | give old => exact h.filter _
  | post =>
    apply h.concat hnew
    intro q hq hside
    have hnone := List.find?_eq_none.mp hfound.symm q hq
    simp [hside] at hnone
  | replace old =>
    apply (h.filter _).concat hnew
    intro q hq hside
    rw [List.mem_filter] at hq
    obtain ⟨hold, holdside⟩ := hmem old hfound.symm
    have heq := h.eq_of_side hq.1 hold (hside.trans holdside.symm)
    simp [heq] at hq

end Ledger

/-- The order is the quote. -/
structure IsOrderOf (q : LiveQuote K) (o : LimitOrder K) : Prop where
  coid : o.coid = q.clientOrderId
  side : o.side = sideToBookSide q.side
  price : o.price = q.price
  qty : o.qty = q.qtyShares

/-- Every order that rests for a market is a quote of the ledger. -/
def Tracks (b : LimitBook K) (slug : String) (live : List (LiveQuote K)) : Prop :=
  ∀ o, Rests b slug o → ∃ q ∈ live, IsOrderOf q o

omit [Field K] [LinearOrder K] in
/-- A book without orders is tracked by any ledger. -/
theorem tracks_of_empty {b : LimitBook K} {slug : String} {live : List (LiveQuote K)}
    (h : ∀ coid, b.get? coid = none) : Tracks b slug live := by
  rintro o ⟨hget, -⟩
  rw [h] at hget
  cases hget

omit [Field K] [LinearOrder K] in
/-- Markets have different instruments. -/
theorem instrumentIdYes_inj {slug slug' : String}
    (h : instrumentIdYes slug = instrumentIdYes slug') : slug = slug' := by
  unfold instrumentIdYes at h
  have hlist := congrArg String.toList h
  rw [String.toList_append, String.toList_append] at hlist
  exact String.ext (List.append_cancel_right hlist)

section Dispatch

variable (env : MMEnv K) (g : GlobalMMState K) (ctx : TickContext K) (b : LimitBook K)

omit [LinearOrder K] in
/-- The order that is sent is the order of the quote. -/
theorem limitOrder_isOrderOf (side : Side) (price qtyShares : K) :
    IsOrderOf (env.liveQuote ctx.marketSlug ctx.ts side price qtyShares)
      (env.limitOrder ctx (env.cfg.newQuote ctx.marketSlug side price qtyShares)) :=
  ⟨rfl, rfl, rfl, rfl⟩

/-- The actions of one side, dispatched, go with the ledger of that side. -/
theorem tracks_dispatch (move : SideMove K) (live : List (LiveQuote K)) (slug : String)
    (side : Side) (price qtyShares : K) (h : Tracks b slug live) :
    Tracks (dispatchAll env g ctx b
        (move.actions ctx.marketSlug (env.cfg.newQuote ctx.marketSlug side price qtyShares))).book
      slug
      (if slug = ctx.marketSlug then
        move.ledger (env.liveQuote ctx.marketSlug ctx.ts side price qtyShares) live
      else live) := by
  set post := env.cfg.newQuote ctx.marketSlug side price qtyShares with hpost
  set new := env.liveQuote ctx.marketSlug ctx.ts side price qtyShares
  have hnew : IsOrderOf new (env.limitOrder ctx post) :=
    limitOrder_isOrderOf env ctx side price qtyShares
  -- one action is dispatched with nothing after it
  have hsingle : ∀ action, (dispatchAll env g ctx b [action]).book =
      (dispatchAction env g ctx b action).book := by
    intro action
    simp only [dispatchAll]
    cases (dispatchAction env g ctx b action).raised <;> rfl
  intro o ho
  cases move with
  | stay kept =>
    obtain ⟨q, hq, hqo⟩ := h o ho
    exact ⟨q, by simpa [SideMove.ledger] using hq, hqo⟩
  | give old =>
    rw [SideMove.actions, hsingle] at ho
    obtain ⟨hrest, hcoid⟩ := Rests.of_pop b ho
    obtain ⟨q, hq, hqo⟩ := h o hrest
    have hkeep : q.clientOrderId ≠ old.clientOrderId := hqo.coid ▸ hcoid
    refine ⟨q, ?_, hqo⟩
    split
    · simp [SideMove.ledger, hq, hkeep]
    · exact hq
  | post =>
    rw [SideMove.actions, hsingle] at ho
    simp only [dispatchAction] at ho
    have hcases : Rests b slug o ∨ o = env.limitOrder ctx post := by
      revert ho
      split
      · exact Or.inl
      · exact Rests.of_placeOrder b
    rcases hcases with hrest | rfl
    · obtain ⟨q, hq, hqo⟩ := h o hrest
      refine ⟨q, ?_, hqo⟩
      split
      · simp [SideMove.ledger, hq]
      · exact hq
    · have hmarket : slug = ctx.marketSlug := (instrumentIdYes_inj ho.2).symm
      exact ⟨new, by simp [hmarket, SideMove.ledger], hnew⟩
  | replace old =>
    rw [SideMove.actions, hsingle] at ho
    simp only [dispatchAction, LimitBook.cancel] at ho
    have hcases : (Rests b slug o ∧ o.coid ≠ old.clientOrderId) ∨ o = env.limitOrder ctx post := by
      revert ho
      split
      · intro ho
        exact Or.inl (Rests.of_pop b ho)
      · intro ho
        rcases Rests.of_placeOrder _ ho with hrest | heq
        · exact Or.inl (Rests.of_pop b hrest)
        · exact Or.inr heq
    rcases hcases with ⟨hrest, hcoid⟩ | rfl
    · obtain ⟨q, hq, hqo⟩ := h o hrest
      have hkeep : q.clientOrderId ≠ old.clientOrderId := hqo.coid ▸ hcoid
      refine ⟨q, ?_, hqo⟩
      split
      · simp [SideMove.ledger, hq, hkeep]
      · exact hq
    · have hmarket : slug = ctx.marketSlug := (instrumentIdYes_inj ho.2).symm
      exact ⟨new, by simp [hmarket, SideMove.ledger], hnew⟩

/-- Cancels take orders out, and raise nothing. -/
theorem dispatchAll_cancel (coids : List String) (reason : String) :
    (dispatchAll env g ctx b (coids.map fun coid => .cancel coid ctx.marketSlug reason)).raised =
        none ∧
      ∀ k, (dispatchAll env g ctx b
          (coids.map fun coid => .cancel coid ctx.marketSlug reason)).book.get? k =
        if k ∈ coids then none else b.get? k := by
  induction coids generalizing b with
  | nil => exact ⟨rfl, fun k => by simp [dispatchAll]⟩
  | cons coid coids ih =>
    obtain ⟨hraised, hget⟩ := ih (b.pop coid)
    rw [List.map_cons]
    refine ⟨hraised, fun k => ?_⟩
    have hk := hget k
    rw [LimitBook.get?_pop] at hk
    refine hk.trans ?_
    by_cases hmem : k ∈ coids
    · simp [hmem]
    · by_cases hcoid : k = coid <;> simp [hmem, hcoid]

end Dispatch

section Credit

variable (cfg : MMRebateConfig K) (m : MMRebate K) (slug : String) (clock : K)

/-- Crediting takes the quotes of the fills off the ledger of the market. -/
theorem live_creditFills (fills : List (LimitFill K)) (slug' : String) :
    (creditFills cfg slug clock m fills).1.live slug' =
      if slug' = slug then
        (m.live slug).filter fun q => q.clientOrderId ∉ fills.map (·.coid)
      else m.live slug' := by
  induction fills generalizing m with
  | nil =>
    by_cases hslug : slug' = slug
    · simp [creditFills, hslug]
    · simp [creditFills, hslug]
  | cons f fills ih =>
    have hcredit : ∀ s, (creditFill cfg m slug f clock).live s =
        if s = slug then (m.live slug).filter fun q => q.clientOrderId ≠ f.coid
        else m.live s := fun s => m.live_onFill cfg slug s f.coid _ f.price f.qty clock
    rw [creditFills, ih, hcredit slug, hcredit slug', if_pos rfl, List.filter_filter]
    by_cases hslug : slug' = slug
    · rw [if_pos hslug, if_pos hslug]
      apply List.filter_congr
      intro q _
      rw [List.map_cons]
      by_cases hcoid : q.clientOrderId = f.coid <;> simp [hcoid]
    · rw [if_neg hslug, if_neg hslug, if_neg hslug]

end Credit

/-- What every run keeps of a driver's ledger and book. -/
structure Tracked (cfg : MMRebateConfig K) (st : MMPaperDriver K) : Prop where
  resting : ∀ slug, Tracks st.limitBook slug (st.strategy.live slug)
  onePerSide : ∀ slug, OnePerSide (st.strategy.live slug)
  ignored : ∀ slug, cfg.Ignores slug → st.strategy.live slug = []

omit [Field K] [LinearOrder K] in
/-- At first the empty book is tracked. -/
theorem Tracked.init (cfg : MMRebateConfig K) (k : KEstimator K) (paused : Bool) :
    Tracked cfg (MMPaperDriver.init k paused) :=
  ⟨fun _ _ ho => by simp [Rests, MMPaperDriver.init] at ho, fun _ => OnePerSide.nil,
    fun _ _ => rfl⟩

omit [Field K] [LinearOrder K] in
/-- Two orders that rest for a market on one side are one order. -/
theorem Tracked.eq_of_side {cfg : MMRebateConfig K} {st : MMPaperDriver K} (h : Tracked cfg st)
    {slug : String} {o o' : LimitOrder K} (ho : Rests st.limitBook slug o)
    (ho' : Rests st.limitBook slug o') (hsides : o'.side = o.side) : o' = o := by
  obtain ⟨q, hq, hqo⟩ := h.resting slug o ho
  obtain ⟨q', hq', hqo'⟩ := h.resting slug o' ho'
  have hone := h.onePerSide slug
  have hside : ∀ {s s' : Side}, s ≠ .none → s' ≠ .none →
      sideToBookSide s = sideToBookSide s' → s = s' := by
    intro s s'
    cases s <;> cases s' <;> simp [sideToBookSide]
  have hqside : q'.side = q.side := by
    apply hside (hone.sided q' hq') (hone.sided q hq)
    rw [← hqo'.side, ← hqo.side, hsides]
  obtain rfl := hone.eq_of_side hq' hq hqside
  have hcoid : o'.coid = o.coid := hqo'.coid.trans hqo.coid.symm
  have hget := ho'.1
  rw [hcoid, ho.1] at hget
  exact (Option.some.inj hget).symm

section Tick

variable {env : MMDriverEnv K} {g : GlobalMMState K} {st : MMPaperDriver K}

/-- An ignored market changes nothing. -/
theorem quoted_of_ignores {ctx : TickContext K} {clock : K}
    (hignored : env.cfg.Ignores ctx.marketSlug) : MMPaperDriver.quoted env g st ctx clock = st := by
  unfold MMPaperDriver.quoted MMPaperDriver.sent
  rw [st.strategy.onTick_of_ignores env.toMMEnv ctx clock hignored]
  rfl

/-- At any other tick that does not quote the strategy gives its ledger of the market up, and
cancels every quote of it.
SOURCE: strategies/polymarket_btc15m/mm_rebate_v1.py:163-199, 235-247 -/
theorem quoted_of_not_quotes {ctx : TickContext K} {clock : K}
    (hignored : ¬env.cfg.Ignores ctx.marketSlug)
    (hquotes : ¬st.strategy.Quotes env.toMMEnv ctx clock) :
    (∀ slug, (MMPaperDriver.quoted env g st ctx clock).strategy.live slug =
      if slug = ctx.marketSlug then [] else st.strategy.live slug) ∧
    ∀ coid, (MMPaperDriver.quoted env g st ctx clock).limitBook.get? coid =
      if coid ∈ (st.strategy.live ctx.marketSlug).map (·.clientOrderId) then none
      else st.limitBook.get? coid := by
  obtain ⟨reason, safety, -, htick⟩ :=
    st.strategy.onTick_of_not_quotes env.toMMEnv ctx clock hignored hquotes
  have hspec := fun slug => ({ st.strategy with safety := safety } :
    MMRebate K).cancelAllForMarket_spec clock env.cfg ctx.marketSlug slug reason
  constructor
  · intro slug
    unfold MMPaperDriver.quoted
    rw [htick]
    exact (hspec slug).2.1
  · intro coid
    have hcancel := (dispatchAll_cancel env.toMMEnv g ctx st.limitBook
      ((st.strategy.live ctx.marketSlug).map (·.clientOrderId)) reason).2 coid
    rw [List.map_map] at hcancel
    unfold MMPaperDriver.quoted MMPaperDriver.sent
    rw [htick, (hspec ctx.marketSlug).1]
    exact hcancel

/-- Between its dispatch and its match a tick keeps the relation, and one that does not quote
leaves nothing of its market.
SOURCE: paper/mm_driver.py:94-96 -/
theorem Tracked.quoted (h : Tracked env.cfg st) (ctx : TickContext K) (clock : K)
    (hbid : st.strategy.Quotes env.toMMEnv ctx clock →
      (MMPaperDriver.bidSent env g st ctx).raised = none ∨
        ∀ coid, (MMPaperDriver.quoted env g st ctx clock).limitBook.get? coid = none) :
    Tracked env.cfg (MMPaperDriver.quoted env g st ctx clock) ∧
      (¬st.strategy.Quotes env.toMMEnv ctx clock →
        (MMPaperDriver.quoted env g st ctx clock).strategy.live ctx.marketSlug = []) := by
  by_cases hignored : env.cfg.Ignores ctx.marketSlug
  · rw [quoted_of_ignores hignored]
    exact ⟨h, fun _ => h.ignored _ hignored⟩
  by_cases hquotes : st.strategy.Quotes env.toMMEnv ctx clock
  · refine ⟨?_, fun hnot => absurd hquotes hnot⟩
    have hspec := st.strategy.onTick_of_quotes env.toMMEnv ctx clock hquotes
    have hlive : ∀ slug, (MMPaperDriver.quoted env g st ctx clock).strategy.live slug =
        if slug = ctx.marketSlug then
          (st.strategy.askMove env.toMMEnv ctx).ledger
            (st.strategy.newLive env.toMMEnv ctx .yesDown) (st.strategy.bidLedger env.toMMEnv ctx)
        else st.strategy.live slug := fun slug => (hspec slug).2.1
    refine ⟨?_, ?_, ?_⟩
    · intro slug
      rcases hbid hquotes with hraised | hempty
      swap
      · exact tracks_of_empty hempty
      have hbook : (MMPaperDriver.quoted env g st ctx clock).limitBook =
          (dispatchAll env.toMMEnv g ctx (MMPaperDriver.bidSent env g st ctx).book
            ((st.strategy.askMove env.toMMEnv ctx).actions ctx.marketSlug
              (st.strategy.newQuote env.toMMEnv ctx .yesDown))).book := by
        unfold MMPaperDriver.quoted MMPaperDriver.sent
        rw [(hspec ctx.marketSlug).1, dispatchAll_append env.toMMEnv g ctx _ _ _ hraised]
        rfl
      rw [hbook, hlive]
      have hbid := tracks_dispatch env.toMMEnv g ctx st.limitBook
        (st.strategy.bidMove env.toMMEnv ctx) (st.strategy.live slug) slug .yesUp
        (st.strategy.priceOf env.toMMEnv ctx .yesUp) (st.strategy.qtyOf env.toMMEnv ctx)
        (h.resting slug)
      have hask := tracks_dispatch env.toMMEnv g ctx _ (st.strategy.askMove env.toMMEnv ctx) _
        slug .yesDown (st.strategy.priceOf env.toMMEnv ctx .yesDown)
        (st.strategy.qtyOf env.toMMEnv ctx) hbid
      by_cases hslug : slug = ctx.marketSlug
      · subst hslug
        rw [if_pos rfl]
        rw [if_pos rfl, if_pos rfl] at hask
        exact hask
      · rw [if_neg hslug]
        rw [if_neg hslug, if_neg hslug] at hask
        exact hask
    · intro slug
      rw [hlive]
      by_cases hslug : slug = ctx.marketSlug
      · rw [if_pos hslug]
        have hbid : OnePerSide (st.strategy.bidLedger env.toMMEnv ctx) :=
          (h.onePerSide ctx.marketSlug).ledger (fun hside => by cases hside)
            (sideMove_found _ _ _ _ _ _ _ _)
        exact hbid.ledger (fun hside => by cases hside) (sideMove_found _ _ _ _ _ _ _ _)
      · rw [if_neg hslug]
        exact h.onePerSide slug
    · intro slug hslug
      have hne : slug ≠ ctx.marketSlug := fun heq => hignored (heq ▸ hslug)
      rw [hlive, if_neg hne]
      exact h.ignored slug hslug
  · -- the strategy cancels every quote of the ledger
    obtain ⟨hlive, hbook⟩ := quoted_of_not_quotes (g := g) hignored hquotes
    have hrest : ∀ slug o, Rests (MMPaperDriver.quoted env g st ctx clock).limitBook slug o →
        Rests st.limitBook slug o ∧
          o.coid ∉ (st.strategy.live ctx.marketSlug).map (·.clientOrderId) := by
      rintro slug o ⟨hget, hinst⟩
      rw [hbook] at hget
      split at hget
      · cases hget
      · exact ⟨⟨hget, hinst⟩, by assumption⟩
    refine ⟨⟨?_, ?_, ?_⟩, fun _ => by rw [hlive, if_pos rfl]⟩
    · intro slug o ho
      obtain ⟨hbefore, hcoid⟩ := hrest slug o ho
      obtain ⟨q, hq, hqo⟩ := h.resting slug o hbefore
      rw [hlive]
      by_cases hslug : slug = ctx.marketSlug
      · subst hslug
        exact absurd (hqo.coid ▸ List.mem_map_of_mem hq) hcoid
      · rw [if_neg hslug]
        exact ⟨q, hq, hqo⟩
    · intro slug
      rw [hlive]
      split
      · exact OnePerSide.nil
      · exact h.onePerSide slug
    · intro slug hslug
      rw [hlive]
      split
      · rfl
      · exact h.ignored slug hslug

/-- The match keeps the relation: what it fills leaves the book and the ledger.
SOURCE: paper/mm_driver.py:98-119 -/
theorem Tracked.matchTick (h : Tracked env.cfg st) (ctx : TickContext K) (clock : K) :
    Tracked env.cfg (st.matchTick env ctx clock).1 ∧
      (st.strategy.live ctx.marketSlug = [] →
        (st.matchTick env ctx clock).1.strategy.live ctx.marketSlug = []) := by
  by_cases hmatched : TickContext.Matched ctx
  · rw [st.matchTick_of_matched env ctx clock hmatched]
    set inst := instrumentIdYes ctx.marketSlug with hinst
    set fills := (st.limitBook.onTick env.makerFeeBps inst ctx.impliedProbYes ctx.ts).2 with hfills
    have hlive := live_creditFills env.cfg st.strategy ctx.marketSlug clock fills
    have hgone : ∀ o, (st.limitBook.onTick env.makerFeeBps inst ctx.impliedProbYes
        ctx.ts).1.get? o.coid = some o →
        st.limitBook.get? o.coid = some o ∧ o.coid ∉ fills.map (·.coid) := by
      intro o ho
      rw [LimitBook.get?_onTick, Option.filter_eq_some_iff] at ho
      obtain ⟨hget, hkeep⟩ := ho
      refine ⟨hget, fun hmem => ?_⟩
      rw [hfills, LimitBook.onTick, List.map_map, List.mem_map] at hmem
      obtain ⟨p, hp, hcoid⟩ := hmem
      obtain ⟨hpget, hpinst, -, hcrossed⟩ := (st.limitBook.mem_hit_iff inst _ _ p).mp hp
      have hcoid' : p.coid = o.coid := hcoid
      rw [hcoid', hget] at hpget
      obtain rfl := Option.some.inj hpget
      simp [hpinst, hcrossed] at hkeep
    refine ⟨⟨?_, ?_, ?_⟩, ?_⟩
    · intro slug o ho
      obtain ⟨hget, hcoid⟩ := hgone o ho.1
      obtain ⟨q, hq, hqo⟩ := h.resting slug o ⟨hget, ho.2⟩
      refine ⟨q, ?_, hqo⟩
      rw [hlive]
      split
      · rename_i hslug
        subst hslug
        rw [List.mem_filter, ← hqo.coid]
        exact ⟨hq, decide_eq_true hcoid⟩
      · exact hq
    · intro slug
      rw [hlive]
      split
      · exact (h.onePerSide _).filter _
      · exact h.onePerSide slug
    · intro slug hslug
      rw [hlive]
      split
      · rename_i heq
        rw [← heq, h.ignored slug hslug, List.filter_nil]
      · exact h.ignored slug hslug
    · intro hempty
      rw [hlive, if_pos rfl, hempty, List.filter_nil]
  · rw [MMPaperDriver.matchTick, if_neg hmatched]
    exact ⟨h, id⟩

/-- A message that raises nothing keeps the relation. -/
theorem Tracked.next (h : Tracked env.cfg st) (l : MMLabel K)
    (hraise : ∀ e ∈ (mmMachine env g).emits st l, e.isRaise = false) :
    Tracked env.cfg ((mmMachine env g).next st l) := by
  cases l with
  | tick d clock fillClock =>
    change ∀ e ∈ (st.handleTick env g d clock fillClock).2, e.isRaise = false at hraise
    change Tracked env.cfg (st.handleTick env g d clock fillClock).1
    rcases handleTick_cases env g st d clock fillClock with
      ⟨-, htick⟩ | ⟨-, ⟨e, -, htick⟩ | ⟨hraised, htick⟩⟩
    · rw [htick]
      exact h
    · rw [htick] at hraise
      exact absurd (hraise (.raised e) (by simp)) (by simp [MMEvent.isRaise])
    · rw [htick]
      have hquoted := (h.quoted (tickFromDict d) clock
        fun hquotes => Or.inl (bidSent_raised_of_sent hquotes hraised)).1
      exact (hquoted.matchTick (tickFromDict d) fillClock).1
  | control msg =>
    change Tracked env.cfg (st.handleControlMessage msg)
    cases msg <;> exact ⟨h.resting, h.onePerSide, h.ignored⟩

end Tick

section Reachable

variable [IsStrictOrderedRing K] (env : MMDriverEnv K) (g : GlobalMMState K) (k : KEstimator K)
  (paused : Bool)

/-- Without a positive stake nothing ever rests.
SOURCE: paper/limit_book_sim.py:130-133 -/
theorem empty_of_stake (hstake : env.cfg.stakeNominalUsd ≤ 0) (ls : List (MMLabel K))
    (coid : String) :
    ((mmMachine env g).final (MMPaperDriver.init k paused) ls).limitBook.get? coid = none := by
  induction ls using List.reverseRecOn with
  | nil => rfl
  | append_singleton ls l ih =>
    rw [Machine.final_concat, Option.eq_none_iff_forall_ne_some]
    intro o ho
    cases l with
    | control msg =>
      have hrest : ((mmMachine env g).final (MMPaperDriver.init k paused)
          ls).limitBook.get? coid = some o := by
        cases msg <;> exact ho
      rw [ih] at hrest
      cases hrest
    | tick d clock fillClock =>
      rcases get?_handleTick ho with hrest | hplaced
      · rw [ih] at hrest
        cases hrest
      · exact not_placed_of_stake hstake hplaced

/-- A bid is refused only where nothing rests.
SOURCE: paper/limit_book_sim.py:130-133 -/
theorem bid_or_empty (ls : List (MMLabel K)) (ctx : TickContext K) (clock : K) :
    (MMPaperDriver.bidSent env g ((mmMachine env g).final (MMPaperDriver.init k paused) ls)
        ctx).raised = none ∨
      ∀ coid, (MMPaperDriver.quoted env g
        ((mmMachine env g).final (MMPaperDriver.init k paused) ls) ctx clock).limitBook.get? coid =
          none := by
  rcases lt_or_ge 0 env.cfg.stakeNominalUsd with hstake | hstake
  · exact Or.inl (bidSent_raised_of_stake hstake)
  · refine Or.inr fun coid => ?_
    rw [Option.eq_none_iff_forall_ne_some]
    intro o ho
    rcases get?_dispatchAll ho with hrest | hplaced
    · rw [empty_of_stake env g k paused hstake ls coid] at hrest
      cases hrest
    · exact not_placed_of_stake hstake hplaced

/-- Every run keeps the relation, exceptions included: an ask that is refused is dealt with
last. -/
theorem tracked_reachable (ls : List (MMLabel K)) :
    Tracked env.cfg ((mmMachine env g).final (MMPaperDriver.init k paused) ls) := by
  induction ls using List.reverseRecOn with
  | nil => exact Tracked.init env.cfg k paused
  | append_singleton ls l ih =>
    have hbid := bid_or_empty env g k paused ls
    rw [Machine.final_concat]
    set st := (mmMachine env g).final (MMPaperDriver.init k paused) ls
    cases l with
    | control msg =>
      change Tracked env.cfg (st.handleControlMessage msg)
      cases msg <;> exact ⟨ih.resting, ih.onePerSide, ih.ignored⟩
    | tick d clock fillClock =>
      change Tracked env.cfg (st.handleTick env g d clock fillClock).1
      have hquoted := (ih.quoted (g := g) (tickFromDict d) clock
        fun _ => hbid (tickFromDict d) clock).1
      rcases handleTick_cases env g st d clock fillClock with
        ⟨-, htick⟩ | ⟨-, ⟨e, -, htick⟩ | ⟨-, htick⟩⟩
      · rw [htick]
        exact ih
      · rw [htick]
        exact hquoted
      · rw [htick]
        exact (hquoted.matchTick (tickFromDict d) fillClock).1

end Reachable

section Runs

variable (env : MMDriverEnv K) (g : GlobalMMState K) (k : KEstimator K) (paused : Bool)

/-- A run in which the book raises nothing keeps the relation throughout. -/
theorem tracked_final (ls : List (MMLabel K))
    (hbook : ∀ e ∈ (mmMachine env g).trace (MMPaperDriver.init k paused) ls,
      e.isRaise = false) :
    Tracked env.cfg ((mmMachine env g).final (MMPaperDriver.init k paused) ls) := by
  rw [Machine.forall_trace_iff] at hbook
  induction ls using List.reverseRecOn with
  | nil => exact Tracked.init env.cfg k paused
  | append_singleton ls l ih =>
    obtain ⟨hls, hl⟩ := (Obeys.concat_iff ls l).mp hbook
    rw [Machine.final_concat]
    exact (ih hls).next l hl

/-- A tick at which the market maker has no business in the market: the price is outside the
zone or in the dead zone, or the time is outside the quoting window or in the terminal one. -/
def Barred (cfg : MMRebateConfig K) (ctx : TickContext K) : Prop :=
  (ctx.impliedProbYes < cfg.zoneLo ∨ cfg.zoneHi < ctx.impliedProbYes) ∨
    (cfg.deadLo ≤ ctx.impliedProbYes ∧ ctx.impliedProbYes ≤ cfg.deadHi) ∨
    (ctx.tInWindow < cfg.entryWindowStartS ∨
      (cfg.asParams.windowSeconds : K) - cfg.asParams.tauTerminalS < ctx.tInWindow) ∨
    (cfg.asParams.windowSeconds : K) - cfg.safetyParams.tauTerminalS < ctx.tInWindow

/-- The strategy does not quote at such a tick. -/
theorem not_quotes_of_barred {m : MMRebate K} {ctx : TickContext K} {clock : K}
    (h : Barred env.cfg ctx) : ¬m.Quotes env.toMMEnv ctx clock := by
  rintro ⟨-, hgate, -, hterminal⟩
  unfold MMRebateConfig.gate at hgate
  split at hgate
  · cases hgate
  · rename_i hzone
    split at hgate
    · cases hgate
    · rename_i hwindow
      rw [not_not] at hzone hwindow
      obtain ⟨⟨hlo, hhi⟩, hdead⟩ := hzone
      obtain ⟨hstart, hend⟩ := hwindow
      rcases h with (hp | hp) | hp | (ht | ht) | ht
      · exact absurd hlo (not_le.mpr hp)
      · exact absurd hhi (not_le.mpr hp)
      · exact hdead hp
      · exact absurd hstart (not_le.mpr ht)
      · exact absurd hend (not_le.mpr ht)
      · unfold MMSafetyParams.blockPostQuoteTerminal at hterminal
        rw [if_pos ht] at hterminal
        cases hterminal

/-- A handled tick at which the strategy does not quote leaves its market without orders. -/
theorem not_rests_of_not_quotes {st : MMPaperDriver K} (h : Tracked env.cfg st) (d : TickDict K)
    (clock fillClock : K) (hpaused : st.paused = false)
    (hraise : ∀ e ∈ (st.handleTick env g d clock fillClock).2, e.isRaise = false)
    (hquotes : ¬st.strategy.Quotes env.toMMEnv (tickFromDict d) clock) (o : LimitOrder K) :
    ¬Rests (st.handleTick env g d clock fillClock).1.limitBook d.marketSlug o := by
  rcases handleTick_cases env g st d clock fillClock with
    ⟨htrue, -⟩ | ⟨-, ⟨e, -, htick⟩ | ⟨hraised, htick⟩⟩
  · rw [hpaused] at htrue
    cases htrue
  · rw [htick] at hraise
    exact absurd (hraise (.raised e) (by simp)) (by simp [MMEvent.isRaise])
  · rw [htick]
    obtain ⟨hquoted, hempty⟩ := h.quoted (tickFromDict d) clock
      fun hquotes => Or.inl (bidSent_raised_of_sent hquotes hraised)
    obtain ⟨hmatch, hleft⟩ := hquoted.matchTick (tickFromDict d) fillClock
    intro ho
    obtain ⟨q, hq, -⟩ := hmatch.resting (tickFromDict d).marketSlug o ho
    rw [hleft (hempty hquotes)] at hq
    cases hq

/-- **The market maker's gate.** In every run in which the book raises nothing, what rests for
a market is in the ledger of that market and is at most one buy and one sell; and after every
handled tick that bars the market, nothing of it rests.
SOURCE: strategies/polymarket_btc15m/mm_rebate_v1.py:153-320, paper/mm_driver.py:67-197 -/
theorem maker_gating (ls : List (MMLabel K))
    (hbook : ∀ e ∈ (mmMachine env g).trace (MMPaperDriver.init k paused) ls,
      e.isRaise = false) :
    (∀ slug o, Rests ((mmMachine env g).final (MMPaperDriver.init k paused) ls).limitBook slug o →
      ∃ q ∈ ((mmMachine env g).final (MMPaperDriver.init k paused) ls).strategy.live slug,
        q.clientOrderId = o.coid ∧ sideToBookSide q.side = o.side) ∧
    (∀ slug o, Rests ((mmMachine env g).final (MMPaperDriver.init k paused) ls).limitBook slug o →
      (o.side = "BUY" ∨ o.side = "SELL") ∧
        ∀ o', Rests ((mmMachine env g).final (MMPaperDriver.init k paused) ls).limitBook slug o' →
          o'.side = o.side → o' = o) ∧
    ∀ pre d clock fillClock post, ls = pre ++ .tick d clock fillClock :: post →
      ((mmMachine env g).final (MMPaperDriver.init k paused) pre).paused = false →
      Barred env.cfg (tickFromDict d) →
      ∀ o, ¬Rests ((mmMachine env g).final (MMPaperDriver.init k paused)
        (pre ++ [.tick d clock fillClock])).limitBook d.marketSlug o := by
  have htracked := tracked_final env g k paused ls hbook
  refine ⟨?_, ?_, ?_⟩
  · intro slug o ho
    obtain ⟨q, hq, hqo⟩ := htracked.resting slug o ho
    exact ⟨q, hq, hqo.coid.symm, hqo.side.symm⟩
  · intro slug o ho
    refine ⟨?_, fun o' ho' hsides => htracked.eq_of_side ho ho' hsides⟩
    obtain ⟨q, hq, hqo⟩ := htracked.resting slug o ho
    rw [hqo.side]
    unfold sideToBookSide
    split
    · exact Or.inl rfl
    · exact Or.inr rfl
  · intro pre d clock fillClock post heq hpaused hbarred
    rw [Machine.forall_trace_iff] at hbook
    have hpre : Tracked env.cfg ((mmMachine env g).final (MMPaperDriver.init k paused) pre) := by
      apply tracked_final env g k paused pre
      rw [Machine.forall_trace_iff]
      exact Obeys.of_append (heq ▸ hbook)
    have hraise := hbook pre _ post heq
    rw [Machine.final_concat]
    exact not_rests_of_not_quotes env g hpre d clock fillClock hpaused hraise
      (not_quotes_of_barred env hbarred)

end Runs

/-- Two quotes are posted, the driver is paused and resumed, and the window ends. -/
def closingRun : List (MMLabel ℚ) :=
  [.tick (btcTick 1775 875 (1 / 5)) 1775 1775, .control .pause, .control .resume,
    .tick (btcTick 1790 890 (1 / 5)) 1790 1790]

/-- The window ends, and nothing rests any more. -/
theorem maker_gating_closingRun :
    Barred (btc15mEnv [1 / 15] 0 75).cfg (tickFromDict (btcTick 1790 890 (1 / 5))) ∧
      ∀ o, ¬Rests ((mmMachine (btc15mEnv [1 / 15] 0 75) (GlobalMMState.init 3500 350)).final
        (MMPaperDriver.init ⟨Dict.empty⟩ false) closingRun).limitBook "btc-updown-15m-900" o := by
  have hbarred : Barred (btc15mEnv [1 / 15] 0 75).cfg
      (tickFromDict (btcTick 1790 890 (1 / 5))) := by
    unfold Barred
    decide +kernel
  refine ⟨hbarred, ?_⟩
  exact (maker_gating (btc15mEnv [1 / 15] 0 75) (GlobalMMState.init 3500 350) ⟨Dict.empty⟩ false
    closingRun (by decide +kernel)).2.2 (closingRun.take 3) (btcTick 1790 890 (1 / 5)) 1790 1790
    [] rfl (by decide +kernel) hbarred

end TradingEdge.Analysis
