import TradingEdge.Analysis.QuoteLedger

/-!
# The inventory cap and the quotes that rest

The guard checks the quantity that a tick has just computed.  Where the tick leaves a quote
because its price has moved by less than a cent, what rests is that quote with the quantity it
was posted with, and nobody has checked that.  `KeptFit` is the missing check.

Of the orders that rest between the dispatch of a tick and its match, those the tick posted
have passed the guard (`approved`), and under `KeptFit` so have those it left.  There are at
most one buy and one sell (`Tracked`), and they work against each other, so if each keeps the
inventory within the cap then so do both (`two_sided`).
-/

set_option autoImplicit false

namespace TradingEdge.Analysis

open TradingEdge.Library TradingEdge.Model TradingEdge.Program

variable {K : Type} [Field K] [LinearOrder K]

/-- The quantity of an order, positive if it buys. -/
def signedQty (o : LimitOrder K) : K := (if o.side = "BUY" then 1 else -1) * o.qty

omit [LinearOrder K] in
/-- A purchase counts up. -/
theorem signedQty_buy {o : LimitOrder K} (h : o.side = "BUY") : signedQty o = o.qty := by
  rw [signedQty, if_pos h, one_mul]

omit [LinearOrder K] in
/-- A sale counts down. -/
theorem signedQty_sell {o : LimitOrder K} (h : o.side = "SELL") : signedQty o = -o.qty := by
  have hnot : o.side ≠ "BUY" := by
    rw [h]
    decide
  rw [signedQty, if_neg hnot, neg_one_mul]

/-- The tick's guard would let each quote pass that it leaves resting: a condition on the state
before the tick. -/
def KeptFit (env : MMDriverEnv K) (st : MMPaperDriver K) (l : MMLabel K) : Prop :=
  match l with
  | .control _ => True
  | .tick d clock _ =>
    st.paused = false → st.strategy.Quotes env.toMMEnv (tickFromDict d) clock →
    (∀ q ∈ (st.strategy.bidMove env.toMMEnv (tickFromDict d)).kept,
      ∀ o ∈ st.limitBook.get? q.clientOrderId, o.instrumentId = instrumentIdYes d.marketSlug →
        st.strategy.safety.blockPostQuote env.cfg.safetyParams d.marketSlug 1 q.qtyShares
          (tickFromDict d).impliedProbYes = none) ∧
    ∀ q ∈ (st.strategy.askMove env.toMMEnv (tickFromDict d)).kept,
      ∀ o ∈ st.limitBook.get? q.clientOrderId, o.instrumentId = instrumentIdYes d.marketSlug →
        st.strategy.safety.blockPostQuote env.cfg.safetyParams d.marketSlug (-1) q.qtyShares
          (tickFromDict d).impliedProbYes = none

instance (env : MMDriverEnv K) (st : MMPaperDriver K) (l : MMLabel K) :
    Decidable (KeptFit env st l) :=
  match l with
  | .control _ => isTrue trivial
  | .tick _ _ _ => inferInstanceAs (Decidable (_ → _ → _ ∧ _))

section Approved

variable {env : MMDriverEnv K} {g : GlobalMMState K} {st : MMPaperDriver K}

/-- A move that posts a quote has had its quantity checked. -/
theorem block_eq_none_of_posts {env : MMEnv K} {safety : MMSafetyGuard K}
    {live : List (LiveQuote K)} {slug : String} {side : Side} {price qtyShares pFair : K}
    (h : Posts (sideMove env safety live slug side price qtyShares pFair)) :
    safety.blockPostQuote env.cfg.safetyParams slug (sideSign side) qtyShares pFair = none := by
  unfold sideMove at h
  cases hblock : safety.blockPostQuote env.cfg.safetyParams slug (sideSign side) qtyShares pFair with
  | none => rfl
  | some reason =>
    rw [hblock] at h
    cases hold : live.find? fun q => q.side = side with
    | none => rcases h with h | ⟨old, h⟩ <;> simp [hold] at h
    | some old => rcases h with h | ⟨old', h⟩ <;> simp [hold] at h

/-- A quote of the ledger on the side of a move is the quote the move left, or the one it
posted. -/
theorem kept_or_posts_of_mem_ledger {env : MMEnv K} {safety : MMSafetyGuard K}
    {live : List (LiveQuote K)} {slug : String} {side : Side} {price qtyShares pFair : K}
    {new q : LiveQuote K} (hone : OnePerSide live) (hside : q.side = side)
    (hq : q ∈ (sideMove env safety live slug side price qtyShares pFair).ledger new live) :
    (sideMove env safety live slug side price qtyShares pFair).kept = some q ∨
      Posts (sideMove env safety live slug side price qtyShares pFair) ∧ q = new := by
  have hfound := sideMove_found env slug side price qtyShares pFair safety live
  set move := sideMove env safety live slug side price qtyShares pFair
  -- a quote of the side that was there before is the one the move found
  have hthere : q ∈ live → move.found = some q := by
    intro hmem
    rw [hfound]
    cases hfind : live.find? fun q' => q'.side = side with
    | none =>
      have hno := List.find?_eq_none.mp hfind q hmem
      simp [hside] at hno
    | some q' =>
      have hq'side : q'.side = side := by simpa using List.find?_some hfind
      rw [hone.eq_of_side (List.mem_of_find?_eq_some hfind) hmem (hq'side.trans hside.symm)]
  cases hmove : move with
  | stay kept =>
    rw [hmove] at hq hthere
    exact Or.inl (hthere hq)
  | give old =>
    rw [hmove] at hq hthere
    obtain ⟨hmem, hne⟩ := List.mem_filter.mp hq
    obtain rfl := Option.some.inj (hthere hmem)
    simp at hne
  | post =>
    rw [hmove] at hq hthere
    rcases List.mem_append.mp hq with hmem | hmem
    · cases hthere hmem
    · exact Or.inr ⟨Or.inl rfl, List.mem_singleton.mp hmem⟩
  | replace old =>
    rw [hmove] at hq hthere
    rcases List.mem_append.mp hq with hmem | hmem
    · obtain ⟨hmem, hne⟩ := List.mem_filter.mp hmem
      obtain rfl := Option.some.inj (hthere hmem)
      simp at hne
    · exact Or.inr ⟨Or.inr ⟨old, rfl⟩, List.mem_singleton.mp hmem⟩

omit [Field K] [LinearOrder K] in
/-- A move on one side leaves the quotes of the other as they were, or drops them. -/
theorem mem_of_mem_ledger {move : SideMove K} {live : List (LiveQuote K)} {new q : LiveQuote K}
    (hne : q ≠ new) (hq : q ∈ move.ledger new live) : q ∈ live := by
  cases move with
  | stay kept => exact hq
  | give old => exact List.mem_of_mem_filter hq
  | post => simpa [SideMove.ledger, hne] using hq
  | replace old =>
    have : q ∈ live ∧ q.clientOrderId ≠ old.clientOrderId := by
      simpa [SideMove.ledger, hne] using hq
    exact this.1

/-- Under the missing check, every order that rests after a dispatch has passed the guard at
the mid of the tick.
SOURCE: strategies/polymarket_btc15m/mm_rebate_v1.py:249-287, engine/mm_safety.py:85-101 -/
theorem approved (htracked : Tracked env.cfg st) {d : TickDict K} {clock fillClock : K}
    (hquoted : Tracked env.cfg (MMPaperDriver.quoted env g st (tickFromDict d) clock))
    (hempty : ¬st.strategy.Quotes env.toMMEnv (tickFromDict d) clock →
      (MMPaperDriver.quoted env g st (tickFromDict d) clock).strategy.live d.marketSlug = [])
    (hpaused : st.paused = false) (hfit : KeptFit env st (.tick d clock fillClock))
    {o : LimitOrder K}
    (ho : Rests (MMPaperDriver.quoted env g st (tickFromDict d) clock).limitBook d.marketSlug o) :
    |(st.strategy.safety.inventory d.marketSlug + signedQty o) *
      (tickFromDict d).impliedProbYes| ≤ env.cfg.safetyParams.inventoryCapUsdc := by
  set ctx := tickFromDict d with hctx
  have hbid : ∀ qty, st.strategy.safety.blockPostQuote env.cfg.safetyParams d.marketSlug
      (sideSign .yesUp) qty ctx.impliedProbYes = none → o.side = "BUY" → o.qty = qty →
      |(st.strategy.safety.inventory d.marketSlug + signedQty o) * ctx.impliedProbYes| ≤
        env.cfg.safetyParams.inventoryCapUsdc := by
    intro qty hnone hside hqty
    rw [MMSafetyGuard.blockPostQuote_eq_none_iff] at hnone
    rw [signedQty_buy hside, hqty, ← one_mul qty]
    exact hnone
  have hask : ∀ qty, st.strategy.safety.blockPostQuote env.cfg.safetyParams d.marketSlug
      (sideSign .yesDown) qty ctx.impliedProbYes = none → o.side = "SELL" → o.qty = qty →
      |(st.strategy.safety.inventory d.marketSlug + signedQty o) * ctx.impliedProbYes| ≤
        env.cfg.safetyParams.inventoryCapUsdc := by
    intro qty hnone hside hqty
    rw [MMSafetyGuard.blockPostQuote_eq_none_iff] at hnone
    rw [signedQty_sell hside, hqty, ← neg_one_mul]
    exact hnone
  have hquotes : st.strategy.Quotes env.toMMEnv ctx clock := by
    by_contra hnot
    obtain ⟨q, hq, -⟩ := hquoted.resting d.marketSlug o ho
    rw [hempty hnot] at hq
    cases hq
  obtain ⟨hfitbid, hfitask⟩ := hfit hpaused hquotes
  rcases get?_dispatchAll ho.1 with hbefore | hplaced
  · -- it rested before: its quote is one the tick left, or was put in place of nothing
    obtain ⟨q, hq, hqo⟩ := hquoted.resting d.marketSlug o ho
    have hrest : o ∈ st.limitBook.get? q.clientOrderId := hqo.coid ▸ hbefore
    have hlive := (st.strategy.onTick_of_quotes env.toMMEnv ctx clock hquotes d.marketSlug).2.1
    have hq' : q ∈ (st.strategy.askMove env.toMMEnv ctx).ledger
        (st.strategy.newLive env.toMMEnv ctx .yesDown) (st.strategy.bidLedger env.toMMEnv ctx) := by
      rw [if_pos (show d.marketSlug = ctx.marketSlug from rfl)] at hlive
      exact hlive ▸ hq
    have honebid : OnePerSide (st.strategy.bidLedger env.toMMEnv ctx) :=
      (htracked.onePerSide d.marketSlug).ledger (fun hside => by cases hside)
        (sideMove_found _ _ _ _ _ _ _ _)
    cases hside : q.side with
    | none => exact absurd hside ((hquoted.onePerSide d.marketSlug).sided q hq)
    | yesUp =>
      have hbuy : o.side = "BUY" := by
        rw [hqo.side, hside]
        rfl
      have hne : q ≠ st.strategy.newLive env.toMMEnv ctx .yesDown := by
        intro heq
        rw [heq] at hside
        cases hside
      rcases kept_or_posts_of_mem_ledger (htracked.onePerSide d.marketSlug) hside
        (mem_of_mem_ledger hne hq') with hkept | ⟨hposts, rfl⟩
      · exact hbid _ (hfitbid q hkept o hrest ho.2) hbuy hqo.qty
      · exact hbid _ (block_eq_none_of_posts hposts) hbuy hqo.qty
    | yesDown =>
      have hsell : o.side = "SELL" := by
        rw [hqo.side, hside]
        rfl
      rcases kept_or_posts_of_mem_ledger honebid hside hq' with hkept | ⟨hposts, rfl⟩
      · exact hask _ (hfitask q hkept o hrest ho.2) hsell hqo.qty
      · exact hask _ (block_eq_none_of_posts hposts) hsell hqo.qty
  · obtain ⟨-, side, hmove, -, rfl⟩ := placed_mem_sent hplaced
    rcases hmove with ⟨rfl, hposts⟩ | ⟨rfl, hposts⟩
    · exact hbid _ (block_eq_none_of_posts hposts) rfl rfl
    · exact hask _ (block_eq_none_of_posts hposts) rfl rfl

end Approved

section Sets

/-- If a purchase and a sale each keep the inventory within the cap, so do both together. -/
theorem two_sided [IsStrictOrderedRing K] {q b a p cap : K} (hb : 0 ≤ b) (ha : 0 ≤ a)
    (hbuy : |(q + b) * p| ≤ cap) (hsell : |(q - a) * p| ≤ cap) :
    |(q + b - a) * p| ≤ cap := by
  rw [abs_le] at hbuy hsell ⊢
  rcases le_total 0 p with hp | hp
  · have hlo : (q - a) * p ≤ (q + b - a) * p := mul_le_mul_of_nonneg_right (by linarith) hp
    have hhi : (q + b - a) * p ≤ (q + b) * p := mul_le_mul_of_nonneg_right (by linarith) hp
    exact ⟨hsell.1.trans hlo, hhi.trans hbuy.2⟩
  · have hlo : (q + b) * p ≤ (q + b - a) * p := mul_le_mul_of_nonpos_right (by linarith) hp
    have hhi : (q + b - a) * p ≤ (q - a) * p := mul_le_mul_of_nonpos_right (by linarith) hp
    exact ⟨hbuy.1.trans hlo, hhi.trans hsell.2⟩

/-- Orders of which at most one buys and at most one sells, and each of which keeps the inventory
within the cap, keep it there all together. -/
theorem sum_within_cap [IsStrictOrderedRing K] {q p cap : K} (orders : List (LimitOrder K))
    (hnd : orders.Nodup) (hne : orders ≠ [])
    (hside : ∀ o ∈ orders, o.side = "BUY" ∨ o.side = "SELL") (hqty : ∀ o ∈ orders, 0 < o.qty)
    (hone : ∀ o ∈ orders, ∀ o' ∈ orders, o'.side = o.side → o' = o)
    (hfit : ∀ o ∈ orders, |(q + signedQty o) * p| ≤ cap) :
    |(q + (orders.map signedQty).sum) * p| ≤ cap := by
  match orders, hne with
  | [o], _ => simpa using hfit o (by simp)
  | [o, o'], _ =>
    have hdiff : o'.side ≠ o.side := by
      intro heq
      have := hone o (by simp) o' (by simp) heq
      simp [this] at hnd
    have hmap : (([o, o'].map signedQty).sum : K) = signedQty o + signedQty o' := by simp
    rw [hmap]
    have hfo := hfit o (by simp)
    have hfo' := hfit o' (by simp)
    have hqo := (hqty o (by simp)).le
    have hqo' := (hqty o' (by simp)).le
    -- one of the two buys and the other sells
    rcases hside o (by simp) with ho | ho
    · rcases hside o' (by simp) with ho' | ho'
      · exact absurd (ho'.trans ho.symm) hdiff
      · rw [signedQty_buy ho] at hfo ⊢
        rw [signedQty_sell ho'] at hfo' ⊢
        have h := two_sided hqo hqo' hfo (by rwa [← sub_eq_add_neg] at hfo')
        rwa [sub_eq_add_neg, add_assoc] at h
    · rcases hside o' (by simp) with ho' | ho'
      · rw [signedQty_sell ho] at hfo ⊢
        rw [signedQty_buy ho'] at hfo' ⊢
        have h := two_sided hqo' hqo hfo' (by rwa [← sub_eq_add_neg] at hfo)
        rwa [sub_eq_add_neg, add_assoc, add_comm o'.qty] at h
      · exact absurd (ho'.trans ho.symm) hdiff
  | o :: o' :: o'' :: rest, _ =>
    -- three orders on two sides: two of them are one
    simp only [List.nodup_cons, List.mem_cons, not_or] at hnd
    have hpigeon : o'.side = o.side ∨ o''.side = o.side ∨ o''.side = o'.side := by
      rcases hside o (by simp) with ho | ho <;> rcases hside o' (by simp) with ho' | ho' <;>
        rcases hside o'' (by simp) with ho'' | ho'' <;> simp [ho, ho', ho'']
    rcases hpigeon with h | h | h
    · exact absurd (hone o (by simp) o' (by simp) h).symm hnd.1.1
    · exact absurd (hone o (by simp) o'' (by simp) h).symm hnd.1.2.1
    · exact absurd (hone o' (by simp) o'' (by simp) h).symm hnd.2.1.1

end Sets

section Fills

/-- The quantity of a fill, positive if it bought. -/
def signedFill (f : LimitFill K) : K := (if f.side = "BUY" then 1 else -1) * f.qty

/-- A fill changes the inventory by its signed quantity. -/
theorem inventory_creditFill (cfg : MMRebateConfig K) (m : MMRebate K) (slug : String)
    (f : LimitFill K) (clock : K) :
    (creditFill cfg m slug f clock).safety.inventory slug =
      m.safety.inventory slug + signedFill f := by
  unfold creditFill signedFill
  dsimp only
  rw [MMRebate.inventory_onFill, if_pos rfl]
  by_cases hbuy : f.side = "BUY"
  · simp [hbuy]
  · simp [hbuy, Side.value]

/-- The inventory that goes with a fill is the one before the tick and the first fills of it. -/
theorem inventory_of_filled (cfg : MMRebateConfig K) (slug : String) (clock : K)
    (m : MMRebate K) (fills : List (LimitFill K)) {f : LimitFill K} {inventory : K}
    (h : .filled f inventory ∈ (creditFills cfg slug clock m fills).2) :
    ∃ done, done ≠ [] ∧ done <+: fills ∧
      inventory = m.safety.inventory slug + (done.map signedFill).sum := by
  induction fills generalizing m with
  | nil => cases h
  | cons f' fills ih =>
    have hcredit := inventory_creditFill cfg m slug f' clock
    rw [creditFills, List.mem_cons] at h
    rcases h with heq | h
    · obtain ⟨rfl, rfl⟩ := MMEvent.filled.inj heq
      exact ⟨[f], by simp, by simp, by simpa using hcredit⟩
    · obtain ⟨done, -, htake, hinv⟩ := ih _ h
      refine ⟨f' :: done, by simp, (List.prefix_cons_inj f').mpr htake, ?_⟩
      rw [hinv, hcredit, List.map_cons, List.sum_cons, add_assoc]

end Fills

section Runs

variable (env : MMDriverEnv K) (g : GlobalMMState K) (k : KEstimator K) (paused : Bool)

/-- Every set of orders that rests after the dispatch of a tick keeps the inventory within the
cap at the mid of the tick, if the tick's guard would let the quotes pass that it left.
SOURCE: strategies/polymarket_btc15m/mm_rebate_v1.py:183-199, engine/mm_safety.py:85-101 -/
theorem resting_within_cap [IsStrictOrderedRing K] (ls : List (MMLabel K)) (d : TickDict K)
    (clock fillClock : K)
    (hpaused : ((mmMachine env g).final (MMPaperDriver.init k paused) ls).paused = false)
    (hfit : KeptFit env ((mmMachine env g).final (MMPaperDriver.init k paused) ls)
      (.tick d clock fillClock))
    (orders : List (LimitOrder K)) (hnd : orders.Nodup) (hne : orders ≠ [])
    (hrest : ∀ o ∈ orders, Rests (MMPaperDriver.quoted env g
      ((mmMachine env g).final (MMPaperDriver.init k paused) ls) (tickFromDict d) clock).limitBook
        d.marketSlug o) :
    |(((mmMachine env g).final (MMPaperDriver.init k paused) ls).strategy.safety.inventory
        d.marketSlug + (orders.map signedQty).sum) * (tickFromDict d).impliedProbYes| ≤
      env.cfg.safetyParams.inventoryCapUsdc := by
  set st := (mmMachine env g).final (MMPaperDriver.init k paused) ls with hst
  have htracked : Tracked env.cfg st := tracked_reachable env g k paused ls
  have hbid := bid_or_empty env g k paused ls (tickFromDict d) clock
  obtain ⟨hquoted, hempty⟩ := htracked.quoted (g := g) (tickFromDict d) clock fun _ => hbid
  have hcheck : ∀ o ∈ orders, o.check = none := by
    intro o ho
    rcases get?_dispatchAll (hrest o ho).1 with hbefore | hplaced
    · exact check_of_rests env g k paused ls o.coid o hbefore
    · obtain ⟨-, side, -, hcheck, -⟩ := placed_mem_sent hplaced
      exact hcheck
  apply sum_within_cap orders hnd hne
  · exact fun o ho => (pos_of_check (hcheck o ho)).2.2
  · exact fun o ho => (pos_of_check (hcheck o ho)).2.1
  · intro o ho o' ho' hsides
    exact hquoted.eq_of_side (hrest o ho) (hrest o' ho') hsides
  · intro o ho
    exact approved htracked hquoted hempty hpaused hfit (hrest o ho)

/-- **The inventory cap.** In every run in which each tick's guard would let the quotes pass that
the tick leaves resting, no set of the orders that rest at a tick, filled, takes the inventory
past the cap at the tick's mid; and after each fill the inventory is within it.
SOURCE: engine/mm_safety.py:85-111, strategies/polymarket_btc15m/mm_rebate_v1.py:183-287,
paper/mm_driver.py:98-122 -/
theorem inventory_within_cap [IsStrictOrderedRing K] (ls : List (MMLabel K))
    (hfit : (mmMachine env g).Along (KeptFit env) (MMPaperDriver.init k paused) ls)
    (pre : List (MMLabel K)) (d : TickDict K) (clock fillClock : K) (post : List (MMLabel K))
    (heq : ls = pre ++ .tick d clock fillClock :: post) :
    (((mmMachine env g).final (MMPaperDriver.init k paused) pre).paused = false →
      ∀ orders : List (LimitOrder K), orders.Nodup → orders ≠ [] →
        (∀ o ∈ orders, Rests (MMPaperDriver.quoted env g
          ((mmMachine env g).final (MMPaperDriver.init k paused) pre) (tickFromDict d)
            clock).limitBook d.marketSlug o) →
        |(((mmMachine env g).final (MMPaperDriver.init k paused) pre).strategy.safety.inventory
            d.marketSlug + (orders.map signedQty).sum) * (tickFromDict d).impliedProbYes| ≤
          env.cfg.safetyParams.inventoryCapUsdc) ∧
    ∀ inventory ∈ inventoriesOf ((mmMachine env g).emits
        ((mmMachine env g).final (MMPaperDriver.init k paused) pre) (.tick d clock fillClock)),
      |inventory * (tickFromDict d).impliedProbYes| ≤ env.cfg.safetyParams.inventoryCapUsdc := by
  have hhere := hfit pre _ post heq
  have hrest := fun hpaused => resting_within_cap env g k paused pre d clock fillClock hpaused hhere
  refine ⟨hrest, fun inventory hinventory => ?_⟩
  obtain ⟨f, hfilled⟩ := (mem_inventoriesOf_iff _ _).mp hinventory
  set st := (mmMachine env g).final (MMPaperDriver.init k paused) pre with hst
  set ctx := tickFromDict d with hctx
  set quoted := MMPaperDriver.quoted env g st ctx clock with hquoted
  have hmatch : .filled f inventory ∈ (quoted.matchTick env ctx fillClock).2 := by
    rcases mem_handleTick hfilled with h | h | h | ⟨error, h⟩ | h
    · obtain ⟨a, -, hevent⟩ := mem_dispatchAll h
      cases hevent
    · exact h
    · cases h
    · cases h
    · cases h
  have hpaused : st.paused = false := by
    rcases handleTick_cases env g st d clock fillClock with
      ⟨-, htick⟩ | ⟨hpaused, -⟩
    · have hskip : MMEvent.filled f inventory ∈ (st.handleTick env g d clock fillClock).2 := hfilled
      rw [htick, List.mem_singleton] at hskip
      cases hskip
    · exact hpaused
  -- the fills of a tick are the orders that crossed, first placed first
  obtain ⟨done, hne, htake, hinv⟩ : ∃ done, done ≠ [] ∧
      done <+: quoted.limitBook.hit (instrumentIdYes ctx.marketSlug) ctx.impliedProbYes ctx.ts ∧
      inventory = st.strategy.safety.inventory d.marketSlug + (done.map signedQty).sum := by
    have hmatched : TickContext.Matched ctx := by
      by_contra hno
      rw [MMPaperDriver.matchTick, if_neg hno] at hmatch
      cases hmatch
    rw [quoted.matchTick_of_matched env ctx fillClock hmatched, List.mem_append,
      List.mem_map] at hmatch
    rcases hmatch with ⟨o, -, heq⟩ | hmatch
    · cases heq
    obtain ⟨fills, hne, htake, hinv⟩ := inventory_of_filled _ _ _ _ _ hmatch
    rw [LimitBook.onTick, List.prefix_iff_eq_take, ← List.map_take] at htake
    obtain ⟨n, hfills⟩ : ∃ n, fills = ((quoted.limitBook.hit (instrumentIdYes ctx.marketSlug)
        ctx.impliedProbYes ctx.ts).take n).map fun o => o.fill env.makerFeeBps ctx.ts :=
      ⟨_, htake⟩
    refine ⟨_, ?_, List.take_prefix n _, ?_⟩
    · intro hnil
      rw [hnil] at hfills
      exact hne hfills
    · rw [hinv, hfills, List.map_map, hquoted, inventory_quoted]
      rfl
  rw [hinv]
  apply hrest hpaused done
  · have hhit : (quoted.limitBook.hit (instrumentIdYes ctx.marketSlug) ctx.impliedProbYes
        ctx.ts).Nodup :=
      ((quoted.limitBook.nodup_fifo _).of_map _).filter _
    exact hhit.sublist htake.sublist
  · exact hne
  · intro o ho
    obtain ⟨hget, hinst, -⟩ := (quoted.limitBook.mem_hit_iff _ _ _ o).mp (htake.subset ho)
    exact ⟨hget, hinst⟩

end Runs

section Instance

/-- The inventory of the run is within the cap. -/
theorem inventory_within_cap_soldRun :
    (mmMachine (soldEnv 75) (GlobalMMState.init 3500 350)).Along (KeptFit (soldEnv 75))
        (MMPaperDriver.init ⟨Dict.empty⟩ false) soldRun ∧
      ∀ inventory ∈ inventoriesOf ((mmMachine (soldEnv 75) (GlobalMMState.init 3500 350)).emits
          ((mmMachine (soldEnv 75) (GlobalMMState.init 3500 350)).final
            (MMPaperDriver.init ⟨Dict.empty⟩ false) (soldRun.take 1))
          (.tick (btcTick 1784 884 (289 / 1378)) 1784 1784)),
        |inventory * (289 / 1378)| ≤ 75 := by
  have hfit : (mmMachine (soldEnv 75) (GlobalMMState.init 3500 350)).Along (KeptFit (soldEnv 75))
      (MMPaperDriver.init ⟨Dict.empty⟩ false) soldRun := by
    simp only [soldRun, Machine.Along, Obeys.cons_iff]
    refine ⟨?_, ?_, Obeys.nil⟩ <;> decide +kernel
  refine ⟨hfit, ?_⟩
  exact (inventory_within_cap (soldEnv 75) (GlobalMMState.init 3500 350) ⟨Dict.empty⟩ false
    soldRun hfit (soldRun.take 1) (btcTick 1784 884 (289 / 1378)) 1784 1784 [] rfl).2

/-- With a cap of 31 the guard lets the second tick pass, since the quantity it computes is
worth less; but the ask that it leaves is the larger one of the first tick, and is filled. -/
theorem sold_past_cap :
    ¬∀ (env : MMDriverEnv ℚ) (g : GlobalMMState ℚ) (k : KEstimator ℚ) (paused : Bool)
      (ls : List (MMLabel ℚ)) (d : TickDict ℚ) (clock fillClock : ℚ),
      |((mmMachine env g).final (MMPaperDriver.init k paused) ls).strategy.safety.inventory
          d.marketSlug * (tickFromDict d).impliedProbYes| ≤
        env.cfg.safetyParams.inventoryCapUsdc →
      ∀ inventory ∈ inventoriesOf ((mmMachine env g).emits
          ((mmMachine env g).final (MMPaperDriver.init k paused) ls) (.tick d clock fillClock)),
        |inventory * (tickFromDict d).impliedProbYes| ≤
          env.cfg.safetyParams.inventoryCapUsdc := by
  intro h
  exact absurd (h (soldEnv 31) (GlobalMMState.init 3500 350) ⟨Dict.empty⟩ false
    (soldRun.take 1) (btcTick 1784 884 (289 / 1378)) 1784 1784 (by decide +kernel))
    (by decide +kernel)

end Instance

end TradingEdge.Analysis
