import Mathlib.Data.Finset.Dedup
import TradingEdge.Analysis.QuoteLedger

/-!
# When the ledger of the market maker is its book

`Analysis.QuoteLedger` has that what rests is in the ledger.  The converse, that every quote of
the ledger rests, is what the strategy acts on when it leaves a quote alone, and it holds as
long as each action that the strategy emits takes effect and nothing leaves the book without
its knowledge: `InStep` is that condition on the state before a tick.

The proof follows a tick: a move whose post is taken leaves the ledger of its side backed by
the book (`backed_dispatch`), first for the bid and then for the ask, and the match takes a
quote out of both or neither, unless a quote expires that the tick has left.
-/

set_option autoImplicit false

namespace TradingEdge.Analysis

open TradingEdge.Library TradingEdge.Model TradingEdge.Program

/-- The quote a move takes out of the ledger. -/
def SideMove.dropped {K : Type} (move : SideMove K) : Option (LiveQuote K) :=
  match move with
  | .stay _ => none
  | .give old => some old
  | .post => none
  | .replace old => some old

variable {K : Type} [Field K] [LinearOrder K]

/-- The ids that the strategy believes to rest for a market. -/
def ledgerIds (st : MMPaperDriver K) (slug : String) : Finset String :=
  ((st.strategy.live slug).map (·.clientOrderId)).toFinset

/-- The ids that rest for the market's instrument. -/
def restingIds (st : MMPaperDriver K) (slug : String) : Finset String :=
  ((st.limitBook.snapshot.filter fun o => o.instrumentId = instrumentIdYes slug).map
    (·.coid)).toFinset

/-- What a move posts is taken: the order is one that the book accepts, a fresh post is within
the shared caps, and the id is free once the replaced order is out. -/
def Taken (env : MMEnv K) (g : GlobalMMState K) (ctx : TickContext K) (b : LimitBook K)
    (move : SideMove K) (new : PostQuote K) : Prop :=
  match move with
  | .stay _ => True
  | .give _ => True
  | .post =>
    (env.limitOrder ctx new).check = none ∧
      g.blockPostQuote env.cfg.name (new.qtyShares * new.price) (new.qtyShares * new.price) =
        none ∧
      b.get? (env.limitOrder ctx new).coid = none
  | .replace old =>
    (env.limitOrder ctx new).check = none ∧
      ((env.limitOrder ctx new).coid = old.clientOrderId ∨
        b.get? (env.limitOrder ctx new).coid = none)

instance (env : MMEnv K) (g : GlobalMMState K) (ctx : TickContext K) (b : LimitBook K)
    (move : SideMove K) (new : PostQuote K) : Decidable (Taken env g ctx b move new) :=
  match move with
  | .stay _ => isTrue trivial
  | .give _ => isTrue trivial
  | .post => inferInstanceAs (Decidable (_ ∧ _ ∧ _))
  | .replace _ => inferInstanceAs (Decidable (_ ∧ (_ ∨ _)))

instance (move : SideMove K) : Decidable (Posts move) :=
  match move with
  | .stay _ => isFalse fun h => by rcases h with h | ⟨old, h⟩ <;> cases h
  | .give _ => isFalse fun h => by rcases h with h | ⟨old, h⟩ <;> cases h
  | .post => isTrue (Or.inl rfl)
  | .replace old => isTrue (Or.inr ⟨old, rfl⟩)

/-- The order rests for the market and is the quote. -/
structure Backs (b : LimitBook K) (slug : String) (q : LiveQuote K) (o : LimitOrder K) :
    Prop where
  rests : Rests b slug o
  isOrder : IsOrderOf q o

omit [Field K] [LinearOrder K] in
/-- The order of a quote stands in the book under its id. -/
theorem Backs.get?_eq {b : LimitBook K} {slug : String} {q : LiveQuote K} {o : LimitOrder K}
    (h : Backs b slug q o) : b.get? q.clientOrderId = some o :=
  h.isOrder.coid ▸ h.rests.1

omit [Field K] [LinearOrder K] in
/-- A quote has one order. -/
theorem Backs.eq {b : LimitBook K} {slug slug' : String} {q : LiveQuote K}
    {o o' : LimitOrder K} (h : Backs b slug q o) (h' : Backs b slug' q o') : o = o' :=
  Option.some.inj (h.get?_eq.symm.trans h'.get?_eq)

section Move

variable {env : MMEnv K} {g : GlobalMMState K} {ctx : TickContext K} {b : LimitBook K}
  {move : SideMove K} {new : PostQuote K}

omit [Field K] [LinearOrder K] in
/-- A quote of the ledger after a move is the one it posted, or was there and is not the one
it took out. -/
theorem mem_ledger_cases {tracked q : LiveQuote K} {live : List (LiveQuote K)}
    (h : q ∈ move.ledger tracked live) :
    (Posts move ∧ q = tracked) ∨
      (q ∈ live ∧ ∀ old ∈ SideMove.dropped move, q.clientOrderId ≠ old.clientOrderId) := by
  cases move with
  | stay kept => exact Or.inr ⟨h, fun old hold => by cases hold⟩
  | give old =>
    obtain ⟨hmem, hne⟩ := List.mem_filter.mp h
    refine Or.inr ⟨hmem, fun old' hold => ?_⟩
    obtain rfl := Option.some.inj hold
    simpa using hne
  | post =>
    rcases List.mem_append.mp h with hmem | hmem
    · exact Or.inr ⟨hmem, fun old hold => by cases hold⟩
    · exact Or.inl ⟨Or.inl rfl, List.mem_singleton.mp hmem⟩
  | replace old =>
    rcases List.mem_append.mp h with hmem | hmem
    · obtain ⟨hmem, hne⟩ := List.mem_filter.mp hmem
      refine Or.inr ⟨hmem, fun old' hold => ?_⟩
      obtain rfl := Option.some.inj hold
      simpa using hne
    · exact Or.inl ⟨Or.inr ⟨old, rfl⟩, List.mem_singleton.mp hmem⟩

/-- A move whose post is taken raises nothing, puts its order under the order's id, takes the
dropped quote's order out, and leaves the rest of the book.
SOURCE: paper/mm_driver.py:137-197 -/
theorem dispatch_of_taken (htaken : Taken env g ctx b move new)
    (hheld : ∀ old ∈ SideMove.dropped move, (b.get? old.clientOrderId).isSome) :
    (dispatchAll env g ctx b (move.actions ctx.marketSlug new)).raised = none ∧
      (Posts move → (dispatchAll env g ctx b (move.actions ctx.marketSlug new)).book.get?
        (env.limitOrder ctx new).coid = some (env.limitOrder ctx new)) ∧
      ∀ k, (Posts move → k ≠ (env.limitOrder ctx new).coid) →
        (∀ old ∈ SideMove.dropped move, k ≠ old.clientOrderId) →
        (dispatchAll env g ctx b (move.actions ctx.marketSlug new)).book.get? k = b.get? k := by
  have hnot : ∀ kept : Option (LiveQuote K), ¬Posts (.stay kept) := by
    rintro kept (h | ⟨old, h⟩) <;> cases h
  have hnot' : ∀ old : LiveQuote K, ¬Posts (.give old) := by
    rintro old (h | ⟨old', h⟩) <;> cases h
  cases move with
  | stay kept => exact ⟨rfl, fun h => absurd h (hnot kept), fun k _ _ => rfl⟩
  | give old =>
    refine ⟨rfl, fun h => absurd h (hnot' old), fun k _ hk => ?_⟩
    have hne := hk old rfl
    change (b.pop old.clientOrderId).get? k = b.get? k
    rw [LimitBook.get?_pop, if_neg hne]
  | post =>
    obtain ⟨hcheck, hcap, hfree⟩ := htaken
    obtain ⟨hraised, hget⟩ := placeOrder_of_free hcheck hfree
    have hsent : dispatchAction env g ctx b (.post new) =
        placeOrder b (env.limitOrder ctx new) := by
      simp only [dispatchAction, hcap]
    simp only [SideMove.actions, dispatchAll, hsent, hraised]
    refine ⟨trivial, fun _ => ?_, fun k hk _ => ?_⟩
    · rw [hget, if_pos rfl]
    · rw [hget, if_neg (hk (Or.inl rfl))]
  | replace old =>
    obtain ⟨hcheck, hid⟩ := htaken
    have hfree : (b.pop old.clientOrderId).get? (env.limitOrder ctx new).coid = none := by
      rw [LimitBook.get?_pop]
      rcases hid with hid | hid
      · rw [if_pos hid]
      · rw [hid, ite_self]
    obtain ⟨hraised, hget⟩ := placeOrder_of_free hcheck hfree
    obtain ⟨o, ho⟩ := Option.isSome_iff_exists.mp (hheld old rfl)
    have hsent : dispatchAction env g ctx b (.replace old.clientOrderId new) =
        { placeOrder (b.pop old.clientOrderId) (env.limitOrder ctx new) with
          events := .cancelled o ::
            (placeOrder (b.pop old.clientOrderId) (env.limitOrder ctx new)).events } := by
      simp only [dispatchAction, LimitBook.cancel, ho]
    simp only [SideMove.actions, dispatchAll, hsent, hraised]
    refine ⟨trivial, fun _ => ?_, fun k hk hne => ?_⟩
    · rw [hget, if_pos rfl]
    · rw [hget, if_neg (hk (Or.inr ⟨old, rfl⟩)), LimitBook.get?_pop, if_neg (hne old rfl)]

omit [Field K] [LinearOrder K] in
/-- A quote of the side of a move that the move does not take out is the one it keeps. -/
theorem kept_of_side {live : List (LiveQuote K)} {side : Side} {q : LiveQuote K}
    (hone : OnePerSide live) (hfound : move.found = live.find? fun q => q.side = side)
    (hq : q ∈ live) (hside : q.side = side)
    (hdropped : ∀ old ∈ SideMove.dropped move, q.clientOrderId ≠ old.clientOrderId) :
    move.kept = some q := by
  have hthere : move.found = some q := by
    rw [hfound]
    cases hfind : live.find? fun q' => q'.side = side with
    | none =>
      have hno := List.find?_eq_none.mp hfind q hq
      simp [hside] at hno
    | some q' =>
      have hq'side : q'.side = side := by simpa using List.find?_some hfind
      rw [hone.eq_of_side (List.mem_of_find?_eq_some hfind) hq (hq'side.trans hside.symm)]
  cases move with
  | stay kept => exact hthere
  | give old =>
    obtain rfl := Option.some.inj hthere
    exact absurd rfl (hdropped old rfl)
  | post => cases hthere
  | replace old =>
    obtain rfl := Option.some.inj hthere
    exact absurd rfl (hdropped old rfl)

omit [Field K] [LinearOrder K] in
/-- A move takes out only the quote it found. -/
theorem found_of_dropped {old : LiveQuote K} (h : old ∈ SideMove.dropped move) :
    move.found = some old := by
  cases move with
  | stay kept => cases h
  | give old' => exact h
  | post => cases h
  | replace old' => exact h

/-- The id of a post that is taken is free, or the one of the quote that makes room. -/
theorem free_of_taken (htaken : Taken env g ctx b move new) (hposts : Posts move)
    (hne : ∀ old ∈ SideMove.dropped move, (env.limitOrder ctx new).coid ≠ old.clientOrderId) :
    b.get? (env.limitOrder ctx new).coid = none := by
  rcases hposts with rfl | ⟨old, rfl⟩
  · exact htaken.2.2
  · exact htaken.2.resolve_left (hne old rfl)

/-- Whether a post is taken depends on the book through its own id only. -/
theorem Taken.of_get? {b' : LimitBook K} (h : Taken env g ctx b move new)
    (hfree : Posts move → b.get? (env.limitOrder ctx new).coid = none →
      b'.get? (env.limitOrder ctx new).coid = none) : Taken env g ctx b' move new := by
  cases move with
  | stay kept => trivial
  | give old => trivial
  | post => exact ⟨h.1, h.2.1, hfree (Or.inl rfl) h.2.2⟩
  | replace old => exact ⟨h.1, h.2.imp_right (hfree (Or.inr ⟨old, rfl⟩))⟩

/-- A move whose post is taken leaves every quote backed: the one it posts by the new order, and
any other by the order it had.
SOURCE: strategies/polymarket_btc15m/mm_rebate_v1.py:249-287, paper/mm_driver.py:137-197 -/
theorem backed_dispatch {lives : String → List (LiveQuote K)} {side : Side}
    {price qtyShares : K} (hback : ∀ slug, ∀ q ∈ lives slug, ∃ o, Backs b slug q o)
    (hone : OnePerSide (lives ctx.marketSlug))
    (hfound : move.found = (lives ctx.marketSlug).find? fun q => q.side = side)
    (hnew : new = env.cfg.newQuote ctx.marketSlug side price qtyShares)
    (htaken : Taken env g ctx b move new) (slug : String) (q : LiveQuote K)
    (hq : q ∈ if slug = ctx.marketSlug then
      move.ledger (env.liveQuote ctx.marketSlug ctx.ts side price qtyShares)
        (lives ctx.marketSlug) else lives slug) :
    ∃ o, Backs (dispatchAll env g ctx b (move.actions ctx.marketSlug new)).book slug q o ∧
      (o = env.limitOrder ctx new ∨ (q ∈ lives slug ∧ Backs b slug q o ∧
        (slug = ctx.marketSlug → q.side = side → move.kept = some q))) := by
  have hdropped : ∀ old ∈ SideMove.dropped move, ∃ o, Backs b ctx.marketSlug old o := by
    intro old hold
    have hmem := hfound.symm.trans (found_of_dropped hold)
    exact hback ctx.marketSlug old (List.mem_of_find?_eq_some hmem)
  have hheld : ∀ old ∈ SideMove.dropped move, (b.get? old.clientOrderId).isSome := by
    intro old hold
    obtain ⟨o, ho⟩ := hdropped old hold
    rw [ho.get?_eq]
    rfl
  obtain ⟨-, hposted, hsame⟩ := dispatch_of_taken htaken hheld
  -- a quote that is not taken out keeps its order
  have hkeep : q ∈ lives slug →
      (∀ old ∈ SideMove.dropped move, q.clientOrderId ≠ old.clientOrderId) →
      ∃ o, Backs (dispatchAll env g ctx b (move.actions ctx.marketSlug new)).book slug q o ∧
        Backs b slug q o := by
    intro hmem hne
    obtain ⟨o, ho⟩ := hback slug q hmem
    have hcoid : o.coid = q.clientOrderId := ho.isOrder.coid
    refine ⟨o, ⟨⟨?_, ho.rests.2⟩, ho.isOrder⟩, ho⟩
    rw [hsame o.coid, ho.rests.1]
    · intro hposts heq
      have hfree := free_of_taken htaken hposts fun old hold => heq ▸ hcoid ▸ hne old hold
      rw [← heq, ho.rests.1] at hfree
      cases hfree
    · intro old hold
      rw [hcoid]
      exact hne old hold
  by_cases hslug : slug = ctx.marketSlug
  · subst hslug
    rw [if_pos rfl] at hq
    rcases mem_ledger_cases hq with ⟨hposts, rfl⟩ | ⟨hmem, hne⟩
    · refine ⟨env.limitOrder ctx new, ⟨⟨hposted hposts, rfl⟩, ?_⟩, Or.inl rfl⟩
      rw [hnew]
      exact limitOrder_isOrderOf env ctx side price qtyShares
    · obtain ⟨o, ho, hbefore⟩ := hkeep hmem hne
      refine ⟨o, ho, Or.inr ⟨hmem, hbefore, fun _ hside => ?_⟩⟩
      exact kept_of_side hone hfound hmem hside hne
  · rw [if_neg hslug] at hq
    have hne : ∀ old ∈ SideMove.dropped move, q.clientOrderId ≠ old.clientOrderId := by
      intro old hold heq
      obtain ⟨o, ho⟩ := hback slug q hq
      obtain ⟨o', ho'⟩ := hdropped old hold
      have hsame : o = o' := Option.some.inj (ho.get?_eq.symm.trans (heq ▸ ho'.get?_eq))
      apply hslug
      exact instrumentIdYes_inj (ho.rests.2.symm.trans (hsame ▸ ho'.rests.2))
    obtain ⟨o, ho, hbefore⟩ := hkeep hq hne
    exact ⟨o, ho, Or.inr ⟨hq, hbefore, fun h => absurd h hslug⟩⟩

end Move

section Tick

variable {env : MMDriverEnv K} {g : GlobalMMState K} {st : MMPaperDriver K}

/-- Every quote of the ledger rests. -/
def Backed (st : MMPaperDriver K) : Prop :=
  ∀ slug, ∀ q ∈ st.strategy.live slug, ∃ o, Backs st.limitBook slug q o

/-- What the strategy's ledger takes for granted of a tick that quotes: both sides' posts are
taken, with different ids, and no quote that the tick leaves expires at it.  A condition on the
state before the tick. -/
def InStep (env : MMDriverEnv K) (g : GlobalMMState K) (st : MMPaperDriver K) (l : MMLabel K) :
    Prop :=
  match l with
  | .control _ => True
  | .tick d clock _ =>
    let ctx := tickFromDict d
    let bid := st.strategy.bidMove env.toMMEnv ctx
    let ask := st.strategy.askMove env.toMMEnv ctx
    let newBid := st.strategy.newQuote env.toMMEnv ctx .yesUp
    let newAsk := st.strategy.newQuote env.toMMEnv ctx .yesDown
    st.paused = false → st.strategy.Quotes env.toMMEnv ctx clock →
    Taken env.toMMEnv g ctx st.limitBook bid newBid ∧
    Taken env.toMMEnv g ctx st.limitBook ask newAsk ∧
    (Posts bid → Posts ask →
      coidForPost env.toMMEnv ctx.marketSlug ctx.ts newAsk ≠
        coidForPost env.toMMEnv ctx.marketSlug ctx.ts newBid) ∧
    (TickContext.Matched ctx →
      (∀ q ∈ bid.kept, ∀ o ∈ st.limitBook.get? q.clientOrderId, ¬o.ExpiredAt ctx.ts) ∧
      ∀ q ∈ ask.kept, ∀ o ∈ st.limitBook.get? q.clientOrderId, ¬o.ExpiredAt ctx.ts)

instance (env : MMDriverEnv K) (g : GlobalMMState K) (st : MMPaperDriver K) (l : MMLabel K) :
    Decidable (InStep env g st l) :=
  match l with
  | .control _ => isTrue trivial
  | .tick _ _ _ => inferInstanceAs (Decidable (_ → _ → _ ∧ _ ∧ (_ → _ → _ ≠ _) ∧ (_ → _ ∧ _)))

/-- A new order does not expire at the tick that places it. -/
theorem not_expiredAt_limitOrder [IsStrictOrderedRing K] (ctx : TickContext K)
    (new : PostQuote K) : ¬(env.toMMEnv.limitOrder ctx new).ExpiredAt ctx.ts := by
  rintro ⟨ttl, hmem, hle⟩
  change ttl ∈ (if 0 < new.ttlSeconds then some (new.ttlSeconds : K) else none) at hmem
  change ctx.ts + ttl ≤ ctx.ts at hle
  split at hmem
  · rename_i hpos
    obtain rfl := Option.some.inj hmem
    have hcast : (0 : K) < new.ttlSeconds := Int.cast_pos.mpr hpos
    linarith
  · cases hmem

/-- A tick that quotes keeps the ledger backed up to its match, and none of the market's orders
expires in the match.
SOURCE: paper/mm_driver.py:94-96 -/
theorem Backed.quoted [IsStrictOrderedRing K] (h : Backed st) (htracked : Tracked env.cfg st)
    {d : TickDict K} {clock fillClock : K} (hpaused : st.paused = false)
    (hstep : InStep env g st (.tick d clock fillClock))
    (hquotes : st.strategy.Quotes env.toMMEnv (tickFromDict d) clock) :
    Backed (MMPaperDriver.quoted env g st (tickFromDict d) clock) ∧
      (TickContext.Matched (tickFromDict d) →
        ∀ q ∈ (MMPaperDriver.quoted env g st (tickFromDict d) clock).strategy.live d.marketSlug,
        ∀ o, Backs (MMPaperDriver.quoted env g st (tickFromDict d) clock).limitBook d.marketSlug
          q o → ¬o.ExpiredAt d.ts) := by
  set ctx := tickFromDict d with hctx
  obtain ⟨hbidTaken, haskTaken, hids, hkept⟩ := hstep hpaused hquotes
  have hspec := st.strategy.onTick_of_quotes env.toMMEnv ctx clock hquotes
  set bid := st.strategy.bidMove env.toMMEnv ctx
  set ask := st.strategy.askMove env.toMMEnv ctx
  set newBid := st.strategy.newQuote env.toMMEnv ctx .yesUp
  set newAsk := st.strategy.newQuote env.toMMEnv ctx .yesDown
  set b := (MMPaperDriver.bidSent env g st ctx).book with hb
  -- the ledgers with the bid dealt with
  set lives : String → List (LiveQuote K) := fun slug =>
    if slug = ctx.marketSlug then st.strategy.bidLedger env.toMMEnv ctx
    else st.strategy.live slug with hlives
  have hfoundBid : bid.found = (st.strategy.live ctx.marketSlug).find? fun q => q.side = .yesUp :=
    sideMove_found _ _ _ _ _ _ _ _
  have hbid := fun slug q hq => backed_dispatch (g := g) h (htracked.onePerSide ctx.marketSlug)
    hfoundBid rfl hbidTaken slug q hq
  have hheldBid : ∀ old ∈ SideMove.dropped bid, (st.limitBook.get? old.clientOrderId).isSome := by
    intro old hold
    have hmem := hfoundBid.symm.trans (found_of_dropped hold)
    obtain ⟨o, ho⟩ := h ctx.marketSlug old (List.mem_of_find?_eq_some hmem)
    rw [ho.get?_eq]
    rfl
  obtain ⟨hraised, -, hsame⟩ := dispatch_of_taken hbidTaken hheldBid
  -- the ask meets what it would have met before the bid
  have haskTaken' : Taken env.toMMEnv g ctx b ask newAsk := by
    apply haskTaken.of_get?
    intro hposts hfree
    rw [← hfree]
    apply hsame
    · exact fun hbidPosts => hids hbidPosts hposts
    · intro old hold heq
      have hsome := hheldBid old hold
      rw [← heq, hfree] at hsome
      cases hsome
  have hback : ∀ slug, ∀ q ∈ lives slug, ∃ o, Backs b slug q o := by
    intro slug q hq
    obtain ⟨o, ho, -⟩ := hbid slug q hq
    exact ⟨o, ho⟩
  have hlivesMarket : lives ctx.marketSlug = st.strategy.bidLedger env.toMMEnv ctx := if_pos rfl
  have hone : OnePerSide (lives ctx.marketSlug) := by
    rw [hlivesMarket]
    exact (htracked.onePerSide ctx.marketSlug).ledger (fun hside => by cases hside) hfoundBid
  have hfoundAsk : ask.found = (lives ctx.marketSlug).find? fun q => q.side = .yesDown := by
    rw [hlivesMarket]
    exact sideMove_found _ _ _ _ _ _ _ _
  have hask := fun slug q hq => backed_dispatch (g := g) hback hone hfoundAsk rfl haskTaken' slug
    q hq
  have hbook : (MMPaperDriver.quoted env g st ctx clock).limitBook =
      (dispatchAll env.toMMEnv g ctx b (ask.actions ctx.marketSlug newAsk)).book := by
    unfold MMPaperDriver.quoted MMPaperDriver.sent
    rw [(hspec ctx.marketSlug).1, dispatchAll_append env.toMMEnv g ctx _ _ _ hraised]
    rfl
  have hlive : ∀ slug, (MMPaperDriver.quoted env g st ctx clock).strategy.live slug =
      if slug = ctx.marketSlug then
        ask.ledger (st.strategy.newLive env.toMMEnv ctx .yesDown) (lives ctx.marketSlug)
      else lives slug := by
    intro slug
    rw [hlivesMarket]
    refine (hspec slug).2.1.trans ?_
    by_cases hslug : slug = ctx.marketSlug
    · rw [if_pos hslug, if_pos hslug]
    · rw [if_neg hslug, if_neg hslug, hlives]
      exact (if_neg hslug).symm
  refine ⟨fun slug q hq => ?_, fun hmatched q hq o ho => ?_⟩
  · rw [hlive] at hq
    obtain ⟨o, ho, -⟩ := hask slug q hq
    rw [hbook]
    exact ⟨o, ho⟩
  · rw [hlive] at hq
    rw [hbook] at ho
    obtain ⟨o', ho', hcase⟩ := hask ctx.marketSlug q hq
    obtain rfl := ho'.eq ho
    rcases hcase with heq | ⟨hmem, hbefore, haskKept⟩
    · rw [heq]
      exact not_expiredAt_limitOrder ctx newAsk
    · obtain ⟨o', ho', hcase⟩ := hbid ctx.marketSlug q hmem
      obtain rfl := ho'.eq hbefore
      rcases hcase with heq | ⟨-, hbefore, hbidKept⟩
      · rw [heq]
        exact not_expiredAt_limitOrder ctx newBid
      · obtain ⟨hbidKept', haskKept'⟩ := hkept hmatched
        cases hside : q.side with
        | none => exact absurd hside (hone.sided q hmem)
        | yesUp => exact hbidKept' q (hbidKept rfl hside) _ hbefore.get?_eq
        | yesDown => exact haskKept' q (haskKept rfl hside) _ hbefore.get?_eq

/-- The match takes a quote out of the ledger and the book, or leaves it in both, if none of the
market's orders expires.
SOURCE: paper/mm_driver.py:98-119, paper/limit_book_sim.py:202-245 -/
theorem Backed.matchTick (h : Backed st) (ctx : TickContext K) (clock : K)
    (hfresh : TickContext.Matched ctx → ∀ q ∈ st.strategy.live ctx.marketSlug, ∀ o,
      Backs st.limitBook ctx.marketSlug q o → ¬o.ExpiredAt ctx.ts) :
    Backed (st.matchTick env ctx clock).1 := by
  by_cases hmatched : TickContext.Matched ctx
  · rw [st.matchTick_of_matched env ctx clock hmatched]
    set inst := instrumentIdYes ctx.marketSlug with hinst
    set fills := (st.limitBook.onTick env.makerFeeBps inst ctx.impliedProbYes ctx.ts).2 with hfills
    have hlive := live_creditFills env.cfg st.strategy ctx.marketSlug clock fills
    intro slug q hq
    change q ∈ (creditFills env.cfg ctx.marketSlug clock st.strategy fills).1.live slug at hq
    rw [hlive] at hq
    have hmem : q ∈ st.strategy.live slug := by
      split at hq
      · rename_i hslug
        exact hslug ▸ List.mem_of_mem_filter hq
      · exact hq
    obtain ⟨o, ho⟩ := h slug q hmem
    refine ⟨o, ⟨?_, ho.rests.2⟩, ho.isOrder⟩
    change (st.limitBook.onTick env.makerFeeBps inst ctx.impliedProbYes ctx.ts).1.get? o.coid = _
    rw [LimitBook.get?_onTick, ho.rests.1, Option.filter_some, if_pos]
    rw [decide_eq_true_eq]
    rintro ⟨hmarket, hgone⟩
    have hslug : slug = ctx.marketSlug := instrumentIdYes_inj (ho.rests.2.symm.trans hmarket)
    subst hslug
    have hexpired := hfresh hmatched q hmem o ho
    have hhit : o ∈ st.limitBook.hit inst ctx.impliedProbYes ctx.ts :=
      (st.limitBook.mem_hit_iff _ _ _ o).mpr
        ⟨ho.rests.1, hmarket, hexpired, hgone.resolve_left hexpired⟩
    rw [if_pos rfl] at hq
    have hno := of_decide_eq_true (List.mem_filter.mp hq).2
    apply hno
    rw [hfills, LimitBook.onTick, List.map_map, List.mem_map]
    exact ⟨o, hhit, ho.isOrder.coid⟩
  · rw [MMPaperDriver.matchTick, if_neg hmatched]
    exact h

/-- A tick at which the strategy does not quote takes the market's quotes out of both.
SOURCE: strategies/polymarket_btc15m/mm_rebate_v1.py:157-199, 235-247 -/
theorem Backed.given_up (h : Backed st) (ctx : TickContext K) (clock : K)
    (hquotes : ¬st.strategy.Quotes env.toMMEnv ctx clock) :
    Backed (MMPaperDriver.quoted env g st ctx clock) := by
  by_cases hignored : env.cfg.Ignores ctx.marketSlug
  · rw [quoted_of_ignores hignored]
    exact h
  · obtain ⟨hlive, hbook⟩ := quoted_of_not_quotes (g := g) hignored hquotes
    intro slug q hq
    rw [hlive] at hq
    split at hq
    · cases hq
    · rename_i hslug
      obtain ⟨o, ho⟩ := h slug q hq
      refine ⟨o, ⟨?_, ho.rests.2⟩, ho.isOrder⟩
      rw [hbook, if_neg, ho.rests.1]
      -- a cancelled order is one of the tick's market
      intro hmem
      obtain ⟨q', hq', hcoid⟩ := List.mem_map.mp hmem
      obtain ⟨o', ho'⟩ := h ctx.marketSlug q' hq'
      have heq : o' = o := by
        have hget := ho'.get?_eq
        rw [hcoid, ho.rests.1] at hget
        exact (Option.some.inj hget).symm
      apply hslug
      exact instrumentIdYes_inj (ho.rests.2.symm.trans (heq ▸ ho'.rests.2))

/-- A message keeps the ledger backed if its tick is in step.
SOURCE: paper/mm_driver.py:67-135 -/
theorem Backed.next [IsStrictOrderedRing K] (h : Backed st) (htracked : Tracked env.cfg st)
    (l : MMLabel K) (hstep : InStep env g st l) : Backed ((mmMachine env g).next st l) := by
  cases l with
  | control msg =>
    change Backed (st.handleControlMessage msg)
    cases msg <;> exact h
  | tick d clock fillClock =>
    change Backed (st.handleTick env g d clock fillClock).1
    have hquoted : st.paused = false →
        Backed (MMPaperDriver.quoted env g st (tickFromDict d) clock) := by
      intro hpaused
      by_cases hquotes : st.strategy.Quotes env.toMMEnv (tickFromDict d) clock
      · exact (h.quoted htracked hpaused hstep hquotes).1
      · exact h.given_up (tickFromDict d) clock hquotes
    rcases handleTick_cases env g st d clock fillClock with
      ⟨-, htick⟩ | ⟨hpaused, ⟨e, -, htick⟩ | ⟨-, htick⟩⟩
    · rw [htick]
      exact h
    · rw [htick]
      exact hquoted hpaused
    · rw [htick]
      apply (hquoted hpaused).matchTick (tickFromDict d) fillClock
      by_cases hquotes : st.strategy.Quotes env.toMMEnv (tickFromDict d) clock
      · exact (h.quoted htracked hpaused hstep hquotes).2
      · -- nothing of the market is left
        intro hmatched q hq o ho
        have hempty := (htracked.quoted (g := g) (tickFromDict d) clock
          fun hyes => absurd hyes hquotes).2 hquotes
        rw [hempty] at hq
        cases hq

end Tick

section Runs

variable [IsStrictOrderedRing K] (env : MMDriverEnv K) (g : GlobalMMState K) (k : KEstimator K)
  (paused : Bool)

/-- A run in step keeps the ledger backed throughout. -/
theorem backed_final (ls : List (MMLabel K))
    (hstep : (mmMachine env g).Along (InStep env g) (MMPaperDriver.init k paused) ls) :
    Backed ((mmMachine env g).final (MMPaperDriver.init k paused) ls) := by
  induction ls using List.reverseRecOn with
  | nil =>
    intro slug q hq
    cases hq
  | append_singleton ls l ih =>
    obtain ⟨hls, hl⟩ := (Obeys.concat_iff ls l).mp hstep
    rw [Machine.final_concat]
    exact (ih hls).next (tracked_reachable env g k paused ls) l hl

/-- **The ledger is the book.** In every run in which each tick that quotes is in step, the
strategy believes exactly the orders of a market to rest that rest, after every message and for
every market.
SOURCE: strategies/polymarket_btc15m/mm_rebate_v1.py:249-320, paper/limit_book_sim.py:202-259 -/
theorem ledger_is_book (ls : List (MMLabel K))
    (hstep : (mmMachine env g).Along (InStep env g) (MMPaperDriver.init k paused) ls)
    (pre : List (MMLabel K)) (hpre : pre <+: ls) (slug : String) :
    ledgerIds ((mmMachine env g).final (MMPaperDriver.init k paused) pre) slug =
      restingIds ((mmMachine env g).final (MMPaperDriver.init k paused) pre) slug := by
  obtain ⟨post, rfl⟩ := hpre
  have hbacked := backed_final env g k paused pre (Obeys.of_append hstep)
  have htracked := tracked_reachable env g k paused pre
  set st := (mmMachine env g).final (MMPaperDriver.init k paused) pre
  ext coid
  rw [ledgerIds, restingIds, List.mem_toFinset, List.mem_toFinset, List.mem_map, List.mem_map]
  constructor
  · rintro ⟨q, hq, rfl⟩
    obtain ⟨o, ho⟩ := hbacked slug q hq
    refine ⟨o, ?_, ho.isOrder.coid⟩
    rw [List.mem_filter, LimitBook.mem_snapshot_iff]
    exact ⟨ho.rests.1, decide_eq_true ho.rests.2⟩
  · rintro ⟨o, ho, rfl⟩
    rw [List.mem_filter, LimitBook.mem_snapshot_iff, decide_eq_true_eq] at ho
    obtain ⟨q, hq, hqo⟩ := htracked.resting slug o ho
    exact ⟨q, hq, hqo.coid.symm⟩

end Runs

section Instance

/-- The ledger and the book of the run have the same ids. -/
theorem ledger_is_book_soldRun :
    ledgerIds ((mmMachine (soldEnv 75) (GlobalMMState.init 3500 350)).final
        (MMPaperDriver.init ⟨Dict.empty⟩ false) soldRun) "btc-updown-15m-900" =
      restingIds ((mmMachine (soldEnv 75) (GlobalMMState.init 3500 350)).final
        (MMPaperDriver.init ⟨Dict.empty⟩ false) soldRun) "btc-updown-15m-900" := by
  refine ledger_is_book (soldEnv 75) (GlobalMMState.init 3500 350) ⟨Dict.empty⟩ false soldRun ?_
    soldRun (List.prefix_refl _) "btc-updown-15m-900"
  simp only [soldRun, Machine.Along, Obeys.cons_iff]
  refine ⟨?_, ?_, Obeys.nil⟩ <;> decide +kernel

/-- With quotes that live for ten seconds, two quotes are posted, and 81 seconds later the price
has not moved: the tick leaves both, and the match of the same tick evicts both. -/
theorem ledger_keeps_expired :
    ¬∀ (env : MMDriverEnv ℚ) (g : GlobalMMState ℚ) (k : KEstimator ℚ) (paused : Bool)
      (ls : List (MMLabel ℚ)) (d : TickDict ℚ) (clock fillClock : ℚ),
      0 ≤ env.cfg.ttlSeconds →
      ((mmMachine env g).final (MMPaperDriver.init k paused) ls).paused = false →
      (∀ e ∈ (mmMachine env g).trace (MMPaperDriver.init k paused)
        (ls ++ [.tick d clock fillClock]), e.isRaise = false) →
      ledgerIds ((mmMachine env g).final (MMPaperDriver.init k paused)
          (ls ++ [.tick d clock fillClock])) d.marketSlug =
        restingIds ((mmMachine env g).final (MMPaperDriver.init k paused)
          (ls ++ [.tick d clock fillClock])) d.marketSlug := by
  intro h
  exact absurd (h (btc15mEnv [1 / 5, 4 / 25] 10 75) (GlobalMMState.init 3500 350) ⟨Dict.empty⟩
    false [.tick (btcTick 1575 675 (1 / 5)) 1575 1575] (btcTick 1656 756 (1 / 5)) 1656 1656
    (by decide +kernel) (by decide +kernel) (by decide +kernel)) (by decide +kernel)

end Instance

end TradingEdge.Analysis
