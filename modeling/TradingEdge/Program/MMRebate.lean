import TradingEdge.Program.ExecClient
import TradingEdge.Program.MMFeatures
import TradingEdge.Program.MMSafety

/-!
# The market making strategy

`MMRebateV1` of `strategies/polymarket_btc15m/mm_rebate_v1.py`, with the actions of
`engine/mm_actions.py`.  The strategy keeps a ledger of the quotes it believes to rest, and on
every tick answers with the actions that bring the book in line with the prices it wants.  It
changes the ledger when it emits an action; whether the action takes effect it never learns.

The clock that the safety guard and the estimator read is an argument.
-/

set_option autoImplicit false

namespace TradingEdge.Program

open TradingEdge.Model TradingEdge.Library

/-- SOURCE: engine/mm_actions.py:20-35 -/
structure PostQuote (K : Type) where
  side : Side
  price : K
  qtyShares : K
  marketSlug : String
  ttlSeconds : ℤ
  clientIdSeed : String

/-- SOURCE: engine/mm_actions.py:38-58 -/
inductive MMAction (K : Type) where
  | post (new : PostQuote K)
  | cancel (clientOrderId marketSlug reason : String)
  | replace (oldClientOrderId : String) (new : PostQuote K)

/-- SOURCE: strategies/polymarket_btc15m/mm_rebate_v1.py:54-61 -/
structure LiveQuote (K : Type) where
  clientOrderId : String
  side : Side
  price : K
  qtyShares : K
deriving DecidableEq

/-- What a strategy is built with.
SOURCE: strategies/polymarket_btc15m/mm_rebate_v1.py:100-149 -/
structure MMRebateConfig (K : Type) where
  name : String
  slugPattern : Option String
  zoneLo : K
  zoneHi : K
  deadLo : K
  deadHi : K
  entryWindowStartS : K
  stakeNominalUsd : K
  asParams : ASParams K
  safetyParams : MMSafetyParams K
  ttlSeconds : ℤ

/-- A strategy with the functions of the standard library it calls. -/
structure MMEnv (K : Type) where
  lib : MathLib K
  execLib : ExecLib K
  cfg : MMRebateConfig K

/-- The state of a strategy: its guard, its estimator, and the ledger. -/
structure MMRebate (K : Type) where
  safety : MMSafetyGuard K
  k : KEstimator K
  liveQuotesByMarket : Dict String (List (LiveQuote K))

/-- A strategy that has not quoted yet. -/
def MMRebate.init {K : Type} (k : KEstimator K) : MMRebate K :=
  ⟨MMSafetyGuard.init, k, Dict.empty⟩

/-- The quotes the ledger has for a market. -/
def MMRebate.live {K : Type} (m : MMRebate K) (slug : String) : List (LiveQuote K) :=
  (m.liveQuotesByMarket.get? slug).getD []

/-- SOURCE: strategies/polymarket_btc15m/mm_rebate_v1.py:157-161 -/
def MMRebateConfig.Ignores {K : Type} (cfg : MMRebateConfig K) (slug : String) : Prop :=
  ∃ pattern ∈ cfg.slugPattern, ¬pattern.toList <+: slug.toList

instance {K : Type} (cfg : MMRebateConfig K) (slug : String) : Decidable (cfg.Ignores slug) :=
  inferInstanceAs (Decidable (∃ pattern ∈ cfg.slugPattern, _))

/-- SOURCE: strategies/polymarket_btc15m/mm_rebate_v1.py:289-293 -/
def MMRebate.existingFor {K : Type} (m : MMRebate K) (slug : String) (side : Side) :
    Option (LiveQuote K) :=
  (m.live slug).find? fun q => q.side = side

/-- SOURCE: strategies/polymarket_btc15m/mm_rebate_v1.py:309-316 -/
def MMRebate.trackNew {K : Type} (m : MMRebate K) (slug : String) (q : LiveQuote K) :
    MMRebate K :=
  { m with liveQuotesByMarket := m.liveQuotesByMarket.set slug (m.live slug ++ [q]) }

/-- SOURCE: strategies/polymarket_btc15m/mm_rebate_v1.py:318-320 -/
def MMRebate.untrack {K : Type} (m : MMRebate K) (slug coid : String) : MMRebate K :=
  { m with liveQuotesByMarket :=
      m.liveQuotesByMarket.set slug ((m.live slug).filter fun q => q.clientOrderId ≠ coid) }

variable {K : Type} [Field K] [LinearOrder K]

/-- SOURCE: strategies/polymarket_btc15m/mm_rebate_v1.py:64-68 -/
def bucketOf (p : K) (edges : List (K × K × String)) : Option String :=
  (edges.find? fun e => e.1 ≤ p ∧ p < e.2.1).map fun e => e.2.2

/-- SOURCE: strategies/polymarket_btc15m/mm_rebate_v1.py:93-98 -/
def bucketEdges : List (K × K × String) :=
  [(15 / 100, 20 / 100, "0.15-0.20"), (20 / 100, 30 / 100, "0.20-0.30"),
    (30 / 100, 40 / 100, "0.30-0.40"), (40 / 100, 50 / 100, "0.40-0.50")]

/-- SOURCE: strategies/polymarket_btc15m/mm_rebate_v1.py:322-323 -/
def bucketForEstimator (p : K) : String :=
  (bucketOf p bucketEdges).getD "0.15-0.20"

/-- SOURCE: strategies/polymarket_btc15m/mm_rebate_v1.py:80-82 -/
def coid (lib : ExecLib K) (strategy slug : String) (ts : K) (side : Side) (seed : String) :
    String :=
  lib.sha16 (strategy ++ "|" ++ slug ++ "|" ++ lib.fmt6 ts ++ "|" ++ side.value ++ "|" ++ seed)

/-- The wanted price is a cent or more away from the live quote's.
SOURCE: strategies/polymarket_btc15m/mm_rebate_v1.py:279-280 -/
def LiveQuote.Moved (q : LiveQuote K) (price : K) : Prop := 1 / 100 ≤ |q.price - price|

instance (q : LiveQuote K) (price : K) : Decidable (q.Moved price) :=
  inferInstanceAs (Decidable (1 / 100 ≤ _))

/-- Buying is positive. -/
def sideSign (side : Side) : K := if side = .yesUp then 1 else -1

/-- The seed of a side's ids. -/
def quoteSeed (side : Side) : String := if side = .yesUp then "bid" else "ask"

/-- Give up every quote of a market.
SOURCE: strategies/polymarket_btc15m/mm_rebate_v1.py:235-247 -/
def MMRebate.cancelAllForMarket (cfg : MMRebateConfig K) (m : MMRebate K) (slug reason : String)
    (now : K) : List (MMAction K) × MMRebate K :=
  let live := m.live slug
  let out := live.map fun q => MMAction.cancel q.clientOrderId slug reason
  if live.isEmpty then (out, m)
  else
    (out, { m with
      safety := live.foldl (fun g _ => g.recordCancel cfg.safetyParams slug now) m.safety
      liveQuotesByMarket := m.liveQuotesByMarket.set slug [] })

/-- SOURCE: strategies/polymarket_btc15m/mm_rebate_v1.py:295-307 -/
def MMRebate.cancelSide (cfg : MMRebateConfig K) (m : MMRebate K) (slug : String) (side : Side)
    (reason : String) (now : K) : List (MMAction K) × MMRebate K :=
  match m.existingFor slug side with
  | none => ([], m)
  | some existing =>
    let m := m.untrack slug existing.clientOrderId
    ([.cancel existing.clientOrderId slug reason],
      { m with safety := m.safety.recordCancel cfg.safetyParams slug now })

/-- The quote a tick wants on a side. -/
def MMRebateConfig.newQuote (cfg : MMRebateConfig K) (slug : String) (side : Side)
    (price qtyShares : K) : PostQuote K where
  side := side
  price := price
  qtyShares := qtyShares
  marketSlug := slug
  ttlSeconds := cfg.ttlSeconds
  clientIdSeed := quoteSeed side

/-- The entry of the ledger for it. -/
def MMEnv.liveQuote (env : MMEnv K) (slug : String) (ts : K) (side : Side)
    (price qtyShares : K) : LiveQuote K where
  clientOrderId := coid env.execLib env.cfg.name slug ts side (quoteSeed side)
  side := side
  price := price
  qtyShares := qtyShares

/-- One side of the market: give it up at the inventory cap, else post a quote where the
ledger has none, replace one whose price has moved by a cent, and leave any other.
SOURCE: strategies/polymarket_btc15m/mm_rebate_v1.py:249-287 -/
def MMRebate.postOrReplaceSide (env : MMEnv K) (m : MMRebate K) (slug : String) (side : Side)
    (price qtyShares pFair ts now : K) : List (MMAction K) × MMRebate K :=
  match m.safety.blockPostQuote env.cfg.safetyParams slug (sideSign side) qtyShares pFair with
  | some _ => m.cancelSide env.cfg slug side "inventory_cap" now
  | none =>
    let newQuote := env.cfg.newQuote slug side price qtyShares
    let tracked := env.liveQuote slug ts side price qtyShares
    match m.existingFor slug side with
    | none => ([.post newQuote], m.trackNew slug tracked)
    | some existing =>
      if existing.Moved price then
        let m := (m.untrack slug existing.clientOrderId).trackNew slug tracked
        ([.replace existing.clientOrderId newQuote],
          { m with safety := m.safety.recordCancel env.cfg.safetyParams slug now })
      else ([], m)

/-- The bid, the ask and the quantity a tick wants.
SOURCE: strategies/polymarket_btc15m/mm_rebate_v1.py:183-189 -/
def MMRebate.wanted (env : MMEnv K) (m : MMRebate K) (ctx : TickContext K) : K × K × K :=
  let pFair := ctx.impliedProbYes
  let bucket := (bucketOf pFair bucketEdges).getD "0.15-0.20"
  let kAt2c := m.k.k bucket 2
  let qShares := m.safety.inventory ctx.marketSlug
  let (bid, ask) := optimalBidAsk env.lib pFair qShares kAt2c env.cfg.asParams ctx.tInWindow
  (bid, ask, env.cfg.stakeNominalUsd / max bid (1 / 1000))

/-- Stages 5 and 6: both sides.
SOURCE: strategies/polymarket_btc15m/mm_rebate_v1.py:183-199 -/
def MMRebate.quoteBothSides (env : MMEnv K) (m : MMRebate K) (ctx : TickContext K) (now : K) :
    List (MMAction K) × MMRebate K :=
  let slug := ctx.marketSlug
  let (bid, ask, qtyShares) := m.wanted env ctx
  let (bids, m) :=
    m.postOrReplaceSide env slug .yesUp bid qtyShares ctx.impliedProbYes ctx.ts now
  let (asks, m) :=
    m.postOrReplaceSide env slug .yesDown ask qtyShares ctx.impliedProbYes ctx.ts now
  (bids ++ asks, m)

/-- The gates that look at the tick alone: the reason to give up the market, if there is one.
SOURCE: strategies/polymarket_btc15m/mm_rebate_v1.py:163-170 -/
def MMRebateConfig.gate (cfg : MMRebateConfig K) (ctx : TickContext K) : Option String :=
  if ¬InActiveZone ctx.impliedProbYes cfg.zoneLo cfg.zoneHi cfg.deadLo cfg.deadHi then
    some "out_of_zone"
  else if ¬InQuotingWindow ctx.tInWindow cfg.asParams cfg.entryWindowStartS then
    some "out_of_quoting_window"
  else none

/-- SOURCE: strategies/polymarket_btc15m/mm_rebate_v1.py:153-199 -/
def MMRebate.onTick (env : MMEnv K) (m : MMRebate K) (ctx : TickContext K) (now : K) :
    List (MMAction K) × MMRebate K :=
  let slug := ctx.marketSlug
  if env.cfg.Ignores slug then ([], m)
  else
    match env.cfg.gate ctx with
    | some reason => m.cancelAllForMarket env.cfg slug reason now
    | none =>
      let (killed, safety) := m.safety.isMarketKilled slug now
      let m := { m with safety := safety }
      if killed then m.cancelAllForMarket env.cfg slug "market_killed_by_safety" now
      else if (env.cfg.safetyParams.blockPostQuoteTerminal ctx.tInWindow
          env.cfg.asParams.windowSeconds).isSome then
        m.cancelAllForMarket env.cfg slug "tau_terminal" now
      else m.quoteBothSides env ctx now

/-- SOURCE: strategies/polymarket_btc15m/mm_rebate_v1.py:201-227 -/
def MMRebate.onFill (cfg : MMRebateConfig K) (m : MMRebate K)
    (slug clientOrderId side : String) (fillPrice fillQtyShares now : K) : MMRebate K :=
  let sideSign := if side = Side.yesUp.value then 1 else -1
  let safety := m.safety.recordInventoryAfterFill slug sideSign fillQtyShares
  { safety := safety.recordFill cfg.safetyParams slug now
    liveQuotesByMarket := m.liveQuotesByMarket.set slug
      ((m.live slug).filter fun q => q.clientOrderId ≠ clientOrderId)
    k := m.k.recordFill (bucketForEstimator fillPrice) 2 now }

section Ledger

omit [Field K] [LinearOrder K]

/-- At first the ledger has no quotes. -/
@[simp] theorem MMRebate.live_init (k : KEstimator K) (slug : String) :
    (MMRebate.init k).live slug = [] := rfl

/-- A tracked quote is the last of its market. -/
theorem MMRebate.live_trackNew (m : MMRebate K) (slug slug' : String) (q : LiveQuote K) :
    (m.trackNew slug q).live slug' = if slug' = slug then m.live slug ++ [q] else m.live slug' := by
  rw [live, trackNew, Dict.get?_set]
  split
  · rfl
  · rfl

/-- An untracked quote leaves the ledger of its market. -/
theorem MMRebate.live_untrack (m : MMRebate K) (slug slug' coid : String) :
    (m.untrack slug coid).live slug' =
      if slug' = slug then (m.live slug).filter fun q => q.clientOrderId ≠ coid
      else m.live slug' := by
  rw [live, untrack, Dict.get?_set]
  split
  · rfl
  · rfl

end Ledger

/-- What a tick does on a side: leave what is there, give a quote up, post one, or replace
one. -/
inductive SideMove (K : Type) where
  | stay (kept : Option (LiveQuote K))
  | give (old : LiveQuote K)
  | post
  | replace (old : LiveQuote K)

/-- The choice between them, from the inventory and the ledger of the market. -/
def sideMove (env : MMEnv K) (g : MMSafetyGuard K) (live : List (LiveQuote K)) (slug : String)
    (side : Side) (price qtyShares pFair : K) : SideMove K :=
  match g.blockPostQuote env.cfg.safetyParams slug (sideSign side) qtyShares pFair,
    live.find? fun q => q.side = side with
  | some _, none => .stay none
  | some _, some old => .give old
  | none, none => .post
  | none, some old => if old.Moved price then .replace old else .stay (some old)

/-- The quote a move finds on its side. -/
def SideMove.found (move : SideMove K) : Option (LiveQuote K) :=
  match move with
  | .stay kept => kept
  | .give old => some old
  | .post => none
  | .replace old => some old

/-- The quote a move leaves in its place. -/
def SideMove.kept (move : SideMove K) : Option (LiveQuote K) :=
  match move with
  | .stay kept => kept
  | _ => none

/-- The actions of a move. -/
def SideMove.actions (move : SideMove K) (slug : String) (new : PostQuote K) :
    List (MMAction K) :=
  match move with
  | .stay _ => []
  | .give old => [.cancel old.clientOrderId slug "inventory_cap"]
  | .post => [.post new]
  | .replace old => [.replace old.clientOrderId new]

/-- The ledger of the market after a move. -/
def SideMove.ledger (move : SideMove K) (new : LiveQuote K) (live : List (LiveQuote K)) :
    List (LiveQuote K) :=
  match move with
  | .stay _ => live
  | .give old => live.filter fun q => q.clientOrderId ≠ old.clientOrderId
  | .post => live ++ [new]
  | .replace old => (live.filter fun q => q.clientOrderId ≠ old.clientOrderId) ++ [new]

section Side

variable (env : MMEnv K) (m : MMRebate K) (slug : String) (side : Side)
  (price qtyShares pFair ts now : K)

/-- A move is about the quote of its side. -/
theorem sideMove_found (g : MMSafetyGuard K) (live : List (LiveQuote K)) :
    (sideMove env g live slug side price qtyShares pFair).found =
      live.find? fun q => q.side = side := by
  unfold sideMove
  cases g.blockPostQuote env.cfg.safetyParams slug (sideSign side) qtyShares pFair with
  | some reason => cases live.find? fun q => q.side = side <;> rfl
  | none =>
    cases live.find? fun q => q.side = side with
    | none => rfl
    | some old => by_cases h : old.Moved price <;> simp [h, SideMove.found]

/-- A side answers with the actions of its move.
SOURCE: strategies/polymarket_btc15m/mm_rebate_v1.py:249-287 -/
theorem MMRebate.postOrReplaceSide_actions :
    (m.postOrReplaceSide env slug side price qtyShares pFair ts now).1 =
      (sideMove env m.safety (m.live slug) slug side price qtyShares pFair).actions slug
        (env.cfg.newQuote slug side price qtyShares) := by
  unfold postOrReplaceSide sideMove existingFor
  cases m.safety.blockPostQuote env.cfg.safetyParams slug (sideSign side) qtyShares pFair with
  | some reason =>
    cases hold : (m.live slug).find? fun q => q.side = side <;>
      simp [cancelSide, existingFor, hold, SideMove.actions]
  | none =>
    cases (m.live slug).find? fun q => q.side = side with
    | none => rfl
    | some old => by_cases h : old.Moved price <;> simp [h, SideMove.actions]

/-- It leaves the ledger of its move, and the other markets' as they were.
SOURCE: strategies/polymarket_btc15m/mm_rebate_v1.py:249-287 -/
theorem MMRebate.postOrReplaceSide_live (slug' : String) :
    (m.postOrReplaceSide env slug side price qtyShares pFair ts now).2.live slug' =
      if slug' = slug then
        (sideMove env m.safety (m.live slug) slug side price qtyShares pFair).ledger
          (env.liveQuote slug ts side price qtyShares) (m.live slug)
      else m.live slug' := by
  unfold postOrReplaceSide sideMove existingFor
  cases m.safety.blockPostQuote env.cfg.safetyParams slug (sideSign side) qtyShares pFair with
  | some reason =>
    cases hold : (m.live slug).find? fun q => q.side = side with
    | none => by_cases hslug : slug' = slug <;> simp [cancelSide, existingFor, hold, SideMove.ledger, hslug]
    | some old =>
      simp only [cancelSide, existingFor, hold, SideMove.ledger]
      exact m.live_untrack slug slug' old.clientOrderId
  | none =>
    cases hold : (m.live slug).find? fun q => q.side = side with
    | none => exact m.live_trackNew slug slug' _
    | some old =>
      by_cases hmoved : old.Moved price
      · simp only [hmoved, if_true, SideMove.ledger]
        have hlive := (m.untrack slug old.clientOrderId).live_trackNew slug slug'
          (env.liveQuote slug ts side price qtyShares)
        rw [live_untrack, if_pos rfl, live_untrack] at hlive
        by_cases hslug : slug' = slug
        · rw [if_pos hslug] at hlive ⊢
          exact hlive
        · rw [if_neg hslug, if_neg hslug] at hlive
          rw [if_neg hslug]
          exact hlive
      · by_cases hslug : slug' = slug <;> simp [hmoved, SideMove.ledger, hslug]

/-- Quoting leaves the inventory alone. -/
@[simp] theorem MMRebate.postOrReplaceSide_inventory (slug' : String) :
    (m.postOrReplaceSide env slug side price qtyShares pFair ts now).2.safety.inventory slug' =
      m.safety.inventory slug' := by
  unfold postOrReplaceSide cancelSide
  split
  · split <;> rfl
  · dsimp only
    split
    · rfl
    · split <;> rfl

end Side

section Tick

variable (env : MMEnv K) (m : MMRebate K) (ctx : TickContext K) (now : K)

/-- The price a tick wants on a side. -/
def MMRebate.priceOf (side : Side) : K :=
  if side = .yesUp then (m.wanted env ctx).1 else (m.wanted env ctx).2.1

/-- The quantity it wants on both. -/
def MMRebate.qtyOf : K := (m.wanted env ctx).2.2

/-- The quote it wants on a side, as the driver gets it. -/
def MMRebate.newQuote (side : Side) : PostQuote K :=
  env.cfg.newQuote ctx.marketSlug side (m.priceOf env ctx side) (m.qtyOf env ctx)

/-- The quote it wants on a side, as the ledger keeps it. -/
def MMRebate.newLive (side : Side) : LiveQuote K :=
  env.liveQuote ctx.marketSlug ctx.ts side (m.priceOf env ctx side) (m.qtyOf env ctx)

/-- What a tick that quotes does with the bid. -/
def MMRebate.bidMove : SideMove K :=
  sideMove env m.safety (m.live ctx.marketSlug) ctx.marketSlug .yesUp (m.priceOf env ctx .yesUp)
    (m.qtyOf env ctx) ctx.impliedProbYes

/-- The ledger of the market with the bid dealt with. -/
def MMRebate.bidLedger : List (LiveQuote K) :=
  (m.bidMove env ctx).ledger (m.newLive env ctx .yesUp) (m.live ctx.marketSlug)

/-- What it then does with the ask. -/
def MMRebate.askMove : SideMove K :=
  sideMove env m.safety (m.bidLedger env ctx) ctx.marketSlug .yesDown
    (m.priceOf env ctx .yesDown) (m.qtyOf env ctx) ctx.impliedProbYes

/-- The tick passes every gate of the strategy. -/
def MMRebate.Quotes : Prop :=
  ¬env.cfg.Ignores ctx.marketSlug ∧ env.cfg.gate ctx = none ∧
    (m.safety.isMarketKilled ctx.marketSlug now).1 = false ∧
    (env.cfg.safetyParams.blockPostQuoteTerminal ctx.tInWindow
      env.cfg.asParams.windowSeconds).isNone

instance : Decidable (m.Quotes env ctx now) :=
  inferInstanceAs (Decidable (_ ∧ _ ∧ _ ∧ _))

/-- A move depends on the inventory of its market only. -/
theorem sideMove_congr (g g' : MMSafetyGuard K) (live : List (LiveQuote K)) (slug : String)
    (side : Side) (price qtyShares pFair : K) (h : g'.inventory slug = g.inventory slug) :
    sideMove env g' live slug side price qtyShares pFair =
      sideMove env g live slug side price qtyShares pFair := by
  unfold sideMove MMSafetyGuard.blockPostQuote
  rw [h]

/-- Both sides of a tick that quotes: the actions, the ledger, and what stays.
SOURCE: strategies/polymarket_btc15m/mm_rebate_v1.py:183-199 -/
theorem MMRebate.quoteBothSides_spec (slug : String) :
    (m.quoteBothSides env ctx now).1 =
        (m.bidMove env ctx).actions ctx.marketSlug (m.newQuote env ctx .yesUp) ++
          (m.askMove env ctx).actions ctx.marketSlug (m.newQuote env ctx .yesDown) ∧
      (m.quoteBothSides env ctx now).2.live slug =
        (if slug = ctx.marketSlug then
          (m.askMove env ctx).ledger (m.newLive env ctx .yesDown) (m.bidLedger env ctx)
        else m.live slug) ∧
      (m.quoteBothSides env ctx now).2.safety.inventory slug = m.safety.inventory slug := by
  unfold quoteBothSides
  set mid := (m.postOrReplaceSide env ctx.marketSlug .yesUp (m.wanted env ctx).1
    (m.wanted env ctx).2.2 ctx.impliedProbYes ctx.ts now).2 with hmid
  have hlive : mid.live ctx.marketSlug = m.bidLedger env ctx := by
    rw [hmid, postOrReplaceSide_live, if_pos rfl]
    rfl
  have hother : ∀ s, s ≠ ctx.marketSlug → mid.live s = m.live s := by
    intro s hs
    rw [hmid, postOrReplaceSide_live, if_neg hs]
  have hmove : sideMove env mid.safety (mid.live ctx.marketSlug) ctx.marketSlug .yesDown
      (m.wanted env ctx).2.1 (m.wanted env ctx).2.2 ctx.impliedProbYes = m.askMove env ctx := by
    rw [hlive, sideMove_congr env m.safety mid.safety]
    · rfl
    · rw [hmid, postOrReplaceSide_inventory]
  refine ⟨?_, ?_, ?_⟩
  · change _ ++ _ = _
    rw [postOrReplaceSide_actions, postOrReplaceSide_actions, hmove]
    rfl
  · change MMRebate.live (mid.postOrReplaceSide env ctx.marketSlug .yesDown (m.wanted env ctx).2.1
      (m.wanted env ctx).2.2 ctx.impliedProbYes ctx.ts now).2 slug = _
    rw [postOrReplaceSide_live, hmove, hlive]
    by_cases hslug : slug = ctx.marketSlug
    · rw [if_pos hslug, if_pos hslug]
      rfl
    · rw [if_neg hslug, if_neg hslug, hother slug hslug]
  · change MMSafetyGuard.inventory (mid.postOrReplaceSide env ctx.marketSlug .yesDown
      (m.wanted env ctx).2.1 (m.wanted env ctx).2.2 ctx.impliedProbYes ctx.ts now).2.safety slug = _
    rw [postOrReplaceSide_inventory, hmid, postOrReplaceSide_inventory]

/-- Recording cancels leaves the inventory alone. -/
theorem inventory_foldl_recordCancel (cfg : MMRebateConfig K)
    (g : MMSafetyGuard K) (live : List (LiveQuote K)) (slug slug' : String) (now : K) :
    (live.foldl (fun g _ => g.recordCancel cfg.safetyParams slug now) g).inventory slug' =
      g.inventory slug' := by
  induction live generalizing g with
  | nil => rfl
  | cons q live ih => exact ih (g.recordCancel cfg.safetyParams slug now)

/-- Giving a market up cancels every quote the ledger has for it, and empties the ledger.
SOURCE: strategies/polymarket_btc15m/mm_rebate_v1.py:235-247 -/
theorem MMRebate.cancelAllForMarket_spec (cfg : MMRebateConfig K) (slug slug' reason : String) :
    (m.cancelAllForMarket cfg slug reason now).1 =
        (m.live slug).map (fun q => .cancel q.clientOrderId slug reason) ∧
      (m.cancelAllForMarket cfg slug reason now).2.live slug' =
        (if slug' = slug then [] else m.live slug') ∧
      (m.cancelAllForMarket cfg slug reason now).2.safety.inventory slug' =
        m.safety.inventory slug' := by
  unfold cancelAllForMarket
  by_cases hempty : (m.live slug).isEmpty
  · rw [if_pos hempty]
    refine ⟨rfl, ?_, rfl⟩
    by_cases hslug : slug' = slug
    · rw [if_pos hslug, hslug, List.isEmpty_iff.mp hempty]
    · rw [if_neg hslug]
  · rw [if_neg hempty]
    refine ⟨rfl, ?_, ?_⟩
    · change MMRebate.live ⟨_, _, m.liveQuotesByMarket.set slug []⟩ slug' = _
      rw [live, Dict.get?_set]
      by_cases hslug : slug' = slug
      · rw [if_pos hslug, if_pos hslug]
        rfl
      · rw [if_neg hslug, if_neg hslug]
        rfl
    · exact inventory_foldl_recordCancel cfg m.safety (m.live slug) slug slug' now

/-- A tick the strategy ignores changes nothing. -/
theorem MMRebate.onTick_of_ignores (h : env.cfg.Ignores ctx.marketSlug) :
    m.onTick env ctx now = ([], m) := by
  unfold onTick
  rw [if_pos h]

/-- The quotes a tick wants depend on the guard through the market's inventory only. -/
theorem MMRebate.wanted_congr (safety : MMSafetyGuard K)
    (h : safety.inventory ctx.marketSlug = m.safety.inventory ctx.marketSlug) :
    ({ m with safety := safety } : MMRebate K).wanted env ctx = m.wanted env ctx := by
  unfold wanted
  dsimp only
  rw [h]

/-- A tick that passes the gates deals with both sides: the actions, the ledger, and the
inventories, which stay.
SOURCE: strategies/polymarket_btc15m/mm_rebate_v1.py:153-199 -/
theorem MMRebate.onTick_of_quotes (h : m.Quotes env ctx now) (slug : String) :
    (m.onTick env ctx now).1 =
        (m.bidMove env ctx).actions ctx.marketSlug (m.newQuote env ctx .yesUp) ++
          (m.askMove env ctx).actions ctx.marketSlug (m.newQuote env ctx .yesDown) ∧
      (m.onTick env ctx now).2.live slug =
        (if slug = ctx.marketSlug then
          (m.askMove env ctx).ledger (m.newLive env ctx .yesDown) (m.bidLedger env ctx)
        else m.live slug) ∧
      (m.onTick env ctx now).2.safety.inventory slug = m.safety.inventory slug := by
  obtain ⟨hslug, hgate, hkilled, hterminal⟩ := h
  set safety := (m.safety.isMarketKilled ctx.marketSlug now).2 with hsafety
  have hinv : ∀ s, safety.inventory s = m.safety.inventory s :=
    m.safety.inventory_isMarketKilled ctx.marketSlug now
  set m' : MMRebate K := { m with safety := safety } with hm'
  have htick : m.onTick env ctx now = m'.quoteBothSides env ctx now := by
    unfold onTick
    rw [if_neg hslug, hgate]
    simp [hkilled, Option.isNone_iff_eq_none.mp hterminal, hm', hsafety]
  have hwanted : m'.wanted env ctx = m.wanted env ctx := m.wanted_congr env ctx safety (hinv _)
  have hprice : ∀ side, m'.priceOf env ctx side = m.priceOf env ctx side := by
    intro side
    rw [priceOf, priceOf, hwanted]
  have hqty : m'.qtyOf env ctx = m.qtyOf env ctx := by
    rw [qtyOf, qtyOf, hwanted]
  have hnew : ∀ side, m'.newQuote env ctx side = m.newQuote env ctx side := by
    intro side
    rw [newQuote, newQuote, hprice, hqty]
  have hlive : ∀ side, m'.newLive env ctx side = m.newLive env ctx side := by
    intro side
    rw [newLive, newLive, hprice, hqty]
  have hbid : m'.bidMove env ctx = m.bidMove env ctx := by
    rw [bidMove, bidMove, hprice, hqty]
    exact sideMove_congr env m.safety safety _ _ _ _ _ _ (hinv _)
  have hledger : m'.bidLedger env ctx = m.bidLedger env ctx := by
    rw [bidLedger, bidLedger, hbid, hlive]
    rfl
  have hask : m'.askMove env ctx = m.askMove env ctx := by
    rw [askMove, askMove, hledger, hprice, hqty]
    exact sideMove_congr env m.safety safety _ _ _ _ _ _ (hinv _)
  obtain ⟨hactions, hlives, hinvs⟩ := m'.quoteBothSides_spec env ctx now slug
  rw [htick, hactions, hlives, hinvs, hbid, hask, hledger, hlive, hnew, hnew]
  exact ⟨rfl, rfl, hinv slug⟩

/-- Any other tick gives the market up. -/
theorem MMRebate.onTick_of_not_quotes (hslug : ¬env.cfg.Ignores ctx.marketSlug)
    (h : ¬m.Quotes env ctx now) :
    ∃ reason safety, (∀ slug, safety.inventory slug = m.safety.inventory slug) ∧
      m.onTick env ctx now = ({ m with safety := safety } : MMRebate K).cancelAllForMarket
        env.cfg ctx.marketSlug reason now := by
  have hinv := m.safety.inventory_isMarketKilled ctx.marketSlug now
  unfold onTick
  rw [if_neg hslug]
  cases hgate : env.cfg.gate ctx with
  | some reason => exact ⟨reason, m.safety, fun _ => rfl, rfl⟩
  | none =>
    dsimp only
    cases hkilled : (m.safety.isMarketKilled ctx.marketSlug now).1 with
    | true => exact ⟨"market_killed_by_safety", _, hinv, by simp⟩
    | false =>
      have hterminal : (env.cfg.safetyParams.blockPostQuoteTerminal ctx.tInWindow
          env.cfg.asParams.windowSeconds).isSome := by
        rw [← Option.not_isNone, Bool.not_eq_true', Bool.eq_false_iff]
        intro hnone
        exact h ⟨hslug, hgate, hkilled, hnone⟩
      exact ⟨"tau_terminal", _, hinv, by simp [hterminal]⟩

end Tick

section Estimator

variable (env : MMEnv K) (m : MMRebate K) (cfg : MMRebateConfig K)

/-- Cancelling a market leaves the estimator alone. -/
theorem MMRebate.k_cancelAllForMarket (slug reason : String) (now : K) :
    (m.cancelAllForMarket cfg slug reason now).2.k = m.k := by
  unfold cancelAllForMarket
  dsimp only
  split
  · rfl
  · rfl

/-- Quoting leaves the estimator alone. -/
theorem MMRebate.k_postOrReplaceSide (slug : String) (side : Side)
    (price qtyShares pFair ts now : K) :
    (m.postOrReplaceSide env slug side price qtyShares pFair ts now).2.k = m.k := by
  unfold postOrReplaceSide cancelSide
  split
  · split
    · rfl
    · rfl
  · dsimp only
    split
    · rfl
    · split
      · rfl
      · rfl

/-- A tick only reads the estimator.
SOURCE: strategies/polymarket_btc15m/mm_rebate_v1.py:153-199 -/
theorem MMRebate.k_onTick (ctx : TickContext K) (now : K) :
    (m.onTick env ctx now).2.k = m.k := by
  unfold onTick
  dsimp only
  split
  · rfl
  · split
    · exact m.k_cancelAllForMarket env.cfg _ _ now
    · split
      · exact MMRebate.k_cancelAllForMarket _ env.cfg _ _ now
      · split
        · exact MMRebate.k_cancelAllForMarket _ env.cfg _ _ now
        · unfold quoteBothSides
          dsimp only
          rw [k_postOrReplaceSide, k_postOrReplaceSide]

end Estimator

/-- A fill takes its quote off the ledger of its market.
SOURCE: strategies/polymarket_btc15m/mm_rebate_v1.py:216-221 -/
theorem MMRebate.live_onFill (cfg : MMRebateConfig K) (m : MMRebate K)
    (slug slug' clientOrderId side : String) (fillPrice fillQtyShares now : K) :
    (m.onFill cfg slug clientOrderId side fillPrice fillQtyShares now).live slug' =
      if slug' = slug then (m.live slug).filter fun q => q.clientOrderId ≠ clientOrderId
      else m.live slug' :=
  m.live_untrack slug slug' clientOrderId

/-- It moves the inventory of that market by its quantity.
SOURCE: strategies/polymarket_btc15m/mm_rebate_v1.py:211-214 -/
theorem MMRebate.inventory_onFill (cfg : MMRebateConfig K) (m : MMRebate K)
    (slug slug' clientOrderId side : String) (fillPrice fillQtyShares now : K) :
    (m.onFill cfg slug clientOrderId side fillPrice fillQtyShares now).safety.inventory slug' =
      if slug' = slug then
        m.safety.inventory slug + (if side = Side.yesUp.value then 1 else -1) * fillQtyShares
      else m.safety.inventory slug' := by
  simp only [onFill, MMSafetyGuard.inventory_recordFill]
  exact m.safety.inventory_recordInventoryAfterFill slug _ fillQtyShares slug'

end TradingEdge.Program
