import TradingEdge.Library.Machine
import TradingEdge.Program.Feeds

/-!
# The recorder and market discovery on shared objects

`state.markets` maps condition ids to `MarketMeta` objects.  Discovery puts a new object in the
place of the old one; the recorder takes the objects of a round from the map under the lock,
then publishes them one by one, and at every `await` of the loop discovery may run.  So an
object is told apart from its place in the map here: `metas` holds every object made, and a
reference is a position in it.
-/

set_option autoImplicit false

namespace TradingEdge.Program

open TradingEdge.Model TradingEdge.Library

/-- A round of the recorder: its time, the prices it read, and the markets it has still to do.
SOURCE: paper/tick_recorder.py:83-97 -/
structure RecorderRound (K : Type) where
  now : K
  feed : FeedSnapshot K
  pending : List ℕ

/-- The objects, the map, and the round of the recorder. -/
structure RecorderState (K : Type) where
  metas : List (MarketMeta K)
  markets : Dict String ℕ
  round : Option (RecorderRound K)

/-- What runs between two `await`s: one pass of discovery over an answer of the API, its removal
of old markets, the start of a round, or the recording of one market.  The feed of quotes
writes at any time, so the book is what it is at the step. -/
inductive RecorderLabel (K : Type) where
  | adds (families : List String) (now : K) (events : List GammaMarket)
  | drops (now : K)
  | startsRound (now : K) (feed : FeedSnapshot K) (hasBook : String → Bool)
  | records (book : CLOBBookSnapshot K) (delivered : Bool)

variable {K : Type}

/-- Before the first answer of the API. -/
def RecorderState.empty : RecorderState K := ⟨[], Dict.empty, none⟩

/-- `state.markets.get(condition_id)`. -/
def RecorderState.lookup (s : RecorderState K) (conditionId : String) : Option (MarketMeta K) :=
  (s.markets.get? conditionId).bind fun r => s.metas[r]?

variable [Field K] [LinearOrder K]

/-- A market of an answer gets a new object, with the open price of the one in the map.
SOURCE: paper/feeds.py:352-379, 452-467 -/
def RecorderState.add (families : List String) (now : K) (s : RecorderState K)
    (g : GammaMarket) : RecorderState K :=
  match acceptMarket families now g with
  | none => s
  | some (conditionId, closeTs) =>
    let old := s.lookup conditionId
    { s with
      metas := s.metas ++ [{
        conditionId := conditionId
        slug := g.slug
        windowCloseTs := closeTs
        openPrice := (old.map (·.openPrice)).getD 0
        openPriceCaptured := (old.map (·.openPriceCaptured)).getD false }]
      markets := s.markets.set conditionId s.metas.length }

/-- Markets five minutes past their close leave the map.
SOURCE: paper/feeds.py:470-479 -/
def RecorderState.drop (now : K) (s : RecorderState K) : RecorderState K :=
  let expired := s.markets.entries.filter fun e =>
    match s.metas[e.2]? with
    | none => false
    | some m => (m.windowCloseTs : K) < now - 300
  { s with markets := expired.foldl (fun ms e => ms.pop e.1) s.markets }

/-- The markets in their publishing window that have a book.
SOURCE: paper/tick_recorder.py:83-103 -/
def RecorderState.openMarkets (now : K) (hasBook : String → Bool) (s : RecorderState K) : List ℕ :=
  s.markets.values.filter fun r =>
    match s.metas[r]? with
    | none => false
    | some m => IsInPublishingWindow m.windowCloseTs now m.slug ∧ hasBook m.conditionId = true

/-- The recorder captures the open price in the object it holds, and publishes the market.
SOURCE: paper/tick_recorder.py:100-148 -/
def RecorderState.record (book : CLOBBookSnapshot K) (delivered : Bool) (s : RecorderState K) :
    RecorderState K × List (TickDict K) :=
  match s.round with
  | none => (s, [])
  | some round =>
    match round.pending with
    | [] => (s, [])
    | r :: rest =>
      let s := { s with round := some { round with pending := rest } }
      match s.metas[r]? with
      | none => (s, [])
      | some m =>
        let recorded := recordMarket m (some book) round.feed round.now
        ({ s with metas := s.metas.set r recorded.1 },
          match recorded.2 with
          | none => []
          | some (tick, _) => if delivered then [tick] else [])

/-- SOURCE: paper/tick_recorder.py:73-201; paper/feeds.py:293-379, 397-480 -/
def recorderStep (s : RecorderState K) : RecorderLabel K → RecorderState K × List (TickDict K)
  | .adds families now events => (events.foldl (RecorderState.add families now) s, [])
  | .drops now => (s.drop now, [])
  | .startsRound now feed hasBook =>
    if ∀ round ∈ s.round, round.pending = [] then
      ({ s with round := some ⟨now, feed, s.openMarkets now hasBook⟩ }, [])
    else (s, [])
  | .records book delivered => s.record book delivered

/-- Discovery and recorder as a machine; the events are the ticks that are published. -/
def recorderMachine : Machine (RecorderState K) (RecorderLabel K) (TickDict K) := ⟨recorderStep⟩

/-- On the markets of the map, discovery does what it does to a map of values. -/
theorem lookup_add (families : List String) (now : K) (s : RecorderState K) (g : GammaMarket)
    (markets : Dict String (MarketMeta K)) (h : ∀ cid, markets.get? cid = s.lookup cid)
    (hbound : ∀ cid r, s.markets.get? cid = some r → r < s.metas.length) (cid : String) :
    (addMarket families now markets g).get? cid = (s.add families now g).lookup cid := by
  unfold addMarket RecorderState.add
  cases acceptMarket families now g with
  | none => exact h cid
  | some accepted =>
    obtain ⟨conditionId, closeTs⟩ := accepted
    unfold RecorderState.lookup
    dsimp only
    rw [Dict.get?_set, Dict.get?_set, h conditionId]
    by_cases hcid : cid = conditionId
    · rw [if_pos hcid, if_pos hcid, Option.bind_some, List.getElem?_concat_length]
      rfl
    · rw [if_neg hcid, if_neg hcid, h cid]
      unfold RecorderState.lookup
      cases hr : s.markets.get? cid with
      | none => rfl
      | some r => exact (List.getElem?_append_left (hbound cid r hr)).symm

end TradingEdge.Program
