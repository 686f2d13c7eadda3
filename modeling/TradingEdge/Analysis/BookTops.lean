import TradingEdge.Library.Machine
import TradingEdge.Library.PriceLevels
import TradingEdge.Program.ClobFeed

/-!
# The top of the book

The quotes of the feed against the order book that its messages describe.  A `price_change`
message gives the new size of a level, and the feed takes the level's price as the new quote of
its side.  So the quotes are the best levels of the book exactly when every such message ends,
on each side it names, with a change of the level that is then the best (`tops_agree_iff`).
-/

set_option autoImplicit false

namespace TradingEdge.Analysis

open TradingEdge.Model TradingEdge.Program TradingEdge.Library

/-- A price with its aggregate size. -/
structure BookLevel (K : Type) [Zero K] [LinearOrder K] where
  price : K
  size : K
  price_pos : 0 < price
  size_nonneg : 0 ≤ size

/-- The messages about the book of a token: all its levels, or levels with their new sizes.  A
size of zero means that the level is removed. -/
inductive ClobMessage (K : Type) [Zero K] [LinearOrder K] where
  | book (bids asks : List (BookLevel K))
  | priceChange (changes : List (Bool × BookLevel K))

section Sides

variable {K : Type} [Zero K] [LinearOrder K]

/-- The better of two prices: the lower ask, the higher bid. -/
def Better (ask : Bool) (p q : K) : Prop := if ask then p ≤ q else q ≤ p

/-- The levels of a snapshot on one side. -/
def sideLevels (ask : Bool) (bids asks : List (BookLevel K)) : List (BookLevel K) :=
  if ask then asks else bids

/-- The changes of one side. -/
def sideChanges (ask : Bool) (changes : List (Bool × BookLevel K)) : List (BookLevel K) :=
  (changes.filter fun ch => ch.1 = ask).map Prod.snd

/-- A level as a price with its size. -/
def BookLevel.entry (l : BookLevel K) : K × K := (l.price, l.size)

/-- One side of a book after a message. -/
def ClobMessage.after (ask : Bool) (side : Levels K K) : ClobMessage K → Levels K K
  | .book bids asks => Levels.ofList ((sideLevels ask bids asks).map BookLevel.entry)
  | .priceChange changes =>
    (sideChanges ask changes).foldl (fun side l => side.put l.price l.size) side

/-- The message leaves the best level where the feed looks for it: of a snapshot, the best level
listed has a positive size; of a change, the last level changed is the best one. -/
def ClobMessage.SetsTop (ask : Bool) (after : Levels K K) : ClobMessage K → Prop
  | .book bids asks => ∀ l ∈ sideLevels ask bids asks,
      (∀ other ∈ sideLevels ask bids asks, Better ask l.price other.price) → 0 < after l.price
  | .priceChange changes =>
      ∀ l ∈ (sideChanges ask changes).getLast?, Levels.IsBest (Better ask) after l.price

/-- A level as it is sent. -/
def BookLevel.raw (l : BookLevel K) : RawLevel K := ⟨.number l.price, .number l.size⟩

/-- A change as it is sent. -/
def rawChange (ch : Bool × BookLevel K) : RawChange K :=
  ⟨.number ch.2.price, .number ch.2.size, some (if ch.1 = true then "SELL" else "BUY")⟩

/-- A message as it is sent for a token. -/
def ClobMessage.toEvent (token : String) : ClobMessage K → ClobEvent K
  | .book bids asks =>
    { eventType := some "book", type := none, assetId := some token, market := none
      bids := bids.map BookLevel.raw, asks := asks.map BookLevel.raw, changes := [] }
  | .priceChange changes =>
    { eventType := some "price_change", type := none, assetId := some token, market := none
      bids := [], asks := [], changes := changes.map rawChange }

end Sides

variable {K : Type} [Field K] [LinearOrder K]

/-! ## The quote of a snapshot -/

omit [Field K] in
/-- Sorting puts the better prices first. -/
theorem pairwise_better_mergeSort (ask : Bool) (prices : List K) :
    (prices.mergeSort fun a b => if ask = true then a ≤ b else b ≤ a).Pairwise (Better ask) := by
  cases ask with
  | false =>
    have hsorted : (prices.mergeSort fun a b => b ≤ a).Pairwise fun a b => decide (b ≤ a) = true := by
      apply List.pairwise_mergeSort
      · intro a b c hab hbc
        exact decide_eq_true (le_trans (of_decide_eq_true hbc) (of_decide_eq_true hab))
      · intro a b
        rw [Bool.or_eq_true]
        exact (le_total b a).imp decide_eq_true decide_eq_true
    exact hsorted.imp fun {a b} h => show b ≤ a from of_decide_eq_true h
  | true =>
    have hsorted : (prices.mergeSort fun a b => a ≤ b).Pairwise fun a b => decide (a ≤ b) = true := by
      apply List.pairwise_mergeSort
      · intro a b c hab hbc
        exact decide_eq_true (le_trans (of_decide_eq_true hab) (of_decide_eq_true hbc))
      · intro a b
        rw [Bool.or_eq_true]
        exact (le_total a b).imp decide_eq_true decide_eq_true
    exact hsorted.imp fun {a b} h => show a ≤ b from of_decide_eq_true h

/-- Of levels sent as numbers, `_best` is the best price, or zero for none.
SOURCE: paper/feeds.py:239-248 -/
theorem best_raw (ask : Bool) (levels : List (BookLevel K)) :
    (levels = [] → best (levels.map BookLevel.raw) ask = 0) ∧
      (levels ≠ [] → ∃ l ∈ levels, best (levels.map BookLevel.raw) ask = l.price ∧
        ∀ other ∈ levels, Better ask l.price other.price) := by
  have hprices : (levels.map BookLevel.raw).mapM (fun level => level.price.toFloat (some 0)) =
      some (levels.map BookLevel.price) := by
    induction levels with
    | nil => rfl
    | cons l levels ih =>
      rw [List.map_cons, List.mapM_cons, ih]
      rfl
  unfold best
  rw [hprices]
  dsimp only
  generalize hsorted : (levels.map BookLevel.price).mergeSort
    (fun a b => if ask = true then a ≤ b else b ≤ a) = sorted
  have hmem : ∀ p, p ∈ sorted ↔ ∃ l ∈ levels, l.price = p := by
    intro p
    rw [← hsorted, List.mem_mergeSort, List.mem_map]
  constructor
  · rintro rfl
    rw [List.map_nil, List.mergeSort_nil] at hsorted
    rw [← hsorted]
    rfl
  · intro hlevels
    have horder : sorted.Pairwise fun a b => Better ask a b := by
      rw [← hsorted]
      exact pairwise_better_mergeSort ask _
    cases sorted with
    | nil =>
      obtain ⟨l, hl⟩ := List.exists_mem_of_ne_nil levels hlevels
      cases (hmem l.price).mpr ⟨l, hl, rfl⟩
    | cons p sorted =>
      obtain ⟨l, hl, hprice⟩ := (hmem p).mp (List.mem_cons_self)
      have hpos : 0 < p := hprice ▸ l.price_pos
      refine ⟨l, hl, ?_, fun other hother => ?_⟩
      · rw [List.find?_cons_of_pos (by simpa using hpos), hprice]
        rfl
      · rw [hprice]
        rcases List.mem_cons.mp ((hmem other.price).mpr ⟨other, hother, rfl⟩) with heq | hlater
        · rw [heq]
          unfold Better
          split <;> exact le_refl p
        · exact (List.pairwise_cons.mp horder).1 _ hlater

/-- A snapshot gives the best level of its side exactly when the best price listed has a size. -/
theorem isTop_best_iff (ask : Bool) (levels : List (BookLevel K)) :
    Levels.IsTop (Better ask) (Levels.ofList (levels.map BookLevel.entry))
        (best (levels.map BookLevel.raw) ask) ↔
      ∀ l ∈ levels, (∀ other ∈ levels, Better ask l.price other.price) →
        0 < Levels.ofList (levels.map BookLevel.entry) l.price := by
  obtain ⟨hnil, hcons⟩ := best_raw ask levels
  by_cases hlevels : levels = []
  · rw [hnil hlevels, hlevels]
    exact iff_of_true (Levels.isTop_empty _) (fun l hl => absurd hl List.not_mem_nil)
  · obtain ⟨l, hl, hbest, hfirst⟩ := hcons hlevels
    have hprices : ∀ p ∈ (levels.map BookLevel.entry).map Prod.fst, Better ask l.price p := by
      intro p hp
      rw [List.map_map] at hp
      obtain ⟨other, hother, rfl⟩ := List.mem_map.mp hp
      exact hfirst other hother
    rw [hbest, Levels.isTop_iff_isBest _ _ _ l.price_pos.ne', Levels.isBest_ofList_iff _ _ _ hprices]
    constructor
    · intro hpos other hother hfirst'
      -- the levels listed first have one price
      have hsame : other.price = l.price := by
        have h₁ := hfirst other hother
        have h₂ := hfirst' l hl
        unfold Better at h₁ h₂
        split at h₁
        · rename_i hask
          rw [if_pos hask] at h₂
          exact le_antisymm h₂ h₁
        · rename_i hask
          rw [if_neg hask] at h₂
          exact le_antisymm h₁ h₂
      rw [hsame]
      exact hpos
    · exact fun hall => hall l hl hfirst

/-! ## One message -/

/-- The quote that the feed has for one side after a message about its token. -/
def ClobMessage.quoteAfter (ask : Bool) (quote : K) : ClobMessage K → K
  | .book bids asks => best ((sideLevels ask bids asks).map BookLevel.raw) ask
  | .priceChange changes => ((sideChanges ask changes).getLast?.map BookLevel.price).getD quote

/-- A snapshot sets both quotes of its token.
SOURCE: paper/feeds.py:206-216 -/
theorem applySnapshot_quote (side side' : TokenSide) (ask : Bool) (bids asks : List (BookLevel K))
    (book : CLOBBookSnapshot K) :
    (applySnapshot (some side) (bids.map BookLevel.raw) (asks.map BookLevel.raw) book).quote
        side' ask =
      if side' = side then best ((sideLevels ask bids asks).map BookLevel.raw) ask
      else book.quote side' ask := by
  cases side <;> cases side' <;> cases ask <;> rfl

/-- One change of a token sets the quote of its side.
SOURCE: paper/feeds.py:221-236 -/
theorem applyChange_quote (side side' : TokenSide) (ask ask' : Bool) (l : BookLevel K)
    (book : CLOBBookSnapshot K) :
    (applyChange (some side) book (rawChange (ask, l))).quote side' ask' =
      if side' = side ∧ ask' = ask then l.price else book.quote side' ask' := by
  cases side <;> cases side' <;> cases ask <;> cases ask' <;> rfl

/-- The changes of a message move each quote of the token to the last price of its side, and
leave the other token alone. -/
theorem applyChanges_quote (side side' : TokenSide) (ask : Bool)
    (changes : List (Bool × BookLevel K)) (book : CLOBBookSnapshot K) :
    ((changes.map rawChange).foldl (applyChange (some side)) book).quote side' ask =
      if side' = side then (ClobMessage.priceChange changes).quoteAfter ask (book.quote side' ask)
      else book.quote side' ask := by
  unfold ClobMessage.quoteAfter
  dsimp only
  induction changes using List.reverseRecOn with
  | nil =>
    split <;> rfl
  | append_singleton changes ch ih =>
    obtain ⟨ask', l⟩ := ch
    rw [List.map_append, List.foldl_append, List.map_singleton, List.foldl_cons, List.foldl_nil,
      applyChange_quote, ih]
    unfold sideChanges
    by_cases hside : side' = side
    · by_cases hask : ask' = ask
      · have hlast : (changes ++ [(ask', l)]).filter (fun ch => ch.1 = ask) =
            changes.filter (fun ch => ch.1 = ask) ++ [(ask', l)] := by
          rw [List.filter_append, List.filter_cons_of_pos (by simpa using hask), List.filter_nil]
        rw [if_pos ⟨hside, hask.symm⟩, if_pos hside, hlast, List.map_append,
          List.map_singleton, List.getLast?_concat]
        rfl
      · have hrest : (changes ++ [(ask', l)]).filter (fun ch => ch.1 = ask) =
            changes.filter (fun ch => ch.1 = ask) := by
          rw [List.filter_append, List.filter_cons_of_neg (by simpa using hask), List.filter_nil,
            List.append_nil]
        rw [if_neg fun h => hask h.2.symm, if_pos hside, if_pos hside, hrest]
    · rw [if_neg fun h => hside h.1, if_neg hside, if_neg hside]

/-- What the feed does with a message about one of its tokens. -/
def ClobMessage.applyTo (side : TokenSide) (book : CLOBBookSnapshot K) :
    ClobMessage K → CLOBBookSnapshot K
  | .book bids asks =>
    applySnapshot (some side) (bids.map BookLevel.raw) (asks.map BookLevel.raw) book
  | .priceChange changes => (changes.map rawChange).foldl (applyChange (some side)) book

/-- A message changes the quotes of its side. -/
theorem applyTo_quote (side side' : TokenSide) (ask : Bool) (m : ClobMessage K)
    (book : CLOBBookSnapshot K) :
    (m.applyTo side book).quote side' ask =
      if side' = side then m.quoteAfter ask (book.quote side' ask) else book.quote side' ask := by
  cases m with
  | book bids asks => exact applySnapshot_quote side side' ask bids asks book
  | priceChange changes => exact applyChanges_quote side side' ask changes book

omit [LinearOrder K] in
/-- The book of the market is there after `setdefault`. -/
theorem bookOf_setDefault (feed : ClobFeed K) (market : String) :
    ((feed.books.setDefault market .initial).get? market).getD .initial = feed.bookOf market := by
  unfold Dict.setDefault ClobFeed.bookOf
  split
  · rfl
  · rename_i hnone
    rw [Dict.get?_set_self, Option.not_isSome_iff_eq_none.mp hnone]
    rfl

/-- A message moves the book of the market of its token, and no other.
SOURCE: paper/feeds.py:198-236 -/
theorem applyClobEvent_bookOf (feed : ClobFeed K) (token market : String) (m : ClobMessage K) :
    (applyClobEvent (m.toEvent token) feed).bookOf market =
      match feed.resolve token with
      | none => feed.bookOf market
      | some (condition, side) =>
        if market = condition then m.applyTo side (feed.bookOf market)
        else feed.bookOf market := by
  have htoken : (textOr (textOr (m.toEvent token).assetId (m.toEvent token).market)
      (some "")).getD "" = token := by
    cases m <;> (by_cases hempty : token = "" <;> simp [ClobMessage.toEvent, textOr, hempty])
  unfold applyClobEvent TokenMaps.resolve
  dsimp only
  rw [htoken]
  cases hcondition : feed.tokenToCondition.get? token with
  | none => rfl
  | some condition =>
    obtain ⟨side, hside⟩ := Option.ne_none_iff_exists'.mp
      (feed.sided token (by rw [hcondition]; exact Option.some_ne_none _))
    rw [hside]
    dsimp only
    by_cases hempty : condition = ""
    · rw [if_pos hempty, if_pos hempty]
    · rw [if_neg hempty, if_neg hempty, bookOf_setDefault]
      have hset : ∀ book, (({ feed with
          books := (feed.books.setDefault condition .initial).set condition book } :
            ClobFeed K)).bookOf market = if market = condition then book else feed.bookOf market := by
        intro book
        unfold ClobFeed.bookOf
        dsimp only
        rw [Dict.get?_set]
        split
        · rfl
        · rename_i hother
          unfold Dict.setDefault
          split
          · rfl
          · rw [Dict.get?_set, if_neg hother]
      cases m with
      | book bids asks =>
        refine (hset _).trans ?_
        dsimp only
        split
        · rename_i hmarket
          rw [hmarket]
          rfl
        · rfl
      | priceChange changes =>
        refine (hset _).trans ?_
        dsimp only
        split
        · rename_i hmarket
          rw [hmarket]
          rfl
        · rfl

/-- What a message about a token does to the quotes of a market. -/
theorem applyClobEvent_quote (feed : ClobFeed K) (token market : String) (m : ClobMessage K)
    (side : TokenSide) (ask : Bool) :
    ((applyClobEvent (m.toEvent token) feed).bookOf market).quote side ask =
      if feed.resolve token = some (market, side) then
        m.quoteAfter ask ((feed.bookOf market).quote side ask)
      else (feed.bookOf market).quote side ask := by
  rw [applyClobEvent_bookOf]
  cases hresolve : feed.resolve token with
  | none => rw [if_neg (by simp)]
  | some target =>
    obtain ⟨condition, side'⟩ := target
    dsimp only
    by_cases hmarket : market = condition
    · subst hmarket
      have hsome : some (market, side') = some (market, side) ↔ side = side' := by
        rw [Option.some_inj, Prod.mk.injEq]
        exact (and_iff_right rfl).trans eq_comm
      rw [if_pos rfl, applyTo_quote]
      exact if_congr hsome.symm rfl rfl
    · rw [if_neg hmarket, if_neg]
      intro heq
      rw [Option.some_inj, Prod.mk.injEq] at heq
      exact hmarket heq.1.symm

/-! ## Sequences of messages -/

/-- The books of the two tokens of a market. -/
abbrev FullBook (K : Type) := TokenSide → Bool → Levels K K

/-- The book of a market after a message about some token. -/
def FullBook.apply (feed : ClobFeed K) (market : String) (book : FullBook K)
    (m : String × ClobMessage K) : FullBook K :=
  fun side ask =>
    if feed.resolve m.1 = some (market, side) then m.2.after ask (book side ask) else book side ask

/-- The book that a sequence of messages describes. -/
def fullBook (feed : ClobFeed K) (market : String) (msgs : List (String × ClobMessage K)) :
    FullBook K :=
  msgs.foldl (FullBook.apply feed market) fun _ _ => Levels.empty

/-- The feed after a sequence of messages. -/
def feedAfter (feed : ClobFeed K) (msgs : List (String × ClobMessage K)) : ClobFeed K :=
  msgs.foldl (fun feed m => applyClobEvent (m.2.toEvent m.1) feed) feed

/-- A feed that knows the tokens of its markets and has had no message. -/
def ClobFeed.start (tokens : TokenMaps) : ClobFeed K := ⟨tokens, Dict.empty⟩

section Sequences

variable (market : String)

/-- After the messages, the quotes of the market are the best levels of its books. -/
def TopsAgree (feed : ClobFeed K) (msgs : List (String × ClobMessage K)) : Prop :=
  ∀ side ask, Levels.IsTop (Better ask) (fullBook feed market msgs side ask)
    (((feedAfter feed msgs).bookOf market).quote side ask)

/-- A message about the market leaves the best level of each side where the feed looks for it. -/
def SetsTop (feed : ClobFeed K) (pre : List (String × ClobMessage K))
    (m : String × ClobMessage K) : Prop :=
  ∀ side, feed.resolve m.1 = some (market, side) →
    ∀ ask, m.2.SetsTop ask (fullBook feed market (pre ++ [m]) side ask)

omit [Field K] in
/-- A message about one side, when the quote was right before it. -/
theorem quoteAfter_isTop_iff [Field K] (ask : Bool) (side : Levels K K) (quote : K)
    (m : ClobMessage K) (h : Levels.IsTop (Better ask) side quote) :
    Levels.IsTop (Better ask) (m.after ask side) (m.quoteAfter ask quote) ↔
      m.SetsTop ask (m.after ask side) := by
  cases m with
  | book bids asks => exact isTop_best_iff ask (sideLevels ask bids asks)
  | priceChange changes =>
    unfold ClobMessage.after ClobMessage.quoteAfter ClobMessage.SetsTop
    dsimp only
    generalize sideChanges ask changes = levels
    cases levels using List.reverseRecOn with
    | nil =>
      -- no change of this side: book and quote stay
      exact iff_of_true h (fun l hl => by cases hl)
    | append_singleton levels l =>
      rw [List.getLast?_concat, Option.map_some, Option.getD_some,
        Levels.isTop_iff_isBest _ _ _ l.price_pos.ne']
      constructor
      · intro hbest l' hl'
        obtain rfl := Option.some_inj.mp hl'
        exact hbest
      · exact fun hall => hall l rfl

/-- Messages do not change what the tokens stand for. -/
theorem feedAfter_resolve (feed : ClobFeed K) (msgs : List (String × ClobMessage K))
    (token : String) : (feedAfter feed msgs).resolve token = feed.resolve token := by
  have hstep : ∀ (ev : ClobEvent K) (feed : ClobFeed K),
      (applyClobEvent ev feed).resolve token = feed.resolve token := by
    intro ev feed
    unfold applyClobEvent
    dsimp only
    split
    · rfl
    · split
      · rfl
      · split
        · rfl
        · split <;> rfl
  unfold feedAfter
  induction msgs generalizing feed with
  | nil => rfl
  | cons m msgs ih => exact (ih _).trans (hstep _ feed)

/-- **One message.** When the quotes were right before it, they are right after it exactly when
it leaves the best levels where the feed looks for them. -/
theorem topsAgree_concat_iff (feed : ClobFeed K) (pre : List (String × ClobMessage K))
    (m : String × ClobMessage K) (h : TopsAgree market feed pre) :
    TopsAgree market feed (pre ++ [m]) ↔ SetsTop market feed pre m := by
  have hfeed : feedAfter feed (pre ++ [m]) =
      applyClobEvent (m.2.toEvent m.1) (feedAfter feed pre) := List.foldl_append
  have hbook : ∀ side ask, fullBook feed market (pre ++ [m]) side ask =
      if feed.resolve m.1 = some (market, side) then
        m.2.after ask (fullBook feed market pre side ask)
      else fullBook feed market pre side ask := by
    intro side ask
    unfold fullBook
    rw [List.foldl_append]
    rfl
  unfold TopsAgree SetsTop
  constructor
  · intro hafter side hresolve ask
    have htop := hafter side ask
    rw [hfeed, applyClobEvent_quote, feedAfter_resolve, if_pos hresolve, hbook,
      if_pos hresolve] at htop
    rw [hbook, if_pos hresolve]
    exact (quoteAfter_isTop_iff ask _ _ m.2 (h side ask)).mp htop
  · intro hsets side ask
    rw [hfeed, applyClobEvent_quote, feedAfter_resolve, hbook]
    by_cases hresolve : feed.resolve m.1 = some (market, side)
    · have hset := hsets side hresolve ask
      rw [hbook, if_pos hresolve] at hset
      rw [if_pos hresolve, if_pos hresolve]
      exact (quoteAfter_isTop_iff ask _ _ m.2 (h side ask)).mpr hset
    · rw [if_neg hresolve, if_neg hresolve]
      exact h side ask

/-- **The top of the book.** Over every sequence of messages, the quotes of a market are the best
levels of its books after each message exactly when each message leaves the best levels where the
feed looks for them.
SOURCE: paper/feeds.py:198-248 -/
theorem tops_agree_iff (tokens : TokenMaps) (msgs : List (String × ClobMessage K)) :
    Obeys (fun pre m => TopsAgree market (ClobFeed.start tokens) (pre ++ [m])) msgs ↔
      Obeys (SetsTop market (ClobFeed.start tokens)) msgs := by
  generalize hfeed : (ClobFeed.start tokens : ClobFeed K) = feed
  have hstart : TopsAgree market feed [] := by
    intro side ask
    rw [← hfeed]
    have hzero : ((ClobFeed.start tokens : ClobFeed K).bookOf market).quote side ask = 0 := by
      cases side <;> cases ask <;> rfl
    exact hzero ▸ Levels.isTop_empty (Better ask)
  induction msgs using List.reverseRecOn with
  | nil => exact iff_of_true Obeys.nil Obeys.nil
  | append_singleton pre m ih =>
    -- the quotes were right after the message before
    have hbefore : Obeys (fun pre m => TopsAgree market feed (pre ++ [m])) pre →
        TopsAgree market feed pre := by
      intro hpre
      cases pre using List.reverseRecOn with
      | nil => exact hstart
      | append_singleton pre' m' => exact ((Obeys.concat_iff pre' m').mp hpre).2
    rw [Obeys.concat_iff, Obeys.concat_iff]
    constructor
    · rintro ⟨hpre, hm⟩
      exact ⟨ih.mp hpre, (topsAgree_concat_iff market feed pre m (hbefore hpre)).mp hm⟩
    · rintro ⟨hpre, hm⟩
      have hagree := ih.mpr hpre
      exact ⟨hagree, (topsAgree_concat_iff market feed pre m (hbefore hagree)).mpr hm⟩

end Sequences

section Instance

/-- The tokens of one market. -/
def twoTokens : TokenMaps :=
  ⟨(Dict.empty.set "up" "0x1").set "down" "0x1",
    (Dict.empty.set "up" TokenSide.yes).set "down" TokenSide.no, by
      intro token htoken
      rw [Dict.get?_set, Dict.get?_set] at htoken ⊢
      split
      · simp
      · rename_i hdown
        rw [if_neg hdown] at htoken
        split
        · simp
        · rename_i hup
          rw [if_neg hup] at htoken
          exact absurd (Dict.get?_empty token) htoken⟩

/-- Bids at 0.50 and 0.45; then the size at 0.45 changes, and the feed takes it for the best bid.
SOURCE: paper/feeds.py:218-236 -/
theorem quote_below_best :
    ¬∀ (tokens : TokenMaps) (market : String) (msgs : List (String × ClobMessage ℚ)),
      Obeys (fun pre m => TopsAgree market (ClobFeed.start tokens) (pre ++ [m])) msgs := by
  intro h
  have hagree := h twoTokens "0x1"
    [("up", .book [⟨1 / 2, 100, by decide +kernel, by decide +kernel⟩,
      ⟨9 / 20, 50, by decide +kernel, by decide +kernel⟩] []),
    ("up", .priceChange [(false, ⟨9 / 20, 10, by decide +kernel, by decide +kernel⟩)])]
    [_] _ [] rfl .yes false
  have hbest := (Levels.isTop_iff_isBest _ _ _ (by decide +kernel)).mp hagree
  have hbetter := hbest.2 (1 / 2) (by decide +kernel)
  exact absurd hbetter (by unfold Better; decide +kernel)

end Instance

end TradingEdge.Analysis
