import Mathlib.Logic.Function.Basic
import TradingEdge.Program.MarketFeed

/-!
# The maps of the feed and its subscriptions

Three tasks write to the state of the paper engine's feed: the two refreshes of the markets and
the CLOB task.  If a token belongs to one market only, the maps of the tokens are exactly the
index of the listed markets by token (`feed_coherent`), so a dropped market leaves nothing behind
and gets no book again.  Within a connection each token is subscribed to once, and after a wake-up
of its loop both tokens of every listed market are (`subscriptions_complete`).
-/

set_option autoImplicit false

namespace TradingEdge.Analysis

open TradingEdge.Model TradingEdge.Library TradingEdge.Program

variable {K : Type}

/-! ## Tokens of markets -/

/-- The API gives each market its two tokens. -/
def GivesTokens (tokenOn : String → TokenSide → String) (g : GammaMarket) : Prop :=
  ∀ c, g.conditionId = some c → g.tokens.length = 2 → g.tokens = [tokenOn c .yes, tokenOn c .no]

/-- The answers of a label give each market its two tokens. -/
def AnswersTokens (tokenOn : String → TokenSide → String) : MarketFeedLabel K → Prop
  | .list _ _ events => ∀ g ∈ events, GivesTokens tokenOn g
  | _ => True

/-- What the two maps have for a token. -/
def tokenEntry (maps : TokenMaps) (t : String) : Option String × Option TokenSide :=
  (maps.tokenToCondition.get? t, maps.tokenSide.get? t)

/-- The maps of the tokens are the index of the listed markets, and only these have books. -/
structure FeedCoherent (tokenOn : String → TokenSide → String) (s : MarketFeed K) : Prop where
  tokens : ∀ c m, s.markets.get? c = some m →
    m.yesTokenId = tokenOn c .yes ∧ m.noTokenId = tokenOn c .no
  mapped : ∀ c side, s.markets.get? c ≠ none →
    tokenEntry s.toTokenMaps (tokenOn c side) = (some c, some side)
  unmapped : ∀ t, (∀ c side, s.markets.get? c ≠ none → t ≠ tokenOn c side) →
    tokenEntry s.toTokenMaps t = (none, none)
  books : ∀ c, s.books.get? c ≠ none → s.markets.get? c ≠ none

/-- The feed that knows no market is coherent. -/
theorem feedCoherent_empty (tokenOn : String → TokenSide → String) :
    FeedCoherent tokenOn (MarketFeed.empty : MarketFeed K) where
  tokens := by
    intro c m h
    cases h
  mapped := fun c side h => absurd rfl h
  unmapped := fun t _ => rfl
  books := fun c h => absurd rfl h

/-- A token that is mapped belongs to a listed market. -/
theorem FeedCoherent.listed_of_mapped {tokenOn : String → TokenSide → String} {s : MarketFeed K}
    (h : FeedCoherent tokenOn s) {t c : String} (ht : s.tokenToCondition.get? t = some c) :
    s.markets.get? c ≠ none ∧ ∃ side, t = tokenOn c side := by
  by_cases hno : ∀ c side, s.markets.get? c ≠ none → t ≠ tokenOn c side
  · have hnone : s.tokenToCondition.get? t = none := congrArg Prod.fst (h.unmapped t hno)
    rw [hnone] at ht
    cases ht
  · push Not at hno
    obtain ⟨c', side, hc', rfl⟩ := hno
    have hsome : s.tokenToCondition.get? (tokenOn c' side) = some c' :=
      congrArg Prod.fst (h.mapped c' side hc')
    rw [hsome] at ht
    obtain rfl : c' = c := Option.some.inj ht
    exact ⟨hc', side, rfl⟩

/-! ## One step -/

/-- Adding a token changes its entry only. -/
theorem tokenEntry_add (maps : TokenMaps) (token condition t : String) (side : TokenSide) :
    tokenEntry (maps.add token condition side) t =
      if t = token then (some condition, some side) else tokenEntry maps t := by
  simp only [tokenEntry, TokenMaps.add, Dict.get?_set]
  split <;> rfl

/-- Dropping a token clears its entry only. -/
theorem tokenEntry_drop (maps : TokenMaps) (token t : String) :
    tokenEntry (maps.drop token) t = if t = token then (none, none) else tokenEntry maps t := by
  simp only [tokenEntry, TokenMaps.drop, Dict.get?_pop]
  split <;> rfl

/-- A market that is entered under its own tokens keeps the feed coherent. -/
theorem feedCoherent_enter {tokenOn : String → TokenSide → String}
    (hinj : Function.Injective2 tokenOn) {s : MarketFeed K} (h : FeedCoherent tokenOn s)
    {m : ListedMarket K} (hyes : m.yesTokenId = tokenOn m.conditionId .yes)
    (hno : m.noTokenId = tokenOn m.conditionId .no) : FeedCoherent tokenOn (s.enter m) := by
  have hentry : ∀ t, tokenEntry (s.enter m).toTokenMaps t =
      if t = tokenOn m.conditionId .no then (some m.conditionId, some .no)
      else if t = tokenOn m.conditionId .yes then (some m.conditionId, some .yes)
      else tokenEntry s.toTokenMaps t := by
    intro t
    rw [MarketFeed.enter, tokenEntry_add, tokenEntry_add, hyes, hno]
  have hget : ∀ c, (s.enter m).markets.get? c =
      if c = m.conditionId then some m else s.markets.get? c :=
    fun c => Dict.get?_set _ _ _ _
  constructor
  · intro c m' hm'
    rw [hget] at hm'
    by_cases hc : c = m.conditionId
    · rw [if_pos hc] at hm'
      obtain rfl := Option.some.inj hm'
      rw [hc]
      exact ⟨hyes, hno⟩
    · rw [if_neg hc] at hm'
      exact h.tokens c m' hm'
  · intro c side hc
    rw [hget] at hc
    rw [hentry]
    by_cases heq : c = m.conditionId
    · subst heq
      cases side with
      | no => rw [if_pos rfl]
      | yes =>
        have hsides : tokenOn m.conditionId .yes ≠ tokenOn m.conditionId .no :=
          fun hsame => nomatch (hinj hsame).2
        rw [if_neg hsides, if_pos rfl]
    · rw [if_neg heq] at hc
      rw [if_neg fun hsame => heq (hinj hsame).1, if_neg fun hsame => heq (hinj hsame).1]
      exact h.mapped c side hc
  · intro t ht
    have hself : ∀ side, t ≠ tokenOn m.conditionId side := by
      intro side
      refine ht m.conditionId side ?_
      rw [hget, if_pos rfl]
      simp
    rw [hentry, if_neg (hself .no), if_neg (hself .yes)]
    refine h.unmapped t fun c side hc => ht c side ?_
    rw [hget]
    split
    · simp
    · exact hc
  · intro c hc
    rw [hget]
    split
    · simp
    · exact h.books c hc

/-- A market is dropped with all that is kept of it. -/
theorem feedCoherent_drop {tokenOn : String → TokenSide → String}
    (hinj : Function.Injective2 tokenOn) {s : MarketFeed K} (h : FeedCoherent tokenOn s)
    {c : String} {m : ListedMarket K} (hm : s.markets.get? c = some m) :
    FeedCoherent tokenOn (s.drop c m) := by
  obtain ⟨hyes, hno⟩ := h.tokens c m hm
  have hentry : ∀ t, tokenEntry (s.drop c m).toTokenMaps t =
      if t = tokenOn c .no then (none, none)
      else if t = tokenOn c .yes then (none, none) else tokenEntry s.toTokenMaps t := by
    intro t
    rw [MarketFeed.drop, tokenEntry_drop, tokenEntry_drop, hyes, hno]
  have hget : ∀ c', (s.drop c m).markets.get? c' =
      if c' = c then none else s.markets.get? c' :=
    fun c' => Dict.get?_pop _ _ _
  constructor
  · intro c' m' hm'
    rw [hget] at hm'
    split at hm'
    · cases hm'
    · exact h.tokens c' m' hm'
  · intro c' side hc'
    rw [hget] at hc'
    by_cases heq : c' = c
    · rw [if_pos heq] at hc'
      exact absurd rfl hc'
    · rw [if_neg heq] at hc'
      rw [hentry, if_neg fun hsame => heq (hinj hsame).1, if_neg fun hsame => heq (hinj hsame).1]
      exact h.mapped c' side hc'
  · intro t ht
    rw [hentry]
    by_cases hself : ∃ side, t = tokenOn c side
    · obtain ⟨side, rfl⟩ := hself
      cases side with
      | no => rw [if_pos rfl]
      | yes =>
        rw [if_pos (rfl : tokenOn c .yes = tokenOn c .yes), ite_self]
    · push Not at hself
      rw [if_neg (hself .no), if_neg (hself .yes)]
      refine h.unmapped t fun c' side hc' => ?_
      by_cases heq : c' = c
      · rw [heq]
        exact hself side
      · refine ht c' side ?_
        rw [hget, if_neg heq]
        exact hc'
  · intro c' hc'
    have hbook : (s.books.pop c).get? c' ≠ none := hc'
    rw [Dict.get?_pop] at hbook
    rw [hget]
    split at hbook
    · exact absurd rfl hbook
    · next heq =>
      rw [if_neg heq]
      exact h.books c' hbook

/-- A message leaves the maps alone, and it makes a book only for a mapped token. -/
theorem applyClobEvent_keeps [Field K] [LinearOrder K] (ev : ClobEvent K) (feed : ClobFeed K) :
    (applyClobEvent ev feed).toTokenMaps = feed.toTokenMaps ∧
      ∀ c, (applyClobEvent ev feed).books.get? c ≠ none →
        feed.books.get? c ≠ none ∨ ∃ t, feed.tokenToCondition.get? t = some c := by
  unfold applyClobEvent
  dsimp only
  split
  · exact ⟨rfl, fun c hc => .inl hc⟩
  · next condition hcondition =>
    have hbooks : ∀ c, (feed.books.setDefault condition .initial).get? c ≠ none →
        feed.books.get? c ≠ none ∨ ∃ t, feed.tokenToCondition.get? t = some c := by
      intro c hc
      by_cases heq : c = condition
      · exact .inr ⟨_, heq ▸ hcondition⟩
      · refine .inl ?_
        unfold Dict.setDefault at hc
        split at hc
        · exact hc
        · rwa [Dict.get?_set, if_neg heq] at hc
    have hset : ∀ c book, ((feed.books.setDefault condition .initial).set condition book).get? c ≠
        none → feed.books.get? c ≠ none ∨ ∃ t, feed.tokenToCondition.get? t = some c := by
      intro c book hc
      rw [Dict.get?_set] at hc
      by_cases heq : c = condition
      · exact .inr ⟨_, heq ▸ hcondition⟩
      · rw [if_neg heq] at hc
        exact hbooks c hc
    split
    · exact ⟨rfl, fun c hc => .inl hc⟩
    · split
      · exact ⟨rfl, fun c hc => hset c _ hc⟩
      · split
        · exact ⟨rfl, fun c hc => hset c _ hc⟩
        · exact ⟨rfl, fun c hc => hbooks c hc⟩

/-! ## Whole runs -/

variable [Field K] [LinearOrder K]

/-- A listing keeps the feed coherent. -/
theorem feedCoherent_list {tokenOn : String → TokenSide → String}
    (hinj : Function.Injective2 tokenOn) {s : MarketFeed K} (h : FeedCoherent tokenOn s)
    (families : List String) (now : K) {g : GammaMarket} (hg : GivesTokens tokenOn g) :
    FeedCoherent tokenOn (s.list families now g) := by
  unfold MarketFeed.list
  split
  · next conditionId closeTs yesId noId haccept htokens =>
    have hcond : g.conditionId = some conditionId := by
      unfold acceptMarket at haccept
      split at haccept
      · cases haccept
      · split at haccept
        · next hclose hid =>
          split at haccept
          · cases haccept
          · cases haccept
            exact hid
        · cases haccept
    have hpair := hg conditionId hcond (by rw [htokens]; rfl)
    rw [htokens] at hpair
    obtain ⟨hyes, hrest⟩ := List.cons_eq_cons.mp hpair
    obtain ⟨hno, -⟩ := List.cons_eq_cons.mp hrest
    exact feedCoherent_enter hinj h hyes hno
  · exact h

/-- Dropping the expired markets keeps the feed coherent. -/
theorem feedCoherent_dropExpired {tokenOn : String → TokenSide → String}
    (hinj : Function.Injective2 tokenOn) {s : MarketFeed K} (h : FeedCoherent tokenOn s) (now : K) :
    FeedCoherent tokenOn (s.dropExpired now) := by
  unfold MarketFeed.dropExpired
  generalize s.markets.entries.map Prod.fst = conditions
  induction conditions generalizing s with
  | nil => exact h
  | cons c conditions ih =>
    refine ih ?_
    unfold MarketFeed.dropIfExpired
    split
    · exact h
    · next m hm =>
      split
      · exact feedCoherent_drop hinj h hm
      · exact h

/-- Messages keep the feed coherent: they change books, not tokens. -/
theorem feedCoherent_messages {tokenOn : String → TokenSide → String} {s : MarketFeed K}
    (h : FeedCoherent tokenOn s) (events : List (ClobEvent K)) :
    FeedCoherent tokenOn
      { s with toClobFeed := events.foldl (fun feed ev => applyClobEvent ev feed) s.toClobFeed } := by
  have hkeeps : ∀ (feed : ClobFeed K), feed.toTokenMaps = s.toTokenMaps →
      (∀ c, feed.books.get? c ≠ none → s.markets.get? c ≠ none) →
      (events.foldl (fun feed ev => applyClobEvent ev feed) feed).toTokenMaps = s.toTokenMaps ∧
        ∀ c, (events.foldl (fun feed ev => applyClobEvent ev feed) feed).books.get? c ≠ none →
          s.markets.get? c ≠ none := by
    induction events with
    | nil => exact fun feed hmaps hbooks => ⟨hmaps, hbooks⟩
    | cons ev events ih =>
      intro feed hmaps hbooks
      obtain ⟨hsame, hnew⟩ := applyClobEvent_keeps ev feed
      refine ih _ (hsame.trans hmaps) fun c hc => ?_
      rcases hnew c hc with hold | ⟨t, ht⟩
      · exact hbooks c hold
      · have ht' : s.tokenToCondition.get? t = some c := by
          rw [← hmaps]
          exact ht
        exact (h.listed_of_mapped ht').1
  obtain ⟨hmaps, hbooks⟩ := hkeeps s.toClobFeed rfl h.books
  refine ⟨h.tokens, fun c side hc => ?_, fun t ht => ?_, hbooks⟩
  · show tokenEntry (events.foldl (fun feed ev => applyClobEvent ev feed)
      s.toClobFeed).toTokenMaps (tokenOn c side) = _
    rw [hmaps]
    exact h.mapped c side hc
  · show tokenEntry (events.foldl (fun feed ev => applyClobEvent ev feed)
      s.toClobFeed).toTokenMaps t = _
    rw [hmaps]
    exact h.unmapped t ht

/-- Every step keeps the feed coherent. -/
theorem feedCoherent_step {tokenOn : String → TokenSide → String}
    (hinj : Function.Injective2 tokenOn) {s : FeedSystem K} (h : FeedCoherent tokenOn s.feed)
    {l : MarketFeedLabel K} (hl : AnswersTokens tokenOn l) :
    FeedCoherent tokenOn (feedMachine.next s l).feed := by
  cases l with
  | list families now events =>
    have hevents : ∀ g ∈ events, GivesTokens tokenOn g := hl
    show FeedCoherent tokenOn (events.foldl (MarketFeed.list families now) s.feed)
    generalize s.feed = feed at h ⊢
    clear hl
    induction events generalizing feed with
    | nil => exact h
    | cons g events ih =>
      obtain ⟨hg, hrest⟩ := List.forall_mem_cons.mp hevents
      exact ih hrest _ (feedCoherent_list hinj h families now hg)
  | dropExpired now => exact feedCoherent_dropExpired hinj h now
  | dial =>
    show FeedCoherent tokenOn (s.step .dial).1.feed
    simp only [FeedSystem.step]
    split
    · split <;> exact h
    · exact h
  | connect =>
    show FeedCoherent tokenOn (s.step .connect).1.feed
    simp only [FeedSystem.step]
    split <;> exact h
  | diff sent =>
    show FeedCoherent tokenOn (s.step (.diff sent)).1.feed
    simp only [FeedSystem.step]
    split
    · split
      · exact h
      · split <;> exact h
    · exact h
  | message events =>
    show FeedCoherent tokenOn (s.step (.message events)).1.feed
    simp only [FeedSystem.step]
    split
    · exact feedCoherent_messages h events
    · exact h
  | disconnect => exact h

/-- Nothing is listed and nobody is connected. -/
def feedStart : FeedSystem K := ⟨.empty, .idle⟩

/-- **The maps of the feed are one index.** If tokens belong to one market each and the API says
which, then in every state the feed reaches, whatever order its tasks run in: a token is mapped
exactly if it is one of the two of a listed market, to this market and its own side, and only
listed markets have a book. -/
theorem feed_coherent (tokenOn : String → TokenSide → String) (hinj : Function.Injective2 tokenOn)
    (ls : List (MarketFeedLabel K)) (hls : ∀ l ∈ ls, AnswersTokens tokenOn l) :
    FeedCoherent tokenOn (feedMachine.final feedStart ls).feed := by
  induction ls using List.reverseRecOn with
  | nil => exact feedCoherent_empty tokenOn
  | append_singleton ls l ih =>
    obtain ⟨hbefore, hlast⟩ := List.forall_mem_append.mp hls
    rw [Machine.final_concat]
    exact feedCoherent_step hinj (ih hbefore) (hlast l (List.mem_singleton.mpr rfl))

/-- The tokens of a market named after it. -/
def namedTokens (c : String) : TokenSide → String
  | .yes => "y" ++ c
  | .no => "n" ++ c

/-- These tokens are different for different markets and sides. -/
theorem namedTokens_injective : Function.Injective2 namedTokens := by
  intro c c' side side' h
  have hlist := congrArg String.toList h
  cases side <;> cases side' <;>
    simp only [namedTokens, String.toList_append] at hlist
  · exact ⟨String.toList_inj.mp (List.append_cancel_left hlist), rfl⟩
  · exact absurd (List.cons_eq_cons.mp hlist).1 (by decide)
  · exact absurd (List.cons_eq_cons.mp hlist).1 (by decide)
  · exact ⟨String.toList_inj.mp (List.append_cancel_left hlist), rfl⟩

/-- A market is listed, the task connects, another market is listed and the loop wakes up. -/
def twoListings : List (MarketFeedLabel ℚ) :=
  [.list ["btc-updown-5m-"] 0
      [⟨false, "btc-updown-5m-300", some 300, some "A", ["yA", "nA"]⟩],
    .dial, .connect,
    .list ["btc-updown-5m-"] 30
      [⟨false, "btc-updown-5m-600", some 600, some "B", ["yB", "nB"]⟩],
    .diff true]

/-- The two listings answer with the tokens of their markets. -/
theorem twoListings_answers : ∀ l ∈ twoListings, AnswersTokens namedTokens l := by
  intro l hl
  simp only [twoListings, List.mem_cons, List.not_mem_nil, or_false] at hl
  rcases hl with rfl | rfl | rfl | rfl | rfl
  · intro g hg c hc _
    obtain rfl := List.mem_singleton.mp hg
    cases hc
    rfl
  · trivial
  · trivial
  · intro g hg c hc _
    obtain rfl := List.mem_singleton.mp hg
    cases hc
    rfl
  · trivial

/-- The feed is coherent after the two listings. -/
theorem feed_coherent_twoListings :
    FeedCoherent namedTokens (feedMachine.final feedStart twoListings).feed :=
  feed_coherent namedTokens namedTokens_injective twoListings twoListings_answers

/-! ## The markets alone

Without their tokens the listed markets are the map that `refreshMarkets` keeps.
-/

/-- The listed markets are those of a map, tokens apart. -/
def SameMarkets (s : MarketFeed K) (markets : Dict String (MarketMeta K)) : Prop :=
  ∀ c, (s.markets.get? c).map (·.toMarketMeta) = markets.get? c

/-- A listing adds the same market to both dictionaries. -/
theorem sameMarkets_list {s : MarketFeed K} {markets : Dict String (MarketMeta K)}
    (h : SameMarkets s markets) (families : List String) (now : K) (g : GammaMarket) :
    SameMarkets (s.list families now g) (addMarket families now markets g) := by
  intro c
  unfold MarketFeed.list addMarket
  cases haccept : acceptMarket families now g with
  | none => exact h c
  | some accepted =>
    obtain ⟨conditionId, closeTs⟩ := accepted
    obtain ⟨yesId, noId, htokens⟩ : ∃ yesId noId, g.tokens = [yesId, noId] := by
      refine List.length_eq_two.mp ?_
      by_contra hlength
      unfold acceptMarket at haccept
      simp only [hlength, ne_eq, not_false_eq_true, or_true, if_true] at haccept
      split at haccept
      · cases haccept
      · split at haccept <;> cases haccept
    have hold := h conditionId
    rw [htokens]
    show ((s.markets.set conditionId _).get? c).map (·.toMarketMeta) =
      (markets.set conditionId _).get? c
    rw [Dict.get?_set, Dict.get?_set]
    by_cases hc : c = conditionId
    · rw [if_pos hc, if_pos hc, ← hold]
      cases s.markets.get? conditionId <;> rfl
    · rw [if_neg hc, if_neg hc]
      exact h c

/-- One market of the loop leaves the map exactly when it has expired. -/
theorem get?_dropIfExpired (cutoff : K) (s : MarketFeed K) (first c : String) :
    (s.dropIfExpired cutoff first).markets.get? c =
      if c = first then (s.markets.get? c).filter fun m => ¬(m.windowCloseTs : K) < cutoff
      else s.markets.get? c := by
  unfold MarketFeed.dropIfExpired
  by_cases hc : c = first
  · subst hc
    rw [if_pos rfl]
    cases hm : s.markets.get? c with
    | none =>
      show s.markets.get? c = _
      rw [hm]
      rfl
    | some m =>
      by_cases hexpired : (m.windowCloseTs : K) < cutoff
      · simp [hexpired, MarketFeed.drop, Option.filter]
      · simp [hm, hexpired, Option.filter]
  · have hsame : ∀ m, (s.drop first m).markets.get? c = s.markets.get? c := by
      intro m
      show (s.markets.pop first).get? c = _
      rw [Dict.get?_pop, if_neg hc]
    rw [if_neg hc]
    split
    · rfl
    · split
      · exact hsame _
      · rfl

/-- A market leaves the map exactly when it has expired. -/
theorem get?_dropExpired (s : MarketFeed K) (now : K) (c : String) :
    (s.dropExpired now).markets.get? c =
      (s.markets.get? c).filter fun m => ¬(m.windowCloseTs : K) < now - 300 := by
  have hfold : ∀ (conditions : List String) (s : MarketFeed K),
      (conditions.foldl (MarketFeed.dropIfExpired (now - 300)) s).markets.get? c =
      if c ∈ conditions then
        (s.markets.get? c).filter fun m => ¬(m.windowCloseTs : K) < now - 300
      else s.markets.get? c := by
    intro conditions
    induction conditions with
    | nil => exact fun s => rfl
    | cons first conditions ih =>
      intro s
      rw [List.foldl_cons, ih, get?_dropIfExpired]
      by_cases hc : c = first
      · simp [hc]
      · simp [hc]
  refine (hfold (s.markets.entries.map Prod.fst) s).trans ?_
  by_cases hmem : c ∈ s.markets.entries.map Prod.fst
  · rw [if_pos hmem]
  · rw [if_neg hmem, (Dict.get?_eq_none_iff _ _).mpr hmem]
    rfl

/-- The expired markets leave both dictionaries. -/
theorem sameMarkets_dropExpired {s : MarketFeed K} {markets : Dict String (MarketMeta K)}
    (h : SameMarkets s markets) (now : K) :
    SameMarkets (s.dropExpired now) (dropExpired now markets) := by
  intro c
  have hpops : ∀ (expired : List (String × MarketMeta K)) (ms : Dict String (MarketMeta K)),
      (expired.foldl (fun ms e => ms.pop e.1) ms).get? c =
        if c ∈ expired.map Prod.fst then none else ms.get? c := by
    intro expired
    induction expired with
    | nil => exact fun ms => rfl
    | cons e expired ih =>
      intro ms
      rw [List.foldl_cons, ih, Dict.get?_pop]
      by_cases hc : c = e.1
      · simp [hc]
      · rw [if_neg hc, List.map_cons]
        simp only [List.mem_cons, hc, false_or]
  rw [get?_dropExpired]
  unfold dropExpired
  dsimp only
  rw [hpops, ← h c]
  cases hm : s.markets.get? c with
  | none =>
    have hnone : markets.get? c = none := by rw [← h c, hm]; rfl
    simp
  | some m =>
    have hsome : markets.get? c = some m.toMarketMeta := by rw [← h c, hm]; rfl
    by_cases hexpired : (m.windowCloseTs : K) < now - 300
    · have hmem : c ∈ (markets.entries.filter fun e =>
          (e.2.windowCloseTs : K) < now - 300).map Prod.fst := by
        refine List.mem_map.mpr ⟨(c, m.toMarketMeta), List.mem_filter.mpr ⟨?_, ?_⟩, rfl⟩
        · exact (Dict.mem_entries_iff _ _ _).mpr hsome
        · exact decide_eq_true hexpired
      rw [if_pos hmem]
      simp [hexpired, Option.filter]
    · have hnot : c ∉ (markets.entries.filter fun e =>
          (e.2.windowCloseTs : K) < now - 300).map Prod.fst := by
        intro hmem
        obtain ⟨⟨c', m'⟩, he, rfl⟩ := List.mem_map.mp hmem
        obtain ⟨hin, hold⟩ := List.mem_filter.mp he
        have heq := (Dict.mem_entries_iff _ _ _).mp hin
        rw [hsome] at heq
        obtain rfl := Option.some.inj heq
        exact hexpired (of_decide_eq_true hold)
      rw [if_neg hnot]
      simp [hexpired, Option.filter]

/-- **The tokens are an addition.** The markets that the feed lists are those of the refresh alone,
over any answers. -/
theorem sameMarkets_refresh {s : MarketFeed K} {markets : Dict String (MarketMeta K)}
    (h : SameMarkets s markets) (now : K) (answer : Refresh) :
    SameMarkets
      (match answer with
        | .series family events => (events.foldl (MarketFeed.list [family] now) s).dropExpired now
        | .globalPage events => events.foldl (MarketFeed.list families15m now) s)
      (refreshMarkets now markets answer) := by
  have hfold : ∀ (families : List String) (events : List GammaMarket) (s : MarketFeed K)
      (ms : Dict String (MarketMeta K)), SameMarkets s ms →
      SameMarkets (events.foldl (MarketFeed.list families now) s)
        (events.foldl (addMarket families now) ms) := by
    intro families events
    induction events with
    | nil => exact fun s ms hsame => hsame
    | cons g events ih => exact fun s ms hsame => ih _ _ (sameMarkets_list hsame families now g)
  cases answer with
  | series family events => exact sameMarkets_dropExpired (hfold _ events s markets h) now
  | globalPage events => exact hfold _ events s markets h

/-! ## Subscriptions -/

/-- What a note adds to the subscriptions of the connection. -/
def addSubscriptions (tokens : List String) : FeedNote → List String
  | .connected => []
  | .subscribed new => tokens ++ new

/-- What was subscribed to since the last connection. -/
def subscriptions (notes : List FeedNote) : List String := notes.foldl addSubscriptions []

/-- The CLOB task knows what it has subscribed to. -/
def LinkTracks (s : FeedSystem K) (notes : List FeedNote) : Prop :=
  match s.link with
  | .idle => True
  | .connecting tokens => tokens.Nodup
  | .connected knownTokens _ => subscriptions notes = knownTokens ∧ knownTokens.Nodup

/-- No token is in the map twice. -/
theorem nodup_tokens (maps : TokenMaps) : maps.tokens.Nodup := maps.tokenToCondition.nodup_keys

/-- Every step keeps what the link knows of its subscriptions. -/
theorem linkTracks_step {s : FeedSystem K} {notes : List FeedNote} (h : LinkTracks s notes)
    (l : MarketFeedLabel K) :
    LinkTracks (feedMachine.next s l) (notes ++ feedMachine.emits s l) := by
  obtain ⟨feed, link⟩ := s
  cases l with
  | list families now events =>
    show LinkTracks ⟨_, link⟩ (notes ++ [])
    rw [List.append_nil]
    exact h
  | dropExpired now =>
    show LinkTracks ⟨_, link⟩ (notes ++ [])
    rw [List.append_nil]
    exact h
  | dial =>
    cases link with
    | idle =>
      show LinkTracks (FeedSystem.step ⟨feed, .idle⟩ .dial).1 (notes ++ _)
      simp only [FeedSystem.step]
      split
      · trivial
      · exact nodup_tokens feed.toTokenMaps
    | _ => exact (List.append_nil notes).symm ▸ h
  | connect =>
    cases link with
    | connecting tokens =>
      have hnew : subscriptions (notes ++ [.connected, .subscribed tokens]) = tokens := by
        rw [subscriptions, List.foldl_append]
        rfl
      exact ⟨hnew, h⟩
    | _ => exact (List.append_nil notes).symm ▸ h
  | diff sent =>
    cases link with
    | connected knownTokens diffLoop =>
      cases diffLoop with
      | false => exact (List.append_nil notes).symm ▸ h
      | true =>
        obtain ⟨hknown, hnodup⟩ := h
        show LinkTracks (FeedSystem.step ⟨feed, .connected knownTokens true⟩ (.diff sent)).1
          (notes ++ (FeedSystem.step ⟨feed, .connected knownTokens true⟩ (.diff sent)).2)
        simp only [FeedSystem.step]
        split
        · exact ⟨(List.append_nil notes).symm ▸ hknown, hnodup⟩
        · split
          · refine ⟨?_, ?_⟩
            · rw [subscriptions, List.foldl_append]
              exact congrArg (· ++ _) hknown
            · refine List.Nodup.append hnodup ((nodup_tokens feed.toTokenMaps).filter _) ?_
              intro t ht hnew
              exact of_decide_eq_true (List.mem_filter.mp hnew).2 ht
          · exact ⟨(List.append_nil notes).symm ▸ hknown, hnodup⟩
    | _ => exact (List.append_nil notes).symm ▸ h
  | message events =>
    cases link with
    | connected knownTokens diffLoop => exact (List.append_nil notes).symm ▸ h
    | _ => exact (List.append_nil notes).symm ▸ h
  | disconnect => trivial

/-- So does a run. -/
theorem linkTracks_run (ls : List (MarketFeedLabel K)) :
    LinkTracks (feedMachine.final feedStart ls) (feedMachine.trace feedStart ls) := by
  induction ls using List.reverseRecOn with
  | nil => trivial
  | append_singleton ls l ih =>
    rw [Machine.final_concat, Machine.trace_concat]
    exact linkTracks_step ih l

/-- A wake-up of the loop that goes through leaves no mapped token out. -/
theorem mem_known_of_diff {s : FeedSystem K} {knownTokens : List String}
    (h : (feedMachine.next s (.diff true)).link = .connected knownTokens true) (t : String)
    (ht : t ∈ (feedMachine.next s (.diff true)).feed.tokens) : t ∈ knownTokens := by
  obtain ⟨feed, link⟩ := s
  cases link with
  | idle => cases h
  | connecting tokens => cases h
  | connected before diffLoop =>
    cases diffLoop with
    | false => cases h
    | true =>
      have hstep : FeedSystem.step ⟨feed, .connected before true⟩ (.diff true) =
          if feed.tokens.filter (· ∉ before) = [] then (⟨feed, .connected before true⟩, [])
          else (⟨feed, .connected (before ++ feed.tokens.filter (· ∉ before)) true⟩,
            [.subscribed (feed.tokens.filter (· ∉ before))]) := by
        simp only [FeedSystem.step, if_true]
      change (FeedSystem.step _ _).1.link = _ at h
      change t ∈ (FeedSystem.step _ _).1.feed.tokens at ht
      rw [hstep] at h ht
      by_cases hnone : feed.tokens.filter (· ∉ before) = []
      · rw [if_pos hnone] at h ht
        cases h
        by_contra hnot
        have hmem : t ∈ feed.tokens.filter (· ∉ knownTokens) :=
          List.mem_filter.mpr ⟨ht, decide_eq_true hnot⟩
        rw [hnone] at hmem
        exact absurd hmem List.not_mem_nil
      · rw [if_neg hnone] at h ht
        cases h
        by_cases hold : t ∈ before
        · exact List.mem_append_left _ hold
        · exact List.mem_append_right _ (List.mem_filter.mpr ⟨ht, decide_eq_true hold⟩)

/-- **Subscriptions are complete and made once.** On every connection no token is subscribed to
twice, and after each wake-up of the loop for new tokens whose message goes through both tokens of
every listed market are subscribed to, if markets keep their tokens. -/
theorem subscriptions_complete (tokenOn : String → TokenSide → String)
    (hinj : Function.Injective2 tokenOn) (ls : List (MarketFeedLabel K))
    (hls : ∀ l ∈ ls, AnswersTokens tokenOn l) (knownTokens : List String) (diffLoop : Bool)
    (hlink : (feedMachine.final feedStart ls).link = .connected knownTokens diffLoop) :
    (subscriptions (feedMachine.trace feedStart ls)).Nodup ∧
    ∀ before, ls = before ++ [.diff true] → diffLoop = true →
      ∀ c m, (feedMachine.final feedStart ls).feed.markets.get? c = some m →
        m.yesTokenId ∈ subscriptions (feedMachine.trace feedStart ls) ∧
          m.noTokenId ∈ subscriptions (feedMachine.trace feedStart ls) := by
  have htracks := linkTracks_run ls
  unfold LinkTracks at htracks
  rw [hlink] at htracks
  obtain ⟨hknown, hnodup⟩ := htracks
  rw [hknown]
  refine ⟨hnodup, fun before hbefore hloop c m hm => ?_⟩
  have hcoherent := feed_coherent tokenOn hinj ls hls
  obtain ⟨hyes, hno⟩ := hcoherent.tokens c m hm
  have hmapped : ∀ side, tokenOn c side ∈ (feedMachine.final feedStart ls).feed.tokens := by
    intro side
    have hentry : (feedMachine.final feedStart ls).feed.tokenToCondition.get? (tokenOn c side) =
        some c := congrArg Prod.fst (hcoherent.mapped c side (by rw [hm]; simp))
    exact List.mem_map_of_mem ((Dict.mem_entries_iff _ _ _).mpr hentry)
  have hmem : ∀ side, tokenOn c side ∈ knownTokens := by
    intro side
    have hside := hmapped side
    subst hloop
    rw [hbefore, Machine.final_concat] at hlink hside
    exact mem_known_of_diff hlink _ hside
  rw [hyes, hno]
  exact ⟨hmem .yes, hmem .no⟩

/-- After the two listings both markets are subscribed to, once. -/
theorem subscriptions_complete_twoListings :
    (subscriptions (feedMachine.trace feedStart twoListings)).Nodup ∧
      ∀ c m, (feedMachine.final feedStart twoListings).feed.markets.get? c = some m →
        m.yesTokenId ∈ subscriptions (feedMachine.trace feedStart twoListings) ∧
          m.noTokenId ∈ subscriptions (feedMachine.trace feedStart twoListings) := by
  have h := subscriptions_complete namedTokens namedTokens_injective twoListings twoListings_answers
    ["yA", "nA", "yB", "nB"] true (by decide +kernel)
  exact ⟨h.1, h.2 (twoListings.take 4) rfl rfl⟩

end TradingEdge.Analysis
