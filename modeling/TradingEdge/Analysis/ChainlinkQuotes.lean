import Mathlib.Algebra.Order.Ring.Rat
import Mathlib.Data.List.Induction
import Mathlib.Data.Nat.Cast.Order.Ring
import TradingEdge.Program.ChainlinkFeed

/-!
# What the Chainlink feed reads

The quotes of a message are what its objects have under price keys, object by object in the order of
a depth-first walk.  The walk of `_extract_chainlink_price` finds the first of them (`walk_eq`, by
induction over the message), so the price of the feed is the first quote of the last message that
has any.
-/

set_option autoImplicit false

namespace TradingEdge.Analysis

open TradingEdge.Library TradingEdge.Program

variable {K : Type} [Ring K] [LinearOrder K] (parse : String → Option K)

/-- The quotes of a message, in the order of a depth-first walk and of the price keys. -/
def quotes (data : Json K) : List K :=
  data.objects.flatMap fun node => priceKeys.filterMap (quoteUnder parse node)

/-- A quote stands under a price key of an object, at any depth. -/
theorem mem_quotes_iff (data : Json K) (v : K) :
    v ∈ quotes parse data ↔
      ∃ node, Json.Within node data ∧ ∃ k ∈ priceKeys, quoteUnder parse node k = some v := by
  unfold quotes
  simp only [List.mem_flatMap, List.mem_filterMap, Json.mem_objects_iff]

/-! ## The walk -/

/-- A quote is above 1000. -/
theorem lt_of_quoteUnder {node : Json.Members K} {k : String} {v : K}
    (h : quoteUnder parse node k = some v) : 1000 < v := by
  unfold quoteUnder at h
  split at h
  · cases h
  · split at h
    · cases h
    · split at h
      · next hlt =>
        rw [← Option.some.inj h]
        exact hlt
      · cases h

/-- No quote is zero. -/
theorem ne_zero_of_mem_quotes [IsStrictOrderedRing K] {data : Json K} {v : K}
    (h : v ∈ quotes parse data) : v ≠ 0 := by
  obtain ⟨node, -, k, -, hquote⟩ := (mem_quotes_iff parse data v).mp h
  have hlt := lt_of_quoteUnder parse hquote
  have hpos : (0 : K) < 1000 := Nat.ofNat_pos
  exact (hpos.trans hlt).ne'

/-- The quotes of an object: its own, and then those of its members. -/
theorem quotes_object (members : Json.Members K) :
    quotes parse (.object members) =
      priceKeys.filterMap (quoteUnder parse members) ++
        members.flatMap fun m => quotes parse m.2 := by
  unfold quotes
  rw [Json.objects, List.flatMap_cons, Json.objectsOf_eq, List.flatMap_assoc]

/-- The quotes of an array are those of its items. -/
theorem quotes_array (items : List (Json K)) :
    quotes parse (.array items) = items.flatMap (quotes parse) := by
  unfold quotes
  rw [Json.objects, Json.objectsIn_eq, List.flatMap_assoc]

variable [IsStrictOrderedRing K]

/-- The first quote passes for found. -/
theorem if_head?_quotes {data : Json K} {found : K} (h : (quotes parse data).head? = some found)
    {β : Type} (a b : β) : (if found ≠ 0 then a else b) = a :=
  if_pos (ne_zero_of_mem_quotes parse (List.mem_of_head? h))

/-- A found quote ends the loop over the values of an object. -/
theorem walkMembers_eq (members : Json.Members K)
    (h : ∀ m ∈ members, walk parse m.2 = (quotes parse m.2).head?) :
    walkMembers parse members = (members.flatMap fun m => quotes parse m.2).head? := by
  induction members with
  | nil => rfl
  | cons m rest ih =>
    obtain ⟨hfirst, hrest⟩ := List.forall_mem_cons.mp h
    obtain ⟨k, v⟩ := m
    rw [walkMembers, hfirst, ih hrest, List.flatMap_cons, List.head?_append]
    cases hhead : (quotes parse v).head? with
    | none => rfl
    | some found => exact if_head?_quotes parse hhead _ _

/-- A found quote ends the loop over an array. -/
theorem walkItems_eq (items : List (Json K))
    (h : ∀ v ∈ items, walk parse v = (quotes parse v).head?) :
    walkItems parse items = (items.flatMap (quotes parse)).head? := by
  induction items with
  | nil => rfl
  | cons v rest ih =>
    obtain ⟨hfirst, hrest⟩ := List.forall_mem_cons.mp h
    rw [walkItems, hfirst, ih hrest, List.flatMap_cons, List.head?_append]
    cases hhead : (quotes parse v).head? with
    | none => rfl
    | some found => exact if_head?_quotes parse hhead _ _

/-- The walk finds the first quote. -/
theorem walk_eq (data : Json K) : walk parse data = (quotes parse data).head? := by
  induction data using Json.induction with
  | null => rfl
  | bool b => rfl
  | number x => rfl
  | string s => rfl
  | array items ih => rw [walk, quotes_array, walkItems_eq parse items ih]
  | object members ih =>
    rw [walk, quotes_object, List.head?_append, List.head?_filterMap,
      walkMembers_eq parse members ih]
    cases priceKeys.findSome? (quoteUnder parse members) with
    | none => rfl
    | some v => rfl

/-! ## The feed -/

/-- What a label sets the feed to, if to anything: the first quote of a message. -/
def quoteOf : ChainlinkLabel K → Option (ChainlinkFeed K)
  | .message (some data) now => (quotes parse data).head?.map fun price => ⟨price, now⟩
  | .message none _ => none
  | .disconnected => none

/-- A message with a quote replaces what the feed has. -/
theorem runChainlinkRtds_eq (s : ChainlinkFeed K) (l : ChainlinkLabel K) :
    runChainlinkRtds parse s l = (quoteOf parse l).getD s := by
  cases l with
  | disconnected => rfl
  | message data now =>
    cases data with
    | none => rfl
    | some data =>
      simp only [runChainlinkRtds, extractChainlinkPrice, walk_eq, quoteOf]
      cases hhead : (quotes parse data).head? with
      | none => rfl
      | some price => exact if_head?_quotes parse hhead _ _

/-- A run leaves the feed as the last label with a quote sets it. -/
theorem foldl_runChainlinkRtds (s : ChainlinkFeed K) (ls : List (ChainlinkLabel K)) :
    ls.foldl (runChainlinkRtds parse) s = (ls.reverse.findSome? (quoteOf parse)).getD s := by
  induction ls using List.reverseRecOn with
  | nil => rfl
  | append_singleton ls l ih =>
    rw [List.foldl_append, List.foldl_cons, List.foldl_nil, ih, runChainlinkRtds_eq,
      List.reverse_append, List.reverse_singleton, List.singleton_append, List.findSome?_cons]
    cases quoteOf parse l with
    | none => rfl
    | some feed => rfl

omit [IsStrictOrderedRing K] in
/-- The quote of a message is its first one, with the time of the message. -/
theorem quoteOf_eq_some_iff (l : ChainlinkLabel K) (feed : ChainlinkFeed K) :
    quoteOf parse l = some feed ↔ ∃ data, l = .message (some data) feed.chainlinkTs ∧
      (quotes parse data).head? = some feed.chainlinkPrice := by
  constructor
  · intro h
    cases l with
    | disconnected => cases h
    | message data now =>
      cases data with
      | none => cases h
      | some data =>
        obtain ⟨price, hprice, rfl⟩ := Option.map_eq_some_iff.mp h
        exact ⟨data, rfl, hprice⟩
  · rintro ⟨data, rfl, hprice⟩
    show (quotes parse data).head?.map _ = _
    rw [hprice]
    rfl

omit [IsStrictOrderedRing K] in
/-- A label sets nothing exactly if its message has no quote at any depth. -/
theorem quoteOf_eq_none_iff (l : ChainlinkLabel K) :
    quoteOf parse l = none ↔ ∀ data now, l = .message (some data) now →
      ∀ node, Json.Within node data → ∀ k ∈ priceKeys, quoteUnder parse node k = none := by
  constructor
  · rintro h data now rfl node hnode k hk
    have hempty : quotes parse data = [] := List.head?_eq_none_iff.mp (Option.map_eq_none_iff.mp h)
    cases hquote : quoteUnder parse node k with
    | none => rfl
    | some v =>
      have hmem := (mem_quotes_iff parse data v).mpr ⟨node, hnode, k, hk, hquote⟩
      rw [hempty] at hmem
      exact absurd hmem List.not_mem_nil
  · intro h
    cases l with
    | disconnected => rfl
    | message data now =>
      cases data with
      | none => rfl
      | some data =>
        have hempty : quotes parse data = [] := by
          apply List.eq_nil_iff_forall_not_mem.mpr
          intro v hv
          obtain ⟨node, hnode, k, hk, hquote⟩ := (mem_quotes_iff parse data v).mp hv
          rw [h data now rfl node hnode k hk] at hquote
          cases hquote
        show (quotes parse data).head?.map _ = _
        rw [hempty]
        rfl

/-- **The price is the first quote of the last message with one.** In every run the feed has a price
from a time exactly if a message of that time had it as its first quote, and no message after it has
any, under any price key of any object at any depth; before such a message the price is 0. -/
theorem chainlink_price_iff (ls : List (ChainlinkLabel K)) (price ts : K) :
    let s := ls.foldl (runChainlinkRtds parse) .initial
    (s.chainlinkPrice = price ∧ s.chainlinkTs = ts ∧ price ≠ 0) ↔
      ∃ pre data post, ls = pre ++ .message (some data) ts :: post ∧
        (quotes parse data).head? = some price ∧
        ∀ data' now, .message (some data') now ∈ post → ∀ node, Json.Within node data' →
          ∀ k ∈ priceKeys, quoteUnder parse node k = none := by
  intro s
  have hs : s = (ls.reverse.findSome? (quoteOf parse)).getD .initial :=
    foldl_runChainlinkRtds parse _ ls
  constructor
  · rintro ⟨hprice, hts, hne⟩
    cases hlast : ls.reverse.findSome? (quoteOf parse) with
    | none =>
      rw [hlast] at hs
      rw [hs] at hprice
      exact absurd hprice.symm hne
    | some feed =>
      rw [hlast] at hs
      obtain ⟨post, l, pre, hsplit, hl, hpost⟩ := List.findSome?_eq_some_iff.mp hlast
      obtain ⟨data, hmessage, hquote⟩ := (quoteOf_eq_some_iff parse l feed).mp hl
      have hfeed : s = feed := hs
      rw [← hfeed, hprice] at hquote
      rw [← hfeed, hts] at hmessage
      refine ⟨pre.reverse, data, post.reverse, ?_, hquote, ?_⟩
      · have hreverse := congrArg List.reverse hsplit
        rw [List.reverse_reverse, List.reverse_append, List.reverse_cons, List.append_assoc,
          hmessage] at hreverse
        exact hreverse
      · intro data' now hmem
        exact (quoteOf_eq_none_iff parse _).mp (hpost _ (List.mem_reverse.mp hmem)) data' now rfl
  · rintro ⟨pre, data, post, rfl, hquote, hpost⟩
    have hlast : (pre ++ .message (some data) ts :: post).reverse.findSome? (quoteOf parse) =
        some ⟨price, ts⟩ := by
      rw [List.findSome?_eq_some_iff]
      refine ⟨post.reverse, .message (some data) ts, pre.reverse, ?_, ?_, ?_⟩
      · rw [List.reverse_append, List.reverse_cons, List.append_assoc, List.singleton_append]
      · exact (quoteOf_eq_some_iff parse _ _).mpr ⟨data, rfl, hquote⟩
      · intro l hl
        apply (quoteOf_eq_none_iff parse l).mpr
        rintro data' now rfl
        exact hpost data' now (List.mem_reverse.mp hl)
    rw [hlast] at hs
    rw [hs]
    exact ⟨rfl, rfl, ne_zero_of_mem_quotes parse (List.mem_of_head? hquote)⟩

/-- Two messages: a price two levels down, and then a size alone. -/
def nestedQuote : List (ChainlinkLabel ℚ) :=
  [.message (some (.object [("envelope", .object [("data", .array
      [.object [("symbol", .string "btc/usd"), ("price", .number 95100)]])])])) 20,
    .message (some (.object [("p", .number 50)])) 21]

/-- The price of the first message stays. -/
theorem chainlink_price_iff_nested :
    let s := nestedQuote.foldl (runChainlinkRtds fun _ => none) .initial
    s.chainlinkPrice = 95100 ∧ s.chainlinkTs = 20 ∧ (95100 : ℚ) ≠ 0 := by
  apply (chainlink_price_iff (fun _ => none) nestedQuote 95100 20).mpr
  refine ⟨[], _, _, rfl, by decide, ?_⟩
  intro data' now hmem node hnode k hk
  obtain ⟨hdata, -⟩ := ChainlinkLabel.message.inj (List.mem_singleton.mp hmem)
  obtain rfl := Option.some.inj hdata
  have hobjects := (Json.mem_objects_iff _ _).mpr hnode
  obtain rfl := List.mem_singleton.mp hobjects
  have hsize : ∀ k ∈ priceKeys, quoteUnder (fun _ => none) [("p", .number (50 : ℚ))] k = none := by
    decide
  exact hsize k hk

end TradingEdge.Analysis
