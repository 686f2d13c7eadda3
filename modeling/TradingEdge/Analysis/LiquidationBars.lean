import Mathlib.Tactic.Linarith
import TradingEdge.Program.LiquidationPolls

/-!
# How often a liquidation is counted

A bar is polled again while it is less than five minutes old, and its price is resolved anew each
time.  The table keeps, for each price that any poll found for a side of the bar, the amount of the
first such poll (`bar_rows`): the side counts once exactly if all polls that found an amount found
one price.  What a poll finds is said by the bars of its answer (`resolutions`).
-/

set_option autoImplicit false

namespace TradingEdge.Analysis

open TradingEdge.Library TradingEdge.Program

/-! ## What the polls find -/

/-- The sides of a bar. -/
inductive LiquidatedSide where
  | long
  | short

/-- As the table has it. -/
def LiquidatedSide.name : LiquidatedSide → String
  | .long => "long"
  | .short => "short"

/-- What was liquidated on the side. -/
def LiquidatedSide.amount (side : LiquidatedSide) (bar : LiquidationBar) : ℚ :=
  match side with
  | .long => bar.l.getD 0
  | .short => bar.s.getD 0

/-- The price and the amount that a poll finds of a side of a bar, as the table holds them, if there
is an amount and the price can be resolved. -/
def resolution (closes : Dict ℤ ℚ) (side : LiquidatedSide) (ts : ℤ) (bar : LiquidationBar) :
    Option (ℚ × ℚ) :=
  if 0 < side.amount bar then
    (priceProxy closes bar ts).map fun price => (numeric 8 price, numeric 2 (side.amount bar))
  else none

/-- The bars of a symbol at a time that an answer has. -/
def barsAt (symbol : String) (ts : ℤ) (payload : List SymbolEntry) : List LiquidationBar :=
  (payload.filter fun entry => entrySymbol entry = symbol).flatMap fun entry =>
    entry.history.filter fun bar => bar.t = some ts

/-- The prices and amounts that a poll finds of a side of the bar, in order. -/
def resolutions (symbol : String) (side : LiquidatedSide) (ts : ℤ) :
    LiquidationPoll → List (ℚ × ℚ)
  | .answered payload closes =>
    (barsAt symbol ts (payload.getD [])).filterMap (resolution closes side ts)
  | .raised => []

/-! ## What the table has -/

/-- The rows of one side of a bar. -/
def barRows (symbol side : String) (ts : ℤ) (rows : List LiquidationCluster) :
    List LiquidationCluster :=
  rows.filter fun r => r.symbol = symbol ∧ r.side = side ∧ r.ts = ts

/-- A row is of the bar and the side. -/
theorem mem_barRows {symbol side : String} {ts : ℤ} {rows : List LiquidationCluster}
    {r : LiquidationCluster} :
    r ∈ barRows symbol side ts rows ↔
      r ∈ rows ∧ r.symbol = symbol ∧ r.side = side ∧ r.ts = ts := by
  simp [barRows]

/-- Rows after one another. -/
theorem barRows_append (symbol side : String) (ts : ℤ) (rows rows' : List LiquidationCluster) :
    barRows symbol side ts (rows ++ rows') =
      barRows symbol side ts rows ++ barRows symbol side ts rows' :=
  List.filter_append rows rows'

/-- Rows of one side of a bar differ in their key as they do in their price. -/
theorem key_eq_iff_of_mem_barRows {symbol side : String} {ts : ℤ}
    {rows rows' : List LiquidationCluster} {r r' : LiquidationCluster}
    (h : r ∈ barRows symbol side ts rows) (h' : r' ∈ barRows symbol side ts rows') :
    r.key = r'.key ↔ r.price = r'.price := by
  obtain ⟨-, hsymbol, hside, hts⟩ := mem_barRows.mp h
  obtain ⟨-, hsymbol', hside', hts'⟩ := mem_barRows.mp h'
  simp [LiquidationCluster.key, hsymbol, hside, hts, hsymbol', hside', hts']

/-- The price and the amount of a row. -/
def foundOf (r : LiquidationCluster) : ℚ × ℚ := (r.price, r.sizeUsd)

/-- The rows of a bar on a side are its resolution. -/
theorem barRows_barClusters (closes : Dict ℤ ℚ) (symbol symbol' : String) (side : LiquidatedSide)
    (ts : ℤ) (bar : LiquidationBar) :
    (barRows symbol side.name ts
      ((barClusters closes symbol' bar).map LiquidationCluster.stored)).map foundOf =
      if symbol' = symbol ∧ bar.t = some ts then (resolution closes side ts bar).toList else [] := by
  cases htime : bar.t with
  | none => simp [barClusters, htime, barRows]
  | some t =>
    by_cases hbar : symbol' = symbol ∧ t = ts
    · obtain ⟨rfl, rfl⟩ := hbar
      rw [if_pos ⟨rfl, rfl⟩]
      cases hprice : priceProxy closes bar t with
      | none => simp [barClusters, htime, hprice, barRows, resolution]
      | some price =>
        by_cases hlong : 0 < bar.l.getD 0 <;> by_cases hshort : 0 < bar.s.getD 0 <;> cases side <;>
          simp [barClusters, htime, hprice, hlong, hshort, barRows, resolution, foundOf,
            LiquidatedSide.amount, LiquidatedSide.name, LiquidationCluster.stored]
    · have hnone : ¬(symbol' = symbol ∧ some t = some ts) := fun h =>
        hbar ⟨h.1, Option.some.inj h.2⟩
      rw [if_neg hnone, List.map_eq_nil_iff, barRows, List.filter_eq_nil_iff]
      -- every row of the bar has its symbol and its time
      intro r hr hmatch
      obtain ⟨row, hrow, rfl⟩ := List.mem_map.mp hr
      have hown : row.symbol = symbol' ∧ row.ts = t := by
        simp only [barClusters, htime] at hrow
        cases hprice : priceProxy closes bar t with
        | none => simp [hprice] at hrow
        | some price =>
          rw [hprice] at hrow
          rcases List.mem_append.mp hrow with h | h
          · split_ifs at h <;> simp_all
          · split_ifs at h <;> simp_all
      obtain ⟨hsymbol, -, hts⟩ := of_decide_eq_true hmatch
      exact hbar ⟨hown.1.symm.trans hsymbol, hown.2.symm.trans hts⟩

/-- The rows of a history on a side of the bar at a time are the resolutions of its bars of that
time. -/
theorem barRows_history (closes : Dict ℤ ℚ) (symbol symbol' : String) (side : LiquidatedSide)
    (ts : ℤ) (history : List LiquidationBar) :
    (barRows symbol side.name ts
      ((history.flatMap (barClusters closes symbol')).map LiquidationCluster.stored)).map foundOf =
      if symbol' = symbol then
        (history.filter fun bar => bar.t = some ts).filterMap (resolution closes side ts)
      else [] := by
  induction history with
  | nil => simp [barRows]
  | cons bar history ih =>
    rw [List.flatMap_cons, List.map_append, barRows_append, List.map_append, ih,
      barRows_barClusters]
    by_cases hsymbol : symbol' = symbol
    · by_cases htime : bar.t = some ts
      · rw [if_pos ⟨hsymbol, htime⟩, if_pos hsymbol, if_pos hsymbol, List.filter_cons,
          if_pos (decide_eq_true htime), List.filterMap_cons]
        cases resolution closes side ts bar <;> rfl
      · rw [if_neg fun h => htime h.2, if_pos hsymbol, if_pos hsymbol, List.nil_append,
          List.filter_cons, if_neg fun h => htime (of_decide_eq_true h)]
    · rw [if_neg fun h => hsymbol h.1, if_neg hsymbol, if_neg hsymbol, List.nil_append]

/-- The rows that a poll puts to the table for a side of the bar are what it finds. -/
theorem barRows_rows (symbol : String) (side : LiquidatedSide) (ts : ℤ) (poll : LiquidationPoll) :
    (barRows symbol side.name ts (poll.rows.map LiquidationCluster.stored)).map foundOf =
      resolutions symbol side ts poll := by
  cases poll with
  | raised => rfl
  | answered payload closes =>
    show (barRows symbol side.name ts (((payload.getD []).flatMap fun entry =>
      entry.history.flatMap (barClusters closes (entrySymbol entry))).map
        LiquidationCluster.stored)).map foundOf =
      (barsAt symbol ts (payload.getD [])).filterMap (resolution closes side ts)
    induction payload.getD [] with
    | nil => rfl
    | cons entry entries ih =>
      rw [List.flatMap_cons, List.map_append, barRows_append, List.map_append, ih, barRows_history]
      by_cases hsymbol : entrySymbol entry = symbol
      · rw [if_pos hsymbol, barsAt, barsAt, List.filter_cons, if_pos (decide_eq_true hsymbol),
          List.flatMap_cons, List.filterMap_append]
      · rw [if_neg hsymbol, barsAt, barsAt, List.filter_cons,
          if_neg fun h => hsymbol (of_decide_eq_true h), List.nil_append]

/-- What the polls put to the table for a side of the bar is what they find. -/
theorem barRows_polls (polls : List LiquidationPoll) (symbol : String) (side : LiquidatedSide)
    (ts : ℤ) :
    (barRows symbol side.name ts
      (polls.flatMap fun poll => poll.rows.map LiquidationCluster.stored)).map foundOf =
      polls.flatMap (resolutions symbol side ts) := by
  rw [barRows, List.filter_flatMap, List.map_flatMap]
  exact List.flatMap_congr fun poll _ => barRows_rows symbol side ts poll

/-- The polls write what one statement with all their rows writes. -/
theorem foldl_pollLiquidations (t : Table LiquidationCluster.key) (polls : List LiquidationPoll) :
    polls.foldl pollLiquidations t =
      upsertMany t (polls.flatMap fun poll => poll.rows.map LiquidationCluster.stored) := by
  have hbatches : polls.foldl pollLiquidations t =
      (polls.map fun poll => poll.rows.map LiquidationCluster.stored).foldl upsertMany t := by
    rw [List.foldl_map]
    rfl
  rw [hbatches, foldl_upsertMany, List.flatMap_def]

/-- Values that differ and are all the same are at most one. -/
theorem length_le_one_iff_of_nodup {α : Type} {l : List α} (h : l.Nodup) :
    l.length ≤ 1 ↔ ∀ a ∈ l, ∀ b ∈ l, a = b := by
  match l, h with
  | [], _ => simp
  | [a], _ => simp
  | a :: b :: l, h =>
    have hab : a ≠ b := by
      rintro rfl
      simp at h
    constructor
    · intro hlength
      simp at hlength
    · intro hall
      exact absurd (hall a (by simp) b (by simp)) hab

/-- A statement leaves, for a side of a bar, the first row of each price. -/
theorem barRows_upsertMany (rows : List LiquidationCluster) (symbol side : String) (ts : ℤ) :
    let given := barRows symbol side ts rows
    let stored := barRows symbol side ts
      (upsertMany (Table.empty : Table LiquidationCluster.key) rows).rows
    (stored.map LiquidationCluster.price).Nodup ∧
      (∀ r ∈ stored, given.find? (fun r' => r'.price = r.price) = some r) ∧
      ∀ r ∈ given, r.price ∈ stored.map LiquidationCluster.price := by
  intro given stored
  have hkeys := (upsertMany (Table.empty : Table LiquidationCluster.key) rows).nodup_keys
  refine ⟨?_, fun r hr => ?_, fun r hr => ?_⟩
  · refine List.Nodup.map_on (fun r hr r' hr' hprice => ?_) ((List.Nodup.of_map _ hkeys).filter _)
    exact List.inj_on_of_nodup_map hkeys (mem_barRows.mp hr).1 (mem_barRows.mp hr').1
      ((key_eq_iff_of_mem_barRows hr hr').mpr hprice)
  · obtain ⟨hmem, hsymbol, hside, hts⟩ := mem_barRows.mp hr
    rw [Table.mem_rows_iff_find?, find?_upsertMany, Table.rows_empty, List.nil_append] at hmem
    show (barRows symbol side ts rows).find? _ = some r
    rw [barRows, List.find?_filter, ← hmem]
    congr 1
    funext r'
    simp only [decide_eq_true_eq, decide_eq_decide, LiquidationCluster.key, Prod.mk.injEq, hsymbol,
      hside, hts]
    exact ⟨fun h => ⟨h.1.1, h.1.2.1, h.2, h.1.2.2⟩, fun h => ⟨⟨h.1, h.2.1, h.2.2.2⟩, h.2.2.1⟩⟩
  · obtain ⟨hmem, hsymbol, hside, hts⟩ := mem_barRows.mp hr
    obtain ⟨r', hr', hkey⟩ :=
      exists_key_upsertMany (Table.empty : Table LiquidationCluster.key) hmem
    simp only [LiquidationCluster.key, Prod.mk.injEq] at hkey
    obtain ⟨hsymbol', hside', hprice', hts'⟩ := hkey
    refine List.mem_map.mpr ⟨r', mem_barRows.mpr ⟨hr', ?_, ?_, ?_⟩, hprice'⟩
    · exact hsymbol'.trans hsymbol
    · exact hside'.trans hside
    · exact hts'.trans hts

/-- **A bar counts once for each price the polls found.** Of a side of a bar the table has one row
for each price, to eight places, to which some poll resolved the bar while there was an amount on
this side, with the amount, to the cent, of the first such poll; so it has no more than one row
exactly if all these polls resolved one price. -/
theorem bar_rows (polls : List LiquidationPoll) (symbol : String) (side : LiquidatedSide) (ts : ℤ) :
    let found := polls.flatMap (resolutions symbol side ts)
    let stored := barRows symbol side.name ts (polls.foldl pollLiquidations Table.empty).rows
    (stored.map LiquidationCluster.price).Nodup ∧
      (∀ price, price ∈ stored.map LiquidationCluster.price ↔ price ∈ found.map Prod.fst) ∧
      (∀ r ∈ stored, found.find? (fun e => e.1 = r.price) = some (r.price, r.sizeUsd)) ∧
      (stored.length ≤ 1 ↔ ∀ e ∈ found, ∀ e' ∈ found, e.1 = e'.1) := by
  intro found stored
  have hfound := barRows_polls polls symbol side ts
  have htable := foldl_pollLiquidations Table.empty polls
  obtain ⟨hnodup, hfirst, hall⟩ := barRows_upsertMany
    (polls.flatMap fun poll => poll.rows.map LiquidationCluster.stored) symbol side.name ts
  rw [← htable] at hnodup hfirst hall
  have hfind : ∀ r ∈ stored, found.find? (fun e => e.1 = r.price) = some (r.price, r.sizeUsd) := by
    intro r hr
    show (polls.flatMap (resolutions symbol side ts)).find? _ = some (foundOf r)
    rw [← hfound, List.find?_map]
    exact congrArg (Option.map foundOf) (hfirst r hr)
  have hprices : ∀ price, price ∈ stored.map LiquidationCluster.price ↔
      price ∈ found.map Prod.fst := by
    intro price
    constructor
    · intro h
      obtain ⟨r, hr, rfl⟩ := List.mem_map.mp h
      exact List.mem_map.mpr ⟨_, List.mem_of_find?_eq_some (hfind r hr), rfl⟩
    · intro h
      obtain ⟨e, he, rfl⟩ := List.mem_map.mp h
      have hgiven : e ∈ (barRows symbol side.name ts
          (polls.flatMap fun poll => poll.rows.map LiquidationCluster.stored)).map foundOf := by
        rw [hfound]
        exact he
      obtain ⟨r, hr, rfl⟩ := List.mem_map.mp hgiven
      exact hall r hr
  refine ⟨hnodup, hprices, hfind, ?_⟩
  have hlength : stored.length = (stored.map LiquidationCluster.price).length := by
    rw [List.length_map]
  rw [hlength, length_le_one_iff_of_nodup hnodup]
  constructor
  · intro h e he e' he'
    exact h _ ((hprices _).mpr (List.mem_map_of_mem he)) _
      ((hprices _).mpr (List.mem_map_of_mem he'))
  · intro h price hprice price' hprice'
    obtain ⟨e, he, rfl⟩ := List.mem_map.mp ((hprices _).mp hprice)
    obtain ⟨e', he', rfl⟩ := List.mem_map.mp ((hprices _).mp hprice')
    exact h e he e' he'

/-- A poll of one bar, with the closes there are by then. -/
def pollBar (closes : Dict ℤ ℚ) : LiquidationPoll :=
  .answered (some [⟨none, [⟨some 600, some 1000, none, none⟩]⟩]) closes

/-- A bar that is polled before the candle of its minute is there, and again after it, counts twice. -/
example :
    (barRows "BTCUSDT_PERP.A" "long" 600
      ([pollBar (Dict.empty.set 540 65000),
        pollBar ((Dict.empty.set 540 65000).set 600 65010)].foldl pollLiquidations Table.empty).rows
      ).length = 2 := by
  decide +kernel

end TradingEdge.Analysis
