import TradingEdge.Program.RecorderLoop

/-!
# The strike is latched

Once a tick of a market has been published with an open price, every later tick of the market
carries it.  The open price is written into the object that the recorder took from the map at
the start of its round; discovery copies it into the new object that it puts in the place of
the old one.  A capture in an object that has been replaced since is lost, so the strike is
latched in every run whose captures are made in the object the map holds (`strike_latched`).

The invariant is `Coherent`: all objects of a market with a captured price have one price, and
if there is one, then what the map and the pending round hold of the market is one of them.
-/

set_option autoImplicit false

namespace TradingEdge.Analysis

open TradingEdge.Model TradingEdge.Program TradingEdge.Library

variable {K : Type}

/-- Every later tick of a market carries the open price of an earlier one. -/
def StrikeLatched [Zero K] [LT K] (ticks : List (TickDict K)) : Prop :=
  ticks.Pairwise fun d d' => d.conditionId = d'.conditionId →
    ∀ x ∈ d.openPrice, 0 < x → d'.openPrice = some x

variable [Field K] [LinearOrder K]

/-- No object of the market has a captured price. -/
def Uncaptured (s : RecorderState K) (cid : String) : Prop :=
  ∀ m ∈ s.metas, m.conditionId = cid → m.openPriceCaptured = false

/-- A market that the answer takes into the map is there already, or was never captured. -/
def Admits (families : List String) (now : K) (s : RecorderState K) (g : GammaMarket) : Prop :=
  ∀ accepted ∈ acceptMarket families now g, s.markets.get? accepted.1 = none →
    Uncaptured s accepted.1

/-- A capture is made in the object the map holds, and a market that has left the map with a
captured price does not come back. -/
def CapturesCurrent (s : RecorderState K) : RecorderLabel K → Prop
  | .adds families now events => ∀ g ∈ events, Admits families now s g
  | .records book _ =>
    ∀ round ∈ s.round, ∀ r ∈ round.pending.head?, ∀ m ∈ s.metas[r]?,
      m.openPriceCaptured = false →
      (recordMarket m (some book) round.feed round.now).1.openPriceCaptured = true →
      s.markets.get? m.conditionId = some r
  | .drops _ => True
  | .startsRound _ _ _ => True

instance (s : RecorderState K) (cid : String) : Decidable (Uncaptured s cid) :=
  inferInstanceAs (Decidable (∀ m ∈ s.metas, _))

instance (families : List String) (now : K) (s : RecorderState K) (g : GammaMarket) :
    Decidable (Admits families now s g) :=
  inferInstanceAs (Decidable (∀ accepted ∈ acceptMarket families now g, _))

instance (s : RecorderState K) (l : RecorderLabel K) : Decidable (CapturesCurrent s l) :=
  match l with
  | .adds families now events => inferInstanceAs (Decidable (∀ g ∈ events, Admits families now s g))
  | .records book _ => inferInstanceAs (Decidable (∀ round ∈ s.round,
      ∀ r ∈ round.pending.head?, ∀ m ∈ s.metas[r]?, m.openPriceCaptured = false →
      (recordMarket m (some book) round.feed round.now).1.openPriceCaptured = true →
      s.markets.get? m.conditionId = some r))
  | .drops _ => isTrue trivial
  | .startsRound _ _ _ => isTrue trivial

/-- The objects agree about the open prices. -/
structure Coherent (s : RecorderState K) : Prop where
  /-- An open price is there when it has been captured. -/
  zero : ∀ (r : ℕ) (m : MarketMeta K), s.metas[r]? = some m →
    m.openPriceCaptured = false → m.openPrice = 0
  /-- The captured prices of a market are one price. -/
  agree : ∀ (r r' : ℕ) (m m' : MarketMeta K), s.metas[r]? = some m → s.metas[r']? = some m' →
    m.conditionId = m'.conditionId → m.openPriceCaptured = true →
    m'.openPriceCaptured = true → m.openPrice = m'.openPrice
  /-- The map has objects of its markets. -/
  filed : ∀ cid r, s.markets.get? cid = some r →
    ∃ m, s.metas[r]? = some m ∧ m.conditionId = cid
  /-- If a price has been captured, the object in the map has it. -/
  current : ∀ cid r m, s.markets.get? cid = some r → s.metas[r]? = some m →
    m.openPriceCaptured = false → Uncaptured s cid
  /-- And so has the object that the round is going to record. -/
  pending : ∀ round, s.round = some round → ∀ r ∈ round.pending, ∃ m, s.metas[r]? = some m ∧
    (m.openPriceCaptured = false → Uncaptured s m.conditionId)
  /-- A round records each market once. -/
  once : ∀ round, s.round = some round →
    (round.pending.map fun r => s.metas[r]?.map (·.conditionId)).Nodup

/-- The captured objects of one state are those of another. -/
def KeepsCaptured (s s' : RecorderState K) : Prop :=
  ∀ (r : ℕ) (m : MarketMeta K), s.metas[r]? = some m → m.openPriceCaptured = true →
    s'.metas[r]? = some m

/-! ## Discovery -/

/-- The price of an object is captured once, and what is published is the price of the object.
SOURCE: paper/tick_recorder.py:100-148 -/
theorem recordMarket_spec (m : MarketMeta K) (book : CLOBBookSnapshot K) (feed : FeedSnapshot K)
    (now : K) :
    (recordMarket m (some book) feed now).1.conditionId = m.conditionId ∧
      ((recordMarket m (some book) feed now).1 = m ∨ m.openPriceCaptured = false ∧
        (recordMarket m (some book) feed now).1.openPriceCaptured = true) ∧
      ∀ d row, (recordMarket m (some book) feed now).2 = some (d, row) →
        d.conditionId = some m.conditionId ∧
          d.openPrice = some (recordMarket m (some book) feed now).1.openPrice := by
  have hcapture : m.captureOpen feed now = m ∨ m.openPriceCaptured = false ∧
      (m.captureOpen feed now).openPriceCaptured = true := by
    unfold MarketMeta.captureOpen
    split
    · rename_i h
      exact Or.inr ⟨h.1, rfl⟩
    · exact Or.inl rfl
  obtain ⟨hslug, hclose, hcid⟩ := captureOpen_frame m feed now
  unfold recordMarket
  split
  · exact ⟨rfl, Or.inl rfl, fun d row h => by cases h⟩
  · dsimp only
    split
    · exact ⟨hcid, hcapture, fun d row h => by cases h⟩
    · refine ⟨hcid, hcapture, ?_⟩
      rintro d row h
      obtain ⟨rfl, rfl⟩ := Prod.mk.inj (Option.some_inj.mp h)
      exact ⟨congrArg some hcid, rfl⟩

omit [Field K] [LinearOrder K] in
/-- The references of a list with one more. -/
theorem getElem?_concat_iff (metas : List (MarketMeta K)) (n m : MarketMeta K) (r : ℕ) :
    (metas ++ [n])[r]? = some m ↔ metas[r]? = some m ∨ r = metas.length ∧ n = m := by
  rcases lt_trichotomy r metas.length with hlt | heq | hgt
  · rw [List.getElem?_append_left hlt]
    exact ⟨Or.inl, fun h => h.resolve_right fun h' => hlt.ne h'.1⟩
  · rw [heq, List.getElem?_concat_length, List.getElem?_eq_none le_rfl, Option.some_inj]
    constructor
    · exact fun h => Or.inr ⟨rfl, h⟩
    · rintro (h | ⟨-, h⟩)
      · cases h
      · exact h
  · rw [List.getElem?_eq_none (by simp; omega), List.getElem?_eq_none hgt.le]
    constructor
    · intro h
      cases h
    · rintro (h | ⟨h, -⟩)
      · cases h
      · omega

omit [LinearOrder K] in
/-- A new object in the place of the old one keeps the objects in agreement if its price, when
captured, is the old one's, and when not, there is none to agree with. -/
theorem coherent_place (s : RecorderState K) (n : MarketMeta K) (h : Coherent s)
    (hcaptured : n.openPriceCaptured = true → ∃ (r : ℕ) (m : MarketMeta K), s.metas[r]? = some m ∧
      m.conditionId = n.conditionId ∧ m.openPriceCaptured = true ∧ m.openPrice = n.openPrice)
    (huncaptured : n.openPriceCaptured = false → n.openPrice = 0 ∧ Uncaptured s n.conditionId) :
    Coherent { s with
      metas := s.metas ++ [n], markets := s.markets.set n.conditionId s.metas.length } := by
  have hgrows : ∀ {r : ℕ} {m : MarketMeta K}, s.metas[r]? = some m → (s.metas ++ [n])[r]? = some m := by
    intro r m hm
    exact (getElem?_concat_iff s.metas n m r).mpr (Or.inl hm)
  -- what was uncaptured for a market still is, unless the new object brings a captured price
  have huncapturedStill : ∀ cid, Uncaptured s cid →
      Uncaptured { s with
        metas := s.metas ++ [n], markets := s.markets.set n.conditionId s.metas.length } cid := by
    intro cid hcid m hmem hmcid
    rcases List.mem_append.mp hmem with hm | hm
    · exact hcid m hm hmcid
    · obtain rfl := List.mem_singleton.mp hm
      by_contra hyes
      obtain ⟨r₀, m₀, hm₀, hcid₀, hcaptured₀, -⟩ := hcaptured (by simpa using hyes)
      have hno := hcid m₀ (List.mem_of_getElem? hm₀) (hcid₀.trans hmcid)
      rw [hno] at hcaptured₀
      cases hcaptured₀
  refine ⟨?_, ?_, ?_, ?_, ?_, ?_⟩
  · intro r m hm hno
    rcases (getElem?_concat_iff s.metas n m r).mp hm with hm | ⟨-, rfl⟩
    · exact h.zero r m hm hno
    · exact (huncaptured hno).1
  · intro r r' m m' hm hm' hcid hyes hyes'
    rcases (getElem?_concat_iff s.metas n m r).mp hm with hm | ⟨-, rfl⟩
    · rcases (getElem?_concat_iff s.metas n m' r').mp hm' with hm' | ⟨-, rfl⟩
      · exact h.agree r r' m m' hm hm' hcid hyes hyes'
      · obtain ⟨r₀, m₀, hm₀, hcid₀, hcaptured₀, hprice⟩ := hcaptured hyes'
        exact (h.agree r r₀ m m₀ hm hm₀ (hcid.trans hcid₀.symm) hyes hcaptured₀).trans hprice
    · obtain ⟨r₀, m₀, hm₀, hcid₀, hcaptured₀, hprice⟩ := hcaptured hyes
      rcases (getElem?_concat_iff s.metas n m' r').mp hm' with hm' | ⟨-, rfl⟩
      · exact hprice.symm.trans
          (h.agree r₀ r' m₀ m' hm₀ hm' (hcid₀.trans hcid) hcaptured₀ hyes')
      · rfl
  · intro cid r hr
    dsimp only at hr ⊢
    rw [Dict.get?_set] at hr
    split at hr
    · rename_i hcid
      obtain rfl := Option.some_inj.mp hr
      exact ⟨n, List.getElem?_concat_length, hcid.symm⟩
    · obtain ⟨m, hm, hcid⟩ := h.filed cid r hr
      exact ⟨m, hgrows hm, hcid⟩
  · intro cid r m hr hm hno
    dsimp only at hr
    rw [Dict.get?_set] at hr
    split at hr
    · rename_i hcid
      obtain rfl := Option.some_inj.mp hr
      rcases (getElem?_concat_iff s.metas n m _).mp hm with hm | ⟨-, rfl⟩
      · rw [List.getElem?_eq_none le_rfl] at hm
        cases hm
      · rw [hcid]
        exact huncapturedStill _ (huncaptured hno).2
    · obtain ⟨m', hm', -⟩ := h.filed cid r hr
      have hsame : m' = m := Option.some_inj.mp ((hgrows hm').symm.trans hm)
      exact huncapturedStill cid (h.current cid r m hr (hsame ▸ hm') hno)
  · intro round hround r hr
    obtain ⟨m, hm, hpending⟩ := h.pending round hround r hr
    exact ⟨m, hgrows hm, fun hno => huncapturedStill _ (hpending hno)⟩
  · intro round hround
    have hsame : (round.pending.map fun r => (s.metas ++ [n])[r]?.map (·.conditionId)) =
        round.pending.map fun r => s.metas[r]?.map (·.conditionId) := by
      apply List.map_congr_left
      intro r hr
      obtain ⟨m, hm, -⟩ := h.pending round hround r hr
      rw [hm, hgrows hm]
    dsimp only
    rw [hsame]
    exact h.once round hround

/-- A market that is admitted keeps the recorder coherent. -/
theorem coherent_add (families : List String) (now : K) (s : RecorderState K) (g : GammaMarket)
    (h : Coherent s) (hadmits : Admits families now s g) :
    Coherent (s.add families now g) := by
  unfold RecorderState.add
  cases haccept : acceptMarket families now g with
  | none => exact h
  | some accepted =>
    obtain ⟨cid, closeTs⟩ := accepted
    dsimp only
    cases hold : s.lookup cid with
    | none =>
      -- not in the map: the new object starts without a price
      have hnone : s.markets.get? cid = none := by
        cases hr : s.markets.get? cid with
        | none => rfl
        | some r =>
          obtain ⟨m, hm, -⟩ := h.filed cid r hr
          unfold RecorderState.lookup at hold
          rw [hr, Option.bind_some, hm] at hold
          cases hold
      exact coherent_place s _ h (fun hyes => by cases hyes)
        fun _ => ⟨rfl, hadmits (cid, closeTs) haccept hnone⟩
    | some old =>
      obtain ⟨r, hr, hold⟩ := Option.bind_eq_some_iff.mp hold
      obtain ⟨m, hm, hcid⟩ := h.filed cid r hr
      obtain rfl := Option.some_inj.mp (hm.symm.trans hold)
      refine coherent_place s _ h (fun hyes => ⟨r, m, hm, hcid, hyes, rfl⟩) fun hno => ?_
      exact ⟨h.zero r m hm hno, h.current cid r m hr hm hno⟩

/-- A market that another answer of the same pass leaves out of the map has no new object. -/
theorem admits_add (families : List String) (now : K) (s : RecorderState K) (g g' : GammaMarket)
    (h : Admits families now s g) : Admits families now (s.add families now g') g := by
  intro accepted haccept hnone
  unfold RecorderState.add at hnone ⊢
  cases haccept' : acceptMarket families now g' with
  | none =>
    rw [haccept'] at hnone
    exact h accepted haccept hnone
  | some accepted' =>
    rw [haccept'] at hnone
    dsimp only at hnone ⊢
    rw [Dict.get?_set] at hnone
    split at hnone
    · cases hnone
    · rename_i hne
      intro m hmem hcid
      rcases List.mem_append.mp hmem with hm | hm
      · exact h accepted haccept hnone m hm hcid
      · obtain rfl := List.mem_singleton.mp hm
        exact absurd hcid.symm hne

/-- A market that is added keeps the strikes captured. -/
theorem keepsCaptured_add (families : List String) (now : K) (s : RecorderState K)
    (g : GammaMarket) : KeepsCaptured s (s.add families now g) := by
  intro r m hm _
  unfold RecorderState.add
  split
  · exact hm
  · exact (getElem?_concat_iff s.metas _ m r).mpr (Or.inl hm)

/-- One pass of discovery. -/
theorem coherent_adds (families : List String) (now : K) (events : List GammaMarket)
    (s : RecorderState K) (h : Coherent s) (hadmits : ∀ g ∈ events, Admits families now s g) :
    Coherent (events.foldl (RecorderState.add families now) s) ∧
      KeepsCaptured s (events.foldl (RecorderState.add families now) s) := by
  induction events generalizing s with
  | nil => exact ⟨h, fun r m hm _ => hm⟩
  | cons g events ih =>
    obtain ⟨hg, hrest⟩ := List.forall_mem_cons.mp hadmits
    obtain ⟨hcoherent, hkeeps⟩ := ih (s.add families now g)
      (coherent_add families now s g h hg)
      (fun g' hg' => admits_add families now s g' g (hrest g' hg'))
    refine ⟨hcoherent, fun r m hm hyes => hkeeps r m ?_ hyes⟩
    exact keepsCaptured_add families now s g r m hm hyes

/-- Markets only leave the map. -/
theorem coherent_drop (now : K) (s : RecorderState K) (h : Coherent s) : Coherent (s.drop now) := by
  have hsub : ∀ (expired : List (String × ℕ)) (markets : Dict String ℕ) cid r,
      (expired.foldl (fun ms e => ms.pop e.1) markets).get? cid = some r →
      markets.get? cid = some r := by
    intro expired
    induction expired with
    | nil => exact fun markets cid r hr => hr
    | cons e expired ih =>
      intro markets cid r hr
      have hpop := ih (markets.pop e.1) cid r hr
      rw [Dict.get?_pop] at hpop
      split at hpop
      · cases hpop
      · exact hpop
  exact ⟨h.zero, h.agree, fun cid r hr => h.filed cid r (hsub _ _ cid r hr),
    fun cid r m hr => h.current cid r m (hsub _ _ cid r hr), h.pending, h.once⟩

/-! ## The recorder -/

/-- A round starts with objects of the map. -/
theorem coherent_start (now : K) (feed : FeedSnapshot K) (hasBook : String → Bool)
    (s : RecorderState K) (h : Coherent s) :
    Coherent { s with round := some ⟨now, feed, s.openMarkets now hasBook⟩ } := by
  have hmem : ∀ r ∈ s.openMarkets now hasBook, ∃ cid, s.markets.get? cid = some r := by
    intro r hr
    exact (Dict.mem_values_iff _ _).mp (List.mem_filter.mp hr).1
  refine ⟨h.zero, h.agree, h.filed, h.current, ?_, ?_⟩
  · rintro round ⟨⟩ r hr
    obtain ⟨cid, hcid⟩ := hmem r hr
    obtain ⟨m, hm, hmcid⟩ := h.filed cid r hcid
    exact ⟨m, hm, fun hno => hmcid ▸ h.current cid r m hcid hm hno⟩
  · rintro round ⟨⟩
    -- the objects of the map belong to the markets they are filed under
    have hvalues : s.markets.values.map (fun r => s.metas[r]?.map (·.conditionId)) =
        s.markets.entries.map fun e => some e.1 := by
      unfold Dict.values
      rw [List.map_map]
      apply List.map_congr_left
      intro e he
      obtain ⟨m, hm, hcid⟩ := h.filed e.1 e.2 ((Dict.mem_entries_iff _ _ _).mp he)
      dsimp only [Function.comp_apply]
      rw [hm, Option.map_some, hcid]
    have hnodup : (s.markets.values.map fun r => s.metas[r]?.map (·.conditionId)).Nodup := by
      rw [hvalues]
      have hkeys := s.markets.nodup_keys.map (Option.some_injective String)
      rw [List.map_map] at hkeys
      exact hkeys
    exact hnodup.sublist ((List.filter_sublist).map _)

omit [Field K] [LinearOrder K] in
/-- The references of a list with one replaced. -/
theorem getElem?_set_iff (metas : List (MarketMeta K)) (m m' x : MarketMeta K) (r j : ℕ)
    (hm : metas[r]? = some m) :
    (metas.set r m')[j]? = some x ↔ j = r ∧ x = m' ∨ j ≠ r ∧ metas[j]? = some x := by
  have hlt : r < metas.length := (List.getElem?_eq_some_iff.mp hm).1
  rw [List.getElem?_set]
  by_cases hj : r = j
  · rw [if_pos hj, if_pos hlt, Option.some_inj]
    constructor
    · exact fun h => Or.inl ⟨hj.symm, h.symm⟩
    · rintro (⟨-, h⟩ | ⟨h, -⟩)
      · exact h.symm
      · exact absurd hj.symm h
  · rw [if_neg hj]
    constructor
    · exact fun h => Or.inr ⟨fun hj' => hj hj'.symm, h⟩
    · rintro (⟨h, -⟩ | ⟨-, h⟩)
      · exact absurd h.symm hj
      · exact h

omit [LinearOrder K] in
/-- The round goes on without its first market. -/
theorem coherent_tail (s : RecorderState K) (round : RecorderRound K) (r : ℕ) (rest : List ℕ)
    (h : Coherent s) (hround : s.round = some round) (hpending : round.pending = r :: rest) :
    Coherent { s with round := some { round with pending := rest } } := by
  refine ⟨h.zero, h.agree, h.filed, h.current, ?_, ?_⟩
  · rintro round' ⟨⟩ r' hr'
    exact h.pending round hround r' (hpending ▸ List.mem_cons_of_mem r hr')
  · rintro round' ⟨⟩
    have honce := h.once round hround
    rw [hpending, List.map_cons, List.nodup_cons] at honce
    exact honce.2

omit [LinearOrder K] in
/-- A capture in the object that the map holds. -/
theorem coherent_capture (s : RecorderState K) (r : ℕ) (m m' : MarketMeta K) (h : Coherent s)
    (hm : s.metas[r]? = some m) (hcurrent : s.markets.get? m.conditionId = some r)
    (hno : m.openPriceCaptured = false) (hyes' : m'.openPriceCaptured = true)
    (hcid : m'.conditionId = m.conditionId)
    (hother : ∀ round, s.round = some round → ∀ r' ∈ round.pending,
      s.metas[r']?.map (·.conditionId) ≠ some m.conditionId) :
    Coherent { s with metas := s.metas.set r m' } := by
  have hnone : Uncaptured s m.conditionId := h.current m.conditionId r m hcurrent hm hno
  have hset := fun x j => getElem?_set_iff s.metas m m' x r j hm
  -- the other markets have the objects they had
  have hrest : ∀ cid, cid ≠ m.conditionId → Uncaptured s cid →
      Uncaptured { s with metas := s.metas.set r m' } cid := by
    intro cid hne huncaptured x hmem hxcid
    obtain ⟨j, hx⟩ := List.mem_iff_getElem?.mp hmem
    rcases (hset x j).mp hx with ⟨-, rfl⟩ | ⟨-, hx⟩
    · exact absurd (hxcid.symm.trans hcid) hne
    · exact huncaptured x (List.mem_of_getElem? hx) hxcid
  refine ⟨?_, ?_, ?_, ?_, ?_, ?_⟩
  · intro j x hx hxno
    rcases (hset x j).mp hx with ⟨-, rfl⟩ | ⟨-, hx⟩
    · rw [hyes'] at hxno
      cases hxno
    · exact h.zero j x hx hxno
  · intro j j' x x' hx hx' hsame hxyes hxyes'
    rcases (hset x j).mp hx with ⟨-, hnew⟩ | ⟨-, hold⟩
    · rcases (hset x' j').mp hx' with ⟨-, hnew'⟩ | ⟨-, hold'⟩
      · rw [hnew, hnew']
      · rw [hnone x' (List.mem_of_getElem? hold') (by rw [← hsame, hnew, hcid])] at hxyes'
        cases hxyes'
    · rcases (hset x' j').mp hx' with ⟨-, hnew'⟩ | ⟨-, hold'⟩
      · rw [hnone x (List.mem_of_getElem? hold) (by rw [hsame, hnew', hcid])] at hxyes
        cases hxyes
      · exact h.agree j j' x x' hold hold' hsame hxyes hxyes'
  · intro cid j hj
    obtain ⟨x, hx, hxcid⟩ := h.filed cid j hj
    by_cases hjr : j = r
    · subst hjr
      have hxm : x = m := Option.some_inj.mp (hx.symm.trans hm)
      exact ⟨m', (hset m' j).mpr (Or.inl ⟨rfl, rfl⟩), by rw [hcid, ← hxcid, hxm]⟩
    · exact ⟨x, (hset x j).mpr (Or.inr ⟨hjr, hx⟩), hxcid⟩
  · intro cid j x hj hx hxno
    rcases (hset x j).mp hx with ⟨-, rfl⟩ | ⟨hjr, hx⟩
    · rw [hyes'] at hxno
      cases hxno
    · have hne : cid ≠ m.conditionId := by
        rintro rfl
        exact hjr (Option.some_inj.mp (hj.symm.trans hcurrent))
      exact hrest cid hne (h.current cid j x hj hx hxno)
  · intro round hround j hj
    obtain ⟨x, hx, hxpending⟩ := h.pending round hround j hj
    have hne : x.conditionId ≠ m.conditionId := by
      intro heq
      apply hother round hround j hj
      rw [hx, Option.map_some, heq]
    have hjr : j ≠ r := by
      rintro rfl
      exact hne (congrArg _ (Option.some_inj.mp (hx.symm.trans hm)))
    exact ⟨x, (hset x j).mpr (Or.inr ⟨hjr, hx⟩), fun hxno => hrest _ hne (hxpending hxno)⟩
  · intro round hround
    have hsame : (round.pending.map fun j => (s.metas.set r m')[j]?.map (·.conditionId)) =
        round.pending.map fun j => s.metas[j]?.map (·.conditionId) := by
      apply List.map_congr_left
      intro j hj
      obtain ⟨x, hx, -⟩ := h.pending round hround j hj
      rw [hx]
      by_cases hjr : j = r
      · subst hjr
        have hxm : x = m := Option.some_inj.mp (hx.symm.trans hm)
        rw [(hset m' j).mpr (Or.inl ⟨rfl, rfl⟩), Option.map_some, Option.map_some, hcid, hxm]
      · rw [(hset x j).mpr (Or.inr ⟨hjr, hx⟩)]
    dsimp only
    rw [hsame]
    exact h.once round hround

/-- One market of a round: the objects stay in agreement, and what is published is the price of
an object that has the captured price if there is one.
SOURCE: paper/tick_recorder.py:100-148 -/
theorem coherent_record (book : CLOBBookSnapshot K) (delivered : Bool) (s : RecorderState K)
    (h : Coherent s) (hcurrent : CapturesCurrent s (.records book delivered)) :
    Coherent (s.record book delivered).1 ∧ KeepsCaptured s (s.record book delivered).1 ∧
      (s.record book delivered).2.length ≤ 1 ∧
      ∀ d ∈ (s.record book delivered).2, ∃ (r : ℕ) (m : MarketMeta K),
        (s.record book delivered).1.metas[r]? = some m ∧ d.conditionId = some m.conditionId ∧
        d.openPrice = some m.openPrice ∧
        (m.openPriceCaptured = false → Uncaptured (s.record book delivered).1 m.conditionId) := by
  have hkeep : KeepsCaptured s s := fun r m hm _ => hm
  unfold RecorderState.record
  cases hround : s.round with
  | none => exact ⟨h, hkeep, Nat.zero_le 1, fun d hd => by cases hd⟩
  | some round =>
    dsimp only
    cases hpending : round.pending with
    | nil => exact ⟨h, hkeep, Nat.zero_le 1, fun d hd => by cases hd⟩
    | cons r rest =>
      have htail := coherent_tail s round r rest h hround hpending
      obtain ⟨m, hm, hmpending⟩ := h.pending round hround r (by rw [hpending]; simp)
      obtain ⟨hcid, hcapture, hpublished⟩ := recordMarket_spec m book round.feed round.now
      have hcapturing := hcurrent round hround r (by rw [hpending]; rfl) m hm
      have honce := h.once round hround
      rw [hpending, List.map_cons, List.nodup_cons, hm] at honce
      dsimp only
      rw [hm]
      dsimp only
      generalize hrecorded : recordMarket m (some book) round.feed round.now = recorded at *
      obtain ⟨m', out⟩ := recorded
      have hset := fun x j => getElem?_set_iff s.metas m m' x r j hm
      have hstate : Coherent { s with
          metas := s.metas.set r m', round := some { round with pending := rest } } ∧
          (m'.openPriceCaptured = false → Uncaptured { s with
            metas := s.metas.set r m', round := some { round with pending := rest } }
              m'.conditionId) := by
        rcases hcapture with rfl | ⟨hno, hyes⟩
        · -- nothing captured: the object is as it was
          have hsame : s.metas.set r m' = s.metas := by
            apply List.ext_getElem?
            intro j
            apply Option.ext
            intro x
            rw [hset x j]
            constructor
            · rintro (⟨rfl, rfl⟩ | ⟨-, hx⟩)
              · exact hm
              · exact hx
            · intro hx
              by_cases hj : j = r
              · subst hj
                exact Or.inl ⟨rfl, Option.some_inj.mp (hx.symm.trans hm)⟩
              · exact Or.inr ⟨hj, hx⟩
          rw [hsame]
          exact ⟨htail, hmpending⟩
        · refine ⟨?_, fun hno' => absurd (hno'.symm.trans hyes) (by decide)⟩
          apply coherent_capture _ r m m' htail hm (hcapturing hno hyes) hno hyes hcid
          rintro round' ⟨⟩ r' hr' heq
          exact honce.1 (List.mem_map.mpr ⟨r', hr', heq⟩)
      refine ⟨hstate.1, ?_, ?_, ?_⟩
      · intro j x hx hxyes
        apply (hset x j).mpr
        by_cases hj : j = r
        · subst hj
          have hxm : x = m := Option.some_inj.mp (hx.symm.trans hm)
          refine Or.inl ⟨rfl, ?_⟩
          rcases hcapture with heq | ⟨hno, -⟩
          · rw [hxm]
            exact heq.symm
          · rw [hxm, hno] at hxyes
            cases hxyes
        · exact Or.inr ⟨hj, hx⟩
      · cases out with
        | none => exact Nat.zero_le 1
        | some published =>
          cases delivered
          · exact Nat.zero_le 1
          · exact le_rfl
      · intro d hd
        cases out with
        | none => cases hd
        | some published =>
          obtain ⟨tick, row⟩ := published
          cases delivered with
          | false => cases hd
          | true =>
            obtain rfl := List.mem_singleton.mp hd
            obtain ⟨hdcid, hprice⟩ := hpublished d row rfl
            refine ⟨r, m', (hset m' r).mpr (Or.inl ⟨rfl, rfl⟩), ?_, hprice, hstate.2⟩
            rw [hdcid]
            exact congrArg some hcid.symm

/-! ## Runs -/

/-- Every step keeps the objects in agreement. -/
theorem coherent_step (s : RecorderState K) (l : RecorderLabel K) (h : Coherent s)
    (hcurrent : CapturesCurrent s l) :
    Coherent (recorderMachine.next s l) ∧ KeepsCaptured s (recorderMachine.next s l) ∧
      (recorderMachine.emits s l).length ≤ 1 ∧
      ∀ d ∈ recorderMachine.emits s l, ∃ (r : ℕ) (m : MarketMeta K),
        (recorderMachine.next s l).metas[r]? = some m ∧ d.conditionId = some m.conditionId ∧
        d.openPrice = some m.openPrice ∧
        (m.openPriceCaptured = false →
          Uncaptured (recorderMachine.next s l) m.conditionId) := by
  cases l with
  | adds families now events =>
    obtain ⟨hcoherent, hkeeps⟩ := coherent_adds families now events s h hcurrent
    exact ⟨hcoherent, hkeeps, Nat.zero_le 1, fun d hd => by cases hd⟩
  | drops now =>
    exact ⟨coherent_drop now s h, fun r m hm _ => hm, Nat.zero_le 1, fun d hd => by cases hd⟩
  | startsRound now feed hasBook =>
    unfold Machine.next Machine.emits recorderMachine recorderStep
    dsimp only
    split
    · exact ⟨coherent_start now feed hasBook s h, fun r m hm _ => hm, Nat.zero_le 1,
        fun d hd => by cases hd⟩
    · exact ⟨h, fun r m hm _ => hm, Nat.zero_le 1, fun d hd => by cases hd⟩
  | records book delivered => exact coherent_record book delivered s h hcurrent

/-- The published prices are those of captured objects. -/
def PublishedFrom (s : RecorderState K) (ticks : List (TickDict K)) : Prop :=
  ∀ d ∈ ticks, ∀ x, d.openPrice = some x → 0 < x → ∃ (r : ℕ) (m : MarketMeta K),
    s.metas[r]? = some m ∧ d.conditionId = some m.conditionId ∧ m.openPriceCaptured = true ∧
      m.openPrice = x

/-- **The strike is latched.** In every run of discovery and recorder whose captures are made in
the object the map holds at that time, once a tick of a market has been published with an open
price above zero, every later tick of the market carries it.
SOURCE: paper/tick_recorder.py:73-148; paper/feeds.py:352-379, 452-480 -/
theorem strike_latched (ls : List (RecorderLabel K))
    (hls : recorderMachine.Along CapturesCurrent RecorderState.empty ls) :
    StrikeLatched (recorderMachine.trace RecorderState.empty ls) := by
  have hrun := recorderMachine.invariant
    (fun pre l => CapturesCurrent (recorderMachine.final RecorderState.empty pre) l)
    (fun _ s ticks => Coherent s ∧ PublishedFrom s ticks ∧ StrikeLatched ticks)
    (RecorderState.empty : RecorderState K) ?_ ?_ ls hls
  · exact hrun.2.2
  · refine ⟨⟨?_, ?_, ?_, ?_, ?_, ?_⟩, (fun d hd => by cases hd), List.Pairwise.nil⟩
    · intro r m hm
      cases hm
    · intro r r' m m' hm
      cases hm
    · intro cid r hr
      cases hr
    · intro cid r m hr
      cases hr
    · intro round hround
      cases hround
    · intro round hround
      cases hround
  · intro pre l hcurrent ⟨hcoherent, hpublished, hlatched⟩
    generalize recorderMachine.final RecorderState.empty pre = s at *
    obtain ⟨hnext, hkeeps, hone, hemits⟩ := coherent_step s l hcoherent hcurrent
    refine ⟨hnext, ?_, ?_⟩
    · intro d hd x hx hpos
      rcases List.mem_append.mp hd with hold | hnew
      · obtain ⟨r, m, hm, hcid, hyes, hprice⟩ := hpublished d hold x hx hpos
        exact ⟨r, m, hkeeps r m hm hyes, hcid, hyes, hprice⟩
      · obtain ⟨r, m, hm, hcid, hprice, -⟩ := hemits d hnew
        have hmx : m.openPrice = x := Option.some_inj.mp (hprice.symm.trans hx)
        refine ⟨r, m, hm, hcid, ?_, hmx⟩
        -- an object without a captured price shows zero
        by_contra hno
        rw [← hmx, hnext.zero r m hm (by simpa using hno)] at hpos
        exact lt_irrefl 0 hpos
    · refine List.pairwise_append.mpr ⟨hlatched, ?_, ?_⟩
      · generalize recorderMachine.emits s l = emitted at hone
        rcases emitted with _ | ⟨d, _ | ⟨d', emitted⟩⟩
        · exact List.Pairwise.nil
        · exact List.pairwise_singleton _ d
        · rw [List.length_cons, List.length_cons] at hone
          omega
      · intro d hd d' hd' hsame x hx hpos
        obtain ⟨r, m, hm, hcid, hyes, hprice⟩ := hpublished d hd x hx hpos
        obtain ⟨r', m', hm', hcid', hprice', hpending⟩ := hemits d' hd'
        have hmarket : m.conditionId = m'.conditionId :=
          Option.some_inj.mp (hcid.symm.trans (hsame.trans hcid'))
        have hyes' : m'.openPriceCaptured = true := by
          by_contra hno
          have huncaptured := hpending (by simpa using hno) m
            (List.mem_of_getElem? (hkeeps r m hm hyes)) hmarket
          rw [huncaptured] at hyes
          cases hyes
        rw [hprice', ← hnext.agree r r' m m' (hkeeps r m hm hyes) hm' hmarket hyes hyes', hprice]

section Instance

/-- A 5-minute market that closes at 1500. -/
def closesAt1500 (family conditionId : String) : GammaMarket :=
  ⟨false, family ++ "1500", some 1500, some conditionId, ["up", "down"]⟩

def emptyBook : CLOBBookSnapshot ℚ := ⟨0, 0, 0, 0, 0, 0⟩

/-- A market is discovered and recorded twice, with another answer in between. -/
def oneMarketRun : List (RecorderLabel ℚ) :=
  [.adds ["btc-updown-5m-"] 1100 [closesAt1500 "btc-updown-5m-" "0xa"],
    .startsRound 1201 ⟨100, 0⟩ fun _ => true,
    .records emptyBook true,
    .adds ["btc-updown-5m-"] 1202 [closesAt1500 "btc-updown-5m-" "0xa"],
    .startsRound 1203 ⟨101, 0⟩ fun _ => true,
    .records emptyBook true]

/-- Both records have the first strike. -/
theorem strike_latched_oneMarketRun :
    StrikeLatched (recorderMachine.trace RecorderState.empty oneMarketRun) ∧
      (recorderMachine.trace RecorderState.empty oneMarketRun).map (·.openPrice) =
        [some 100, some 100] := by
  refine ⟨strike_latched oneMarketRun ?_, by decide +kernel⟩
  unfold oneMarketRun
  iterate 6 refine (Machine.along_cons_iff _ _ _ _ _).mpr ⟨by decide +kernel, ?_⟩
  exact Obeys.nil

/-- Two markets in a round, and an answer of the API while the first is published: the open price
of the second is captured in an object that is no longer in the map, and captured anew in the
next round.
SOURCE: paper/tick_recorder.py:84-146; paper/feeds.py:452-465 -/
theorem strike_recaptured :
    ¬∀ ls : List (RecorderLabel ℚ),
      StrikeLatched (recorderMachine.trace RecorderState.empty ls) := by
  intro h
  have hlatched := h [
    .adds ["btc-updown-5m-"] 1100 [closesAt1500 "btc-updown-5m-" "0xa"],
    .adds ["eth-updown-5m-"] 1100 [closesAt1500 "eth-updown-5m-" "0xb"],
    .startsRound 1201 ⟨100, 0⟩ fun _ => true,
    .records emptyBook true,
    .adds ["eth-updown-5m-"] 1201 [closesAt1500 "eth-updown-5m-" "0xb"],
    .records emptyBook true,
    .startsRound 1202 ⟨101, 0⟩ fun _ => true,
    .records emptyBook true,
    .records emptyBook true]
  unfold StrikeLatched at hlatched
  exact absurd hlatched (by decide +kernel)

end Instance

end TradingEdge.Analysis
