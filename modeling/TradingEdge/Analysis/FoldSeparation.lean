import TradingEdge.Program.WalkForward

/-!
# Training and test markets of a walk-forward fold

A fold ends its in-sample part at the instant its out-of-sample part begins, and the market
filter includes both ends of either part.  A market that closes at that instant is therefore in
both.  Other markets of the two parts can only touch if their windows overlap, which markets on
the grid of five minutes never do.
-/

set_option autoImplicit false

namespace TradingEdge.Analysis

open TradingEdge.Model TradingEdge.Program

variable {K : Type}

/-- No market is in both parts, and every window tested on opens after every window trained on
has closed. -/
structure FoldSeparated (fold : FoldWindow) (markets : List (ResolvedMarket K)) : Prop where
  disjoint : (isMarkets fold markets).Disjoint (oosMarkets fold markets)
  opensAfter : ∀ m ∈ oosMarkets fold markets, ∀ m' ∈ isMarkets fold markets,
    m'.closeTs ≤ m.openTs

/-- No market closes at the instant the two parts share. -/
def NoneAtBoundary (fold : FoldWindow) (markets : List (ResolvedMarket K)) : Prop :=
  ∀ m ∈ markets, m.closeTs * 1000000 ≠ fold.isTo

/-- No market that closes behind the shared instant opens before one has closed in front of
it. -/
def NoneAcrossBoundary (fold : FoldWindow) (markets : List (ResolvedMarket K)) : Prop :=
  ∀ m ∈ markets, ∀ m' ∈ markets, fold.isFrom ≤ m'.closeTs * 1000000 →
    m'.closeTs * 1000000 < fold.isTo → fold.isTo < m.closeTs * 1000000 →
    m.closeTs * 1000000 ≤ fold.oosTo → m'.closeTs ≤ m.openTs

/-- The windows are 300 seconds long. -/
def FiveMinuteWindows (markets : List (ResolvedMarket K)) : Prop :=
  ∀ m ∈ markets, m.closeTs = m.openTs + 300

/-- The loader gives every market a window of 300 seconds.
SOURCE: cli/train_last90s.py:221-227 -/
theorem loadResolvedMarkets_windows (minuteCloses : ℤ → Option K) (slugEncodesOpenTs : Bool)
    (db : Option (PolybotDb K)) :
    FiveMinuteWindows (loadResolvedMarkets minuteCloses slugEncodesOpenTs db) := by
  intro m hm
  cases db with
  | none => cases hm
  | some db =>
    obtain ⟨slug, -, hslug⟩ := List.mem_filterMap.mp hm
    simp only [resolvedMarket, Option.bind_eq_bind, Option.bind_eq_some_iff, Option.pure_def,
      Option.some.injEq] at hslug
    obtain ⟨trailing, -, binOpen, -, binClose, -, rfl⟩ := hslug
    cases slugEncodesOpenTs with
    | false =>
      change trailing = trailing - 300 + 300
      omega
    | true => rfl

/-- The training markets close in the first part. -/
theorem mem_isMarkets {fold : FoldWindow} {markets : List (ResolvedMarket K)}
    {m : ResolvedMarket K} :
    m ∈ isMarkets fold markets ↔ m ∈ markets ∧ ClosesIn m fold.isFrom fold.isTo := by
  simp [isMarkets]

/-- The test markets close in the second part. -/
theorem mem_oosMarkets {fold : FoldWindow} {markets : List (ResolvedMarket K)}
    {m : ResolvedMarket K} :
    m ∈ oosMarkets fold markets ↔ m ∈ markets ∧ ClosesIn m fold.oosFrom fold.oosTo := by
  simp [oosMarkets]

/-- **One fold.** Its parts are separated exactly when no market closes at the shared instant and
no two markets overlap across it. -/
theorem foldSeparated_iff (fold : FoldWindow) (markets : List (ResolvedMarket K))
    (hwindows : FiveMinuteWindows markets) (his : fold.isFrom < fold.isTo)
    (hmeet : fold.oosFrom = fold.isTo) (hoos : fold.oosFrom < fold.oosTo) :
    FoldSeparated fold markets ↔
      NoneAtBoundary fold markets ∧ NoneAcrossBoundary fold markets := by
  constructor
  · intro h
    refine ⟨?_, ?_⟩
    · intro m hm heq
      have hin : m ∈ isMarkets fold markets :=
        mem_isMarkets.mpr ⟨hm, by unfold ClosesIn; omega⟩
      have hout : m ∈ oosMarkets fold markets :=
        mem_oosMarkets.mpr ⟨hm, by unfold ClosesIn; omega⟩
      exact h.disjoint hin hout
    · intro m hm m' hm' hfrom hbefore hafter hto
      apply h.opensAfter m (mem_oosMarkets.mpr ⟨hm, by unfold ClosesIn; omega⟩) m'
      exact mem_isMarkets.mpr ⟨hm', by unfold ClosesIn; omega⟩
  · rintro ⟨hat, hacross⟩
    have hopens : ∀ m ∈ oosMarkets fold markets, ∀ m' ∈ isMarkets fold markets,
        m'.closeTs ≤ m.openTs := by
      intro m hm m' hm'
      obtain ⟨hm, hfrom, hto⟩ := mem_oosMarkets.mp hm
      obtain ⟨hm', hfrom', hto'⟩ := mem_isMarkets.mp hm'
      have hne := hat m hm
      have hne' := hat m' hm'
      exact hacross m hm m' hm' hfrom' (by omega) (by omega) hto
    refine ⟨?_, hopens⟩
    intro m hin hout
    have hself := hopens m hout m hin
    have hlength := hwindows m (mem_isMarkets.mp hin).1
    omega

/-- On the grid of five minutes two windows do not overlap. -/
theorem noneAcrossBoundary_of_grid (fold : FoldWindow) (markets : List (ResolvedMarket K))
    (hwindows : FiveMinuteWindows markets) (hgrid : ∀ m ∈ markets, 300 ∣ m.closeTs) :
    NoneAcrossBoundary fold markets := by
  intro m hm m' hm' _ hbefore hafter _
  have hlength := hwindows m hm
  obtain ⟨c, hc⟩ := hgrid m hm
  obtain ⟨c', hc'⟩ := hgrid m' hm'
  omega

/-- **Walk-forward separation.** For every list of resolved markets and every tiling that
`build_folds` admits, training and test markets are separated in every fold exactly when, for
every fold, no market closes at the instant the two parts share and no two markets overlap
across it.
SOURCE: cli/walk_forward.py:197-206, research/walk_forward.py:48-87 -/
theorem folds_separated_iff (minuteCloses : ℤ → Option K) (db : Option (PolybotDb K))
    (tFrom tTo isDays oosDays stepDays : ℤ) :
    (∀ folds, buildFolds tFrom tTo isDays oosDays stepDays = .ok folds → ∀ fold ∈ folds,
        FoldSeparated fold (loadResolvedMarkets minuteCloses true db)) ↔
      ∀ folds, buildFolds tFrom tTo isDays oosDays stepDays = .ok folds → ∀ fold ∈ folds,
        NoneAtBoundary fold (loadResolvedMarkets minuteCloses true db) ∧
          NoneAcrossBoundary fold (loadResolvedMarkets minuteCloses true db) := by
  have hwindows := loadResolvedMarkets_windows minuteCloses true db
  refine forall_congr' fun folds => forall_congr' fun hfolds => ?_
  refine forall_congr' fun fold => forall_congr' fun hfold => ?_
  obtain ⟨his, hmeet, hoos⟩ := mem_buildFolds hfolds hfold
  exact foldSeparated_iff fold _ hwindows his hmeet hoos

/-- A file with one resolved market, of the last five minutes before midnight. -/
def midnightDb : PolybotDb ℚ where
  trades := [⟨"btc-updown-5m-86100", some "win"⟩]
  resolvedSlugs := ["btc-updown-5m-86100"]
  nodup_resolvedSlugs := List.nodup_singleton _
  mem_resolvedSlugs_iff := by
    intro slug
    constructor
    · intro h
      obtain rfl := List.mem_singleton.mp h
      exact ⟨by decide +kernel, _, List.mem_singleton_self _, rfl, Or.inl rfl⟩
    · rintro ⟨-, t, ht, rfl, -⟩
      obtain rfl := List.mem_singleton.mp ht
      exact List.mem_singleton_self _
  ticks _ := []

/-- A market that closes at midnight, under folds that change at midnight: it is trained on and
tested on.
SOURCE: cli/walk_forward.py:202-206 -/
theorem midnight_market_in_both :
    ¬∀ (minuteCloses : ℤ → Option ℚ) (db : Option (PolybotDb ℚ))
      (tFrom tTo isDays oosDays stepDays : ℤ) (folds : List FoldWindow),
      buildFolds tFrom tTo isDays oosDays stepDays = .ok folds → ∀ fold ∈ folds,
        FoldSeparated fold (loadResolvedMarkets minuteCloses true db) := by
  intro h
  have hfolds : buildFolds 0 172800000000 1 1 1 = .ok [foldAt 1 1 0 0] := by
    unfold buildFolds
    rw [dif_pos (by decide), if_neg (by decide), foldsFrom, if_neg (by decide), foldsFrom,
      if_pos (by decide)]
  have hseparated := h (fun _ => some 1) (some midnightDb) 0 172800000000 1 1 1 _ hfolds
    (foldAt 1 1 0 0) (List.mem_singleton_self _)
  have hmarket : (⟨"btc-updown-5m-86100", 86100, 86400, 1, 1⟩ : ResolvedMarket ℚ) ∈
      loadResolvedMarkets (fun _ => some 1) true (some midnightDb) :=
    List.mem_filterMap.mpr ⟨_, List.mem_singleton_self _, by decide +kernel⟩
  exact hseparated.disjoint (mem_isMarkets.mpr ⟨hmarket, by decide +kernel⟩)
    (mem_oosMarkets.mpr ⟨hmarket, by decide +kernel⟩)

end TradingEdge.Analysis
