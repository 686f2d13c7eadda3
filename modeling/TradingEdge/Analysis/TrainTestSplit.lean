import TradingEdge.Program.TrainLast90s

/-!
# Training and test samples of the forecaster

The split of the training set is by position.  The samples come in the order of the rows they
are built from, the rows of the first file before those of the second, so two cuts of that list
of rows decide whether the parts are separated.  Nothing sorts the rows of the two files or
takes out the markets they share.
-/

set_option autoImplicit false

namespace TradingEdge.Analysis

open TradingEdge.Model TradingEdge.Program

/-! ## Cuts of a list -/

/-- A relation holds from every entry in front of a position to every entry behind it. -/
def AcrossCut {α : Type} (R : α → α → Prop) (cut : ℕ) (xs : List α) : Prop :=
  ∀ i j a b, i < cut → cut ≤ j → xs[i]? = some a → xs[j]? = some b → R a b

/-- A relation across a cut, by what stands before it and behind it. -/
theorem acrossCut_iff {α : Type} (R : α → α → Prop) (cut : ℕ) (xs : List α) :
    AcrossCut R cut xs ↔ ∀ a ∈ xs.take cut, ∀ b ∈ xs.drop cut, R a b := by
  constructor
  · intro h a ha b hb
    obtain ⟨i, hi, hia⟩ := List.mem_take_iff_getElem.mp ha
    obtain ⟨j, hj, hjb⟩ := List.mem_drop_iff_getElem.mp hb
    apply h i (j + cut) a b (by omega) (by omega)
    · rw [List.getElem?_eq_getElem (by omega), hia]
    · rw [Nat.add_comm, List.getElem?_eq_getElem (by omega), hjb]
  · intro h i j a b hi hj ha hb
    obtain ⟨hilt, hia⟩ := List.getElem?_eq_some_iff.mp ha
    obtain ⟨hjlt, hjb⟩ := List.getElem?_eq_some_iff.mp hb
    apply h
    · exact List.mem_take_iff_getElem.mpr ⟨i, by omega, hia⟩
    · refine List.mem_drop_iff_getElem.mpr ⟨j - cut, by omega, ?_⟩
      simpa [Nat.add_sub_cancel' hj] using hjb

/-- A relation across a cut of a mapped list. -/
theorem acrossCut_map {α β : Type} (R : β → β → Prop) (f : α → β) (cut : ℕ) (xs : List α) :
    AcrossCut R cut (xs.map f) ↔ AcrossCut (fun a b => R (f a) (f b)) cut xs := by
  simp only [acrossCut_iff, ← List.map_take, ← List.map_drop, List.forall_mem_map]

/-- A relation that every entry has to every later one holds across every cut. -/
theorem acrossCut_of_pairwise {α : Type} {R : α → α → Prop} {xs : List α} (h : xs.Pairwise R)
    (cut : ℕ) : AcrossCut R cut xs := by
  intro i j a b hi hj ha hb
  obtain ⟨hilt, hia⟩ := List.getElem?_eq_some_iff.mp ha
  obtain ⟨hjlt, hjb⟩ := List.getElem?_eq_some_iff.mp hb
  have hij := List.pairwise_iff_getElem.mp h i j hilt hjlt (by omega)
  rwa [hia, hjb] at hij

/-! ## The rows of the samples -/

/-- What the separation looks at in a sample and in the row it is built from. -/
structure MarketKey where
  slug : String
  openTs : ℤ
  closeTs : ℤ
deriving DecidableEq

/-- The same slug or the same window. -/
def MarketKey.SameMarket (a b : MarketKey) : Prop :=
  a.slug = b.slug ∨ a.openTs = b.openTs ∧ a.closeTs = b.closeTs

def sampleKey {V : Type} (s : Sample V) : MarketKey := ⟨s.slug, s.openTs, s.closeTs⟩

def rowKey {K : Type} (m : ResolvedMarket K) : MarketKey := ⟨m.slug, m.openTs, m.closeTs⟩

/-- The parts are separated: no test sample is earlier than another sample, and no market has
samples in two parts. -/
structure PartitionsSeparated {V : Type} (p : Partitions (Sample V)) : Prop where
  testLast : ∀ s ∈ p.train ++ p.val, ∀ t ∈ p.test, s.openTs ≤ t.openTs
  trainVal : ∀ s ∈ p.train, ∀ t ∈ p.val, ¬(sampleKey s).SameMarket (sampleKey t)
  trainTest : ∀ s ∈ p.train, ∀ t ∈ p.test, ¬(sampleKey s).SameMarket (sampleKey t)
  valTest : ∀ s ∈ p.val, ∀ t ∈ p.test, ¬(sampleKey s).SameMarket (sampleKey t)

/-- The condition on a list of rows: no later row in front of the second cut than one behind it,
and no market on both sides of a cut. -/
structure CleanCuts (rows : List MarketKey) : Prop where
  ordered : AcrossCut (fun a b => a.openTs ≤ b.openTs)
    (nTrain rows.length + nVal rows.length) rows
  distinctTrain : AcrossCut (fun a b => ¬a.SameMarket b) (nTrain rows.length) rows
  distinctTest : AcrossCut (fun a b => ¬a.SameMarket b)
    (nTrain rows.length + nVal rows.length) rows

/-- Rows in the order of time without a repeated slug or window meet the condition. -/
theorem CleanCuts.of_sorted {rows : List MarketKey}
    (hsorted : rows.Pairwise fun a b => a.openTs < b.openTs)
    (hslugs : rows.Pairwise fun a b => a.slug ≠ b.slug) : CleanCuts rows := by
  have hdistinct : rows.Pairwise fun a b => ¬a.SameMarket b := by
    apply hslugs.imp₂ _ hsorted
    rintro a b hslug hlt (hsame | ⟨hopen, -⟩)
    · exact hslug hsame
    · omega
  refine ⟨?_, ?_, ?_⟩
  · exact acrossCut_of_pairwise (hsorted.imp fun h => h.le) _
  · exact acrossCut_of_pairwise hdistinct _
  · exact acrossCut_of_pairwise hdistinct _

/-- **The split.** Its parts are separated exactly when the two cuts are clean. -/
theorem partitionsSeparated_iff {V : Type} (samples : List (Sample V)) :
    PartitionsSeparated (splitSamples samples) ↔ CleanCuts (samples.map sampleKey) := by
  have htake : (splitSamples samples).train ++ (splitSamples samples).val =
      samples.take (nTrain samples.length + nVal samples.length) := by
    rw [List.take_add]
    rfl
  have hdrop : (splitSamples samples).val ++ (splitSamples samples).test =
      samples.drop (nTrain samples.length) := by
    simp only [splitSamples, ← List.drop_drop]
    exact List.take_append_drop _ _
  have hordered : AcrossCut (fun a b : MarketKey => a.openTs ≤ b.openTs)
      (nTrain samples.length + nVal samples.length) (samples.map sampleKey) ↔
      ∀ s ∈ (splitSamples samples).train ++ (splitSamples samples).val,
        ∀ t ∈ (splitSamples samples).test, s.openTs ≤ t.openTs := by
    rw [acrossCut_map, acrossCut_iff, htake]
    rfl
  have htrain : AcrossCut (fun a b : MarketKey => ¬a.SameMarket b) (nTrain samples.length)
      (samples.map sampleKey) ↔
      ∀ s ∈ (splitSamples samples).train,
        ∀ t ∈ (splitSamples samples).val ++ (splitSamples samples).test,
          ¬(sampleKey s).SameMarket (sampleKey t) := by
    rw [acrossCut_map, acrossCut_iff, hdrop]
    rfl
  have htest : AcrossCut (fun a b : MarketKey => ¬a.SameMarket b)
      (nTrain samples.length + nVal samples.length) (samples.map sampleKey) ↔
      ∀ s ∈ (splitSamples samples).train ++ (splitSamples samples).val,
        ∀ t ∈ (splitSamples samples).test, ¬(sampleKey s).SameMarket (sampleKey t) := by
    rw [acrossCut_map, acrossCut_iff, htake]
    rfl
  constructor
  · intro h
    refine ⟨?_, ?_, ?_⟩ <;> rw [List.length_map]
    · exact hordered.mpr h.testLast
    · apply htrain.mpr
      intro s hs t ht
      rcases List.mem_append.mp ht with hval | htst
      · exact h.trainVal s hs t hval
      · exact h.trainTest s hs t htst
    · apply htest.mpr
      intro s hs t ht
      rcases List.mem_append.mp hs with htrn | hval
      · exact h.trainTest s htrn t ht
      · exact h.valTest s hval t ht
  · rintro ⟨h₁, h₂, h₃⟩
    rw [List.length_map] at h₁ h₂ h₃
    refine ⟨hordered.mp h₁, ?_, ?_, ?_⟩
    · intro s hs t ht
      exact htrain.mp h₂ s hs t (List.mem_append_left _ ht)
    · intro s hs t ht
      exact htrain.mp h₂ s hs t (List.mem_append_right _ ht)
    · intro s hs t ht
      exact htest.mp h₃ s (List.mem_append_right _ hs) t ht

section Assembly

variable {K V : Type} [Field K] [LinearOrder K]

/-- The rows the samples are built from: the markets of both files in the range, but those the
sample builder passes over. -/
def keptRows (src : TrainSources K V) (args : TrainArgs) : List MarketKey :=
  ((datasetMarkets src args).filter fun e =>
    (sampleOf src args.options (loadOhlcv5m src.candles5m args.dateFrom args.dateTo)
      e.1 e.2).isSome).map fun e => rowKey e.2

/-- A sample has the slug and the window of its row.
SOURCE: cli/train_last90s.py:450-458 -/
theorem sampleOf_key {src : TrainSources K V} {options : SampleOptions}
    {candles5m : List (Candle5m K)} {db : Option (PolybotDb K)} {m : ResolvedMarket K}
    {s : Sample V} (h : sampleOf src options candles5m db m = some s) :
    sampleKey s = rowKey m := by
  simp only [sampleOf] at h
  split at h
  · cases h
  · split at h
    · cases h
    · split at h
      · cases h
      · split at h
        · cases h
        · obtain rfl := Option.some.inj h
          rfl

/-- The samples follow the kept rows. -/
theorem buildSamples_keys (src : TrainSources K V) (options : SampleOptions)
    (candles5m : List (Candle5m K)) (markets : List (Option (PolybotDb K) × ResolvedMarket K)) :
    (buildSamples src options candles5m markets).map sampleKey =
      (markets.filter fun e => (sampleOf src options candles5m e.1 e.2).isSome).map
        fun e => rowKey e.2 := by
  induction markets with
  | nil => rfl
  | cons e rest ih =>
    unfold buildSamples at ih ⊢
    cases hsample : sampleOf src options candles5m e.1 e.2 with
    | none => simp [hsample, ih]
    | some s => simp [hsample, ih, sampleOf_key hsample]

/-- The command goes on to train exactly when a hundred rows are kept, with one sample for each.
SOURCE: cli/train_last90s.py:825-866 -/
theorem assemble_eq_ok_iff (src : TrainSources K V) (args : TrainArgs)
    (samples : List (Sample V)) :
    assemble src args = .ok samples ↔ 100 ≤ (keptRows src args).length ∧
      samples = buildSamples src args.options
        (loadOhlcv5m src.candles5m args.dateFrom args.dateTo) (datasetMarkets src args) := by
  have hlength : (buildSamples src args.options
      (loadOhlcv5m src.candles5m args.dateFrom args.dateTo) (datasetMarkets src args)).length =
      (keptRows src args).length := by
    rw [← List.length_map sampleKey, buildSamples_keys]
    rfl
  have hle : (keptRows src args).length ≤ (datasetMarkets src args).length := by
    rw [keptRows, List.length_map]
    exact List.length_filter_le _ _
  simp only [assemble]
  rw [hlength]
  constructor
  · intro h
    split at h
    · cases h
    · split at h
      · cases h
      · exact ⟨by omega, (Except.ok.inj h).symm⟩
  · rintro ⟨hkept, rfl⟩
    rw [if_neg (by omega), if_neg (by omega)]

/-- **Train/test separation.** For every pair of files and every range of dates, the parts of
the training set are separated exactly when, of the kept rows in the order the two queries
return them, none in front of the test cut is later than one behind it and no market lies on
both sides of a cut.
SOURCE: cli/train_last90s.py:509-516, 817-866 -/
theorem train_test_separated_iff (src : TrainSources K V) (args : TrainArgs) :
    (∀ samples, assemble src args = .ok samples → PartitionsSeparated (splitSamples samples)) ↔
      (100 ≤ (keptRows src args).length → CleanCuts (keptRows src args)) := by
  constructor
  · intro h hkept
    have hseparated := h _ ((assemble_eq_ok_iff src args _).mpr ⟨hkept, rfl⟩)
    rw [partitionsSeparated_iff, buildSamples_keys] at hseparated
    exact hseparated
  · intro h samples hok
    obtain ⟨hkept, rfl⟩ := (assemble_eq_ok_iff src args samples).mp hok
    rw [partitionsSeparated_iff, buildSamples_keys]
    exact h hkept

end Assembly

/-! ## Two files with the same markets -/

/-- The letters of the slug of the `i`-th market of either file. -/
def sharedLetters (i : ℕ) : List Char := "btc-updown-5m-".toList ++ Nat.toDigits 10 (300000 + 300 * i)

def sharedSlug (i : ℕ) : String := String.ofList (sharedLetters i)

/-- The slugs of the shared markets carry their times. -/
theorem trailingTs_sharedSlug :
    ∀ i ∈ List.range 100, trailingTs (sharedSlug i) = some (300000 + 300 * (i : ℤ)) := by
  simp only [trailingTs, sharedSlug, String.toList_ofList]
  decide +kernel

/-- They are of the family the query asks for. -/
theorem likeBtcUpdown5m_sharedSlug : ∀ i ∈ List.range 100, LikeBtcUpdown5m (sharedSlug i) := by
  simp only [LikeBtcUpdown5m, sharedSlug, String.toList_ofList]
  decide +kernel

/-- They are different. -/
theorem nodup_sharedSlugs : ((List.range 100).map sharedSlug).Nodup := by
  apply List.nodup_range.map_on
  intro i hi j hj heq
  have hts := congrArg trailingTs heq
  rw [trailingTs_sharedSlug i hi, trailingTs_sharedSlug j hj, Option.some.injEq] at hts
  omega

/-- A file with a hundred resolved markets and, `lag` seconds after the time of the slug, sixty
ticks of each. -/
def sharedDb (lag : ℤ) : PolybotDb ℚ where
  trades := (List.range 100).map fun i => ⟨sharedSlug i, some "win"⟩
  resolvedSlugs := (List.range 100).map sharedSlug
  nodup_resolvedSlugs := nodup_sharedSlugs
  mem_resolvedSlugs_iff := by
    intro slug
    simp only [List.mem_map]
    constructor
    · rintro ⟨i, hi, rfl⟩
      exact ⟨likeBtcUpdown5m_sharedSlug i hi, _, ⟨i, hi, rfl⟩, rfl, Or.inl rfl⟩
    · rintro ⟨-, t, ⟨i, hi, rfl⟩, rfl, -⟩
      exact ⟨i, hi, rfl⟩
  ticks slug := (trailingTs slug).elim [] fun t => List.replicate 60 (((t + lag : ℤ) : ℚ), some 1)

/-- The time from a market's slug to its ticks. -/
def sharedLag (slugEncodesOpenTs : Bool) : ℤ := if slugEncodesOpenTs then 150 else -150

def sharedCandles : List (Candle5m ℚ) := List.replicate 34 ⟨0, 1, 1, 1⟩

/-- Both files, a candle for every minute and enough candles behind every market. -/
def sharedSources : TrainSources ℚ Unit where
  polybotBtc5m := some (sharedDb (sharedLag false))
  polybotAgent := some (sharedDb (sharedLag true))
  minuteCloses _ := some 1
  candles5m := sharedCandles
  impliedYes _ _ := none
  microstructure _ _ := ([⟨1, 1, "buy"⟩], 1)
  vector _ := ()

def sharedArgs : TrainArgs := ⟨0, 400000000000, false, ⟨false, 90⟩⟩

/-- The `i`-th market as a file reads it whose slugs have their time at the open or the close. -/
def sharedMarket (slugEncodesOpenTs : Bool) (i : ℕ) : ResolvedMarket ℚ :=
  if slugEncodesOpenTs then ⟨sharedSlug i, 300000 + 300 * i, 300000 + 300 * i + 300, 1, 1⟩
  else ⟨sharedSlug i, 300000 + 300 * i - 300, 300000 + 300 * i, 1, 1⟩

/-- Each file gives its hundred markets. -/
theorem loadResolvedMarkets_sharedDb (slugEncodesOpenTs : Bool) (lag : ℤ) :
    loadResolvedMarkets (fun _ => some 1) slugEncodesOpenTs (some (sharedDb lag)) =
      (List.range 100).map (sharedMarket slugEncodesOpenTs) := by
  simp only [loadResolvedMarkets, sharedDb, List.filterMap_map]
  rw [← List.filterMap_eq_map]
  apply List.filterMap_congr
  intro i hi
  cases slugEncodesOpenTs <;>
    simp [resolvedMarket, sharedMarket, trailingTs_sharedSlug i hi]

/-- When a shared market opens, as a file has it. -/
theorem sharedMarket_openTs (slugEncodesOpenTs : Bool) (i : ℕ) :
    (sharedMarket slugEncodesOpenTs i).openTs =
      300000 + 300 * i + sharedLag slugEncodesOpenTs - 150 := by
  cases slugEncodesOpenTs <;> simp only [sharedMarket, sharedLag] <;> grind

/-- The slug of a shared market, which both files have. -/
theorem sharedMarket_slug (slugEncodesOpenTs : Bool) (i : ℕ) :
    (sharedMarket slugEncodesOpenTs i).slug = sharedSlug i := by
  cases slugEncodesOpenTs <;> rfl

/-- Every market has its sixty ticks. -/
theorem loadTicksForSlug_shared (lag : ℤ) {i : ℕ} (hi : i ∈ List.range 100) :
    (loadTicksForSlug (some (sharedDb lag)) (sharedSlug i)
      (300000 + 300 * i + lag - 150 + 120) (300000 + 300 * i + lag - 150 + 210)).length = 60 := by
  have hlo : ((300000 + 300 * i + lag - 150 + 120 : ℤ) : ℚ) ≤ (300000 + 300 * i + lag : ℤ) := by
    exact_mod_cast (by omega : (300000 + 300 * i + lag - 150 + 120 : ℤ) ≤ 300000 + 300 * i + lag)
  have hhi : ((300000 + 300 * i + lag : ℤ) : ℚ) ≤ (300000 + 300 * i + lag - 150 + 210 : ℤ) := by
    exact_mod_cast (by omega : (300000 + 300 * i + lag : ℤ) ≤ 300000 + 300 * i + lag - 150 + 210)
  simp only [loadTicksForSlug, sharedDb, trailingTs_sharedSlug i hi, Option.elim_some]
  rw [List.filterMap_replicate_of_some (b := 1)]
  · exact List.length_replicate
  · rw [if_pos ⟨hlo, hhi⟩]
    exact Option.filter_some_pos (decide_eq_true one_pos)

/-- All candles are complete at the time of every sample. -/
theorem macroAt_shared {asOf : ℤ} (h : 300 ≤ asOf) :
    macroAt (loadOhlcv5m sharedCandles 0 400000000000) asOf = some sharedCandles := by
  have hload : loadOhlcv5m sharedCandles 0 400000000000 = sharedCandles := by
    apply List.filter_eq_self.mpr
    intro c hc
    obtain rfl := List.eq_of_mem_replicate hc
    decide +kernel
  have hcomplete : (0 : ℚ) ≤ ((asOf - 300 : ℤ) : ℚ) := by
    exact_mod_cast (by omega : (0 : ℤ) ≤ asOf - 300)
  have heligible : (sharedCandles.filter fun c => c.ts ≤ ((asOf - 300 : ℤ) : ℚ)) =
      sharedCandles := by
    apply List.filter_eq_self.mpr
    intro c hc
    obtain rfl := List.eq_of_mem_replicate hc
    exact decide_eq_true hcomplete
  rw [hload, macroAt]
  simp only [heligible]
  rfl

/-- Every market of either file is kept. -/
theorem sampleOf_sharedMarket (slugEncodesOpenTs : Bool) {i : ℕ} (hi : i ∈ List.range 100) :
    (sampleOf sharedSources ⟨false, 90⟩ (loadOhlcv5m sharedCandles 0 400000000000)
      (some (sharedDb (sharedLag slugEncodesOpenTs)))
      (sharedMarket slugEncodesOpenTs i)).isSome := by
  have hspots := loadTicksForSlug_shared (sharedLag slugEncodesOpenTs) hi
  rw [← sharedMarket_openTs, ← sharedMarket_slug slugEncodesOpenTs] at hspots
  have hmacro : macroAt (loadOhlcv5m sharedCandles 0 400000000000)
      ((sharedMarket slugEncodesOpenTs i).openTs + 210) = some sharedCandles := by
    apply macroAt_shared
    rw [sharedMarket_openTs, sharedLag]
    split <;> omega
  simp [sampleOf, hspots, hmacro, impliedProb, sharedSources]

/-- Every market of either file closes in the range. -/
theorem closesIn_shared (slugEncodesOpenTs : Bool) {i : ℕ} (hi : i ∈ List.range 100) :
    ClosesIn (sharedMarket slugEncodesOpenTs i) 0 400000000000 := by
  have hlt := List.mem_range.mp hi
  cases slugEncodesOpenTs <;> simp only [ClosesIn, sharedMarket] <;> constructor <;> grind

/-- The markets of the two files, one file after the other. -/
theorem datasetMarkets_shared : datasetMarkets sharedSources sharedArgs =
    (List.range 100).map (fun i => (some (sharedDb (sharedLag false)), sharedMarket false i)) ++
      (List.range 100).map
        (fun i => (some (sharedDb (sharedLag true)), sharedMarket true i)) := by
  simp only [datasetMarkets, btc5mSnapshot, sharedSources, sharedArgs, Bool.false_eq_true, if_false,
    loadResolvedMarkets_sharedDb, List.map_map]
  apply List.filter_eq_self.mpr
  intro e he
  rcases List.mem_append.mp he with h | h <;> obtain ⟨i, hi, rfl⟩ := List.mem_map.mp h
  · exact decide_eq_true (closesIn_shared false hi)
  · exact decide_eq_true (closesIn_shared true hi)

/-- All of their rows are kept. -/
theorem keptRows_shared : keptRows sharedSources sharedArgs =
    (List.range 100).map (fun i => rowKey (sharedMarket false i)) ++
      (List.range 100).map (fun i => rowKey (sharedMarket true i)) := by
  rw [keptRows, datasetMarkets_shared, List.filter_eq_self.mpr]
  · rw [List.map_append, List.map_map, List.map_map]
    rfl
  · intro e he
    rcases List.mem_append.mp he with h | h <;> obtain ⟨i, hi, rfl⟩ := List.mem_map.mp h
    · exact sampleOf_sharedMarket false hi
    · exact sampleOf_sharedMarket true hi

/-- The two files hold the same hundred markets.  The market at row 70 of the first is trained
on, and tested on as row 70 of the second.
SOURCE: cli/train_last90s.py:825-827 -/
theorem shared_market_in_both :
    ¬∀ (src : TrainSources ℚ Unit) (args : TrainArgs) (samples : List (Sample Unit)),
      assemble src args = .ok samples → PartitionsSeparated (splitSamples samples) := by
  intro h
  have hlength : (keptRows sharedSources sharedArgs).length = 200 := by
    simp [keptRows_shared]
  have hok := (assemble_eq_ok_iff sharedSources sharedArgs _).mpr ⟨by omega, rfl⟩
  have hclean := h _ _ _ hok
  rw [partitionsSeparated_iff, buildSamples_keys] at hclean
  change CleanCuts (keptRows sharedSources sharedArgs) at hclean
  have hcut : nTrain 200 + nVal 200 = 170 := by decide
  have hacross := hclean.distinctTest
  rw [hlength, hcut] at hacross
  apply hacross 70 170 (rowKey (sharedMarket false 70)) (rowKey (sharedMarket true 70))
    (by omega) le_rfl
  · rw [keptRows_shared]
    simp
  · rw [keptRows_shared]
    simp
  · exact Or.inl rfl

end TradingEdge.Analysis
