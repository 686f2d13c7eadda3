import TradingEdge.Program.EstimatorStore

/-!
# Estimators across restarts

An instance that boots after a flush has the counters of that flush, whatever it counted since and
whatever the other instances flushed in the meantime: their rows lie under other ids
(`boot_restores_flush`).
-/

set_option autoImplicit false

namespace TradingEdge.Analysis

open TradingEdge.Model TradingEdge.Library TradingEdge.Program

variable {K : Type} [Field K] [LinearOrder K] {ι : Type}

/-- What the table has for a cell of a strategy. -/
def savedCell (t : KStateTable K) (strategyId : String) (cell : String × ℤ) :
    Option (KCounter K) :=
  (t.get? (strategyId, cell)).map (·.counter)

/-- A flush writes the cells of its strategy and leaves those of the others. -/
theorem savedCell_flushToDb (e : KEstimator K) (strategyId other : String) (now : K)
    (t : KStateTable K) (cell : String × ℤ) :
    savedCell (e.flushToDb strategyId now t) other cell =
      if other = strategyId then (e.counters.get? cell).or (savedCell t other cell)
      else savedCell t other cell := by
  have hnodup : ((e.counters.entries.map fun c =>
      ((strategyId, c.1.1, c.1.2), (⟨c.2, c.2.k, now⟩ : KStateRow K))).map Prod.fst).Nodup := by
    rw [List.map_map]
    have hfst : (Prod.fst ∘ fun c : (String × ℤ) × KCounter K =>
        ((strategyId, c.1.1, c.1.2), (⟨c.2, c.2.k, now⟩ : KStateRow K))) =
          (fun key => (strategyId, key.1, key.2)) ∘ Prod.fst := rfl
    rw [hfst, ← List.map_map]
    exact e.counters.nodup_keys.map fun a b hab => (Prod.mk.inj hab).2
  unfold savedCell KEstimator.flushToDb
  by_cases hother : other = strategyId
  · subst hother
    rw [Dict.get?_setAll_of_mem _ hnodup (k := (other, cell))
      (v := (e.counters.get? cell).map fun c => ⟨c, c.k, now⟩), if_pos rfl]
    · cases e.counters.get? cell <;> rfl
    · intro row
      constructor
      · intro hmem
        obtain ⟨c, hc, heq⟩ := List.mem_map.mp hmem
        obtain ⟨hkey, rfl⟩ := Prod.mk.inj heq
        have hcell : c.1 = cell := (Prod.mk.inj hkey).2
        have hget := (e.counters.mem_entries_iff cell c.2).mp (hcell ▸ hc)
        rw [hget]
        rfl
      · intro hrow
        obtain ⟨c, hc, rfl⟩ := Option.map_eq_some_iff.mp hrow
        exact List.mem_map.mpr ⟨(cell, c), (e.counters.mem_entries_iff cell c).mpr hc, rfl⟩
  · rw [Dict.get?_setAll_of_mem _ hnodup (k := (other, cell)) (v := none), if_neg hother]
    · rfl
    · intro row
      refine ⟨fun hmem => ?_, fun hrow => by cases hrow⟩
      obtain ⟨c, -, heq⟩ := List.mem_map.mp hmem
      exact absurd (Prod.mk.inj (Prod.mk.inj heq).1).1.symm hother

omit [Field K] [LinearOrder K] in
/-- A load puts the cells that the table has for the strategy over those of the estimator. -/
theorem get?_loadFromDb (e : KEstimator K) (strategyId : String) (t : KStateTable K)
    (cell : String × ℤ) :
    (e.loadFromDb strategyId t).counters.get? cell =
      (savedCell t strategyId cell).or (e.counters.get? cell) := by
  have hnodup : (((t.entries.filter fun row => row.1.1 = strategyId).map fun row =>
      ((row.1.2.1, row.1.2.2), row.2.counter)).map Prod.fst).Nodup := by
    rw [List.map_map]
    refine List.Nodup.map_on (fun a ha b hb hab => ?_)
      ((List.Nodup.of_map _ t.nodup_keys).filter _)
    have hkey : a.1.2 = b.1.2 := hab
    obtain ⟨ha, hsa⟩ := List.mem_filter.mp ha
    obtain ⟨hb, hsb⟩ := List.mem_filter.mp hb
    refine List.inj_on_of_nodup_map t.nodup_keys ha hb (Prod.ext ?_ hkey)
    exact (of_decide_eq_true hsa).trans (of_decide_eq_true hsb).symm
  refine Dict.get?_setAll_of_mem _ hnodup fun c => ?_
  constructor
  · intro hmem
    obtain ⟨row, hrow, heq⟩ := List.mem_map.mp hmem
    obtain ⟨hrow, hstrategy⟩ := List.mem_filter.mp hrow
    obtain ⟨hkey, rfl⟩ := Prod.mk.inj heq
    have hfull : row.1 = (strategyId, cell) := Prod.ext (of_decide_eq_true hstrategy) hkey
    have hget := (t.mem_entries_iff (strategyId, cell) row.2).mp (hfull ▸ hrow)
    rw [savedCell, hget]
    rfl
  · intro hsaved
    obtain ⟨row, hrow, rfl⟩ := Option.map_eq_some_iff.mp hsaved
    refine List.mem_map.mpr ⟨((strategyId, cell), row), List.mem_filter.mpr ⟨?_, ?_⟩, rfl⟩
    · exact (t.mem_entries_iff _ _).mpr hrow
    · exact decide_eq_true rfl

variable [FloorRing K] [DecidableEq ι]

/-- What an instance counts at when it boots without the table. -/
def warmCell (now : K) (cell : String × ℤ) : Option (KCounter K) :=
  (bootEstimator "" Dict.empty now false).counters.get? cell

/-- Only a flush of its own changes what the table has for an instance. -/
theorem savedCell_step {strategyId : ι → String} (hinj : Function.Injective strategyId)
    (s : EstimatorFleet ι K) (l : ι × EstimatorLabel K) (i : ι)
    (hl : ∀ now, l ≠ (i, .flush now)) (cell : String × ℤ) :
    savedCell ((estimatorFleet strategyId).next s l).table (strategyId i) cell =
      savedCell s.table (strategyId i) cell := by
  obtain ⟨j, l⟩ := l
  cases l with
  | fill bucket deltaCents now => rfl
  | quoted bucket deltaCents periodMinutes now => rfl
  | boot now readable => rfl
  | flush now =>
    have hne : strategyId i ≠ strategyId j := by
      intro heq
      exact hl now (by rw [hinj heq])
    show savedCell ((s.estimators j).flushToDb (strategyId j) now s.table) (strategyId i) cell = _
    rw [savedCell_flushToDb, if_neg hne]

/-- Without a flush of its own the saved cells of an instance stay. -/
theorem savedCell_run {strategyId : ι → String} (hinj : Function.Injective strategyId)
    (s : EstimatorFleet ι K) (ls : List (ι × EstimatorLabel K)) (i : ι)
    (hls : ∀ now, (i, .flush now) ∉ ls) (cell : String × ℤ) :
    savedCell ((estimatorFleet strategyId).final s ls).table (strategyId i) cell =
      savedCell s.table (strategyId i) cell := by
  induction ls using List.reverseRecOn with
  | nil => rfl
  | append_singleton ls l ih =>
    rw [Machine.final_concat, savedCell_step hinj]
    · exact ih fun now hmem => hls now (List.mem_append_left _ hmem)
    · rintro now rfl
      exact hls now (List.mem_append_right _ (List.mem_singleton.mpr rfl))

/-- **A boot goes back to the last flush.** Let an instance flush its estimator in any state, and then
let the instances do what they will, except that this one does not flush again.  If it boots then and
can read the table, each of its cells is that of the flush; where there was none, it is that of an
earlier flush, and else that of a warm start. -/
theorem boot_restores_flush {strategyId : ι → String} (hinj : Function.Injective strategyId)
    (s : EstimatorFleet ι K) (i : ι) (flushAt bootAt : K) (between : List (ι × EstimatorLabel K))
    (hbetween : ∀ now, (i, .flush now) ∉ between) (cell : String × ℤ) :
    (((estimatorFleet strategyId).final s
        ((i, .flush flushAt) :: between ++ [(i, .boot bootAt true)])).estimators i).counters.get?
          cell =
      ((s.estimators i).counters.get? cell).or
        ((savedCell s.table (strategyId i) cell).or (warmCell bootAt cell)) := by
  rw [Machine.final_concat, Machine.final_cons]
  generalize hflushed : (estimatorFleet strategyId).next s (i, .flush flushAt) = flushed
  have htable : savedCell flushed.table (strategyId i) cell =
      ((s.estimators i).counters.get? cell).or (savedCell s.table (strategyId i) cell) := by
    rw [← hflushed]
    show savedCell ((s.estimators i).flushToDb (strategyId i) flushAt s.table) _ _ = _
    rw [savedCell_flushToDb, if_pos rfl]
  have hkept := savedCell_run hinj flushed between i hbetween cell
  generalize (estimatorFleet strategyId).final flushed between = later at hkept
  show (Function.update later.estimators i
    (bootEstimator (strategyId i) later.table bootAt true) i).counters.get? cell = _
  rw [Function.update_self]
  show ((KEstimator.warmStart ⟨Dict.empty⟩ "0.30-0.40" 2 28 60 bootAt).loadFromDb (strategyId i)
    later.table).counters.get? cell = _
  rw [get?_loadFromDb, hkept, htable, Option.or_assoc]
  rfl

/-- Two instances that have booted without a table. -/
def twoInstances : EstimatorFleet Bool ℚ :=
  ⟨fun _ => bootEstimator "" Dict.empty 0 false, Dict.empty⟩

def instanceId (btc : Bool) : String := if btc then "mm_rebate_v1_btc15m" else "mm_rebate_v1_eth15m"

/-- One instance flushes and counts a fill, the other one flushes, and the first boots again. -/
theorem boot_restores_flush_pair :
    (((estimatorFleet instanceId).final twoInstances
        ((true, .flush 60) :: [(true, .fill "0.30-0.40" 2 70), (false, .flush 80)] ++
          [(true, .boot 90 true)])).estimators true).counters.get? ("0.30-0.40", 2) =
      (twoInstances.estimators true).counters.get? ("0.30-0.40", 2) := by
  have hinj : Function.Injective instanceId := by decide
  refine (boot_restores_flush hinj twoInstances true 60 90
    [(true, .fill "0.30-0.40" 2 70), (false, .flush 80)] ?_ ("0.30-0.40", 2)).trans ?_
  · intro now
    simp
  · rfl

end TradingEdge.Analysis
