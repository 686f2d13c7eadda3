import TradingEdge.Program.FoldLoops

/-!
# The folds, and the loops that lay them

The `k`-th fold of `build_folds` starts `k` steps behind the start of the range, and there is one
for exactly the `k` whose fold fits (`getElem?_foldsFrom`).  With a positive step the calendar runs
out in front of the loop of `run_walk_forward`, with a negative one behind it.  With a step of zero
the loop tests the same split again and again.
-/

set_option autoImplicit false

namespace TradingEdge.Analysis

open TradingEdge.Library TradingEdge.Program

/-! ## The folds -/

/-- The `k`-th fold: where it starts, and whether it fits. -/
theorem getElem?_foldsFrom (tTo isDays oosDays stepDays : ℤ)
    (hpos : 0 < isDays ∧ 0 < oosDays ∧ 0 < stepDays) (anchor : ℤ) (idx k : ℕ) :
    (foldsFrom tTo isDays oosDays stepDays hpos anchor idx)[k]? =
      if (foldAt isDays oosDays (anchor + k * timedeltaDays stepDays) (idx + k)).oosTo ≤ tTo then
        some (foldAt isDays oosDays (anchor + k * timedeltaDays stepDays) (idx + k))
      else none := by
  induction anchor, idx using foldsFrom.induct tTo isDays oosDays stepDays hpos generalizing k with
  | case1 anchor idx hover =>
    have hlater : tTo < (foldAt isDays oosDays (anchor + k * timedeltaDays stepDays)
        (idx + k)).oosTo := by
      have hstep : 0 ≤ (k : ℤ) * timedeltaDays stepDays := by
        apply mul_nonneg (Int.natCast_nonneg k)
        simp only [timedeltaDays]
        omega
      simp only [foldAt] at hover ⊢
      omega
    rw [foldsFrom, if_pos hover, if_neg hlater.not_ge, List.getElem?_nil]
  | case2 anchor idx hfits ih =>
    rw [foldsFrom, if_neg hfits]
    cases k with
    | zero =>
      rw [List.getElem?_cons_zero, Nat.cast_zero, zero_mul, add_zero, Nat.add_zero,
        if_pos (not_lt.mp hfits)]
    | succ k =>
      have hanchor : anchor + timedeltaDays stepDays + k * timedeltaDays stepDays =
          anchor + (k + 1 : ℕ) * timedeltaDays stepDays := by
        push_cast
        ring
      rw [List.getElem?_cons_succ, ih, hanchor, Nat.add_right_comm idx 1 k, Nat.add_assoc idx k 1]

/-- Where no date leaves the calendar, the folds are those of the unbounded dates. -/
theorem raising_foldsFrom {tTo : Datetime} {isDays oosDays stepDays : ℤ}
    (hpos : 0 < isDays ∧ 0 < oosDays ∧ 0 < stepDays) {anchor : Datetime} {idx : ℕ}
    {folds : List FoldWindow}
    (h : Raising.foldsFrom tTo isDays oosDays stepDays hpos.2.2 anchor idx = .ok folds) :
    folds = foldsFrom tTo.val isDays oosDays stepDays hpos anchor.val idx := by
  have hoosTo : ∀ {anchor isTo oosTo : Datetime} (idx : ℕ), addDays anchor isDays = some isTo →
      addDays isTo oosDays = some oosTo →
      (foldAt isDays oosDays anchor.val idx).oosTo = oosTo.val := by
    intro anchor isTo oosTo idx his hoos
    rw [foldAt, addDays_eq_some hoos, addDays_eq_some his]
  induction anchor, idx using Raising.foldsFrom.induct tTo isDays oosDays stepDays hpos.2.2
    generalizing folds with
  | case1 anchor idx his => simp [Raising.foldsFrom, his] at h
  | case2 anchor idx isTo his hoos => simp [Raising.foldsFrom, his, hoos] at h
  | case3 anchor idx isTo his oosTo hoos hover =>
    rw [Raising.foldsFrom] at h
    simp only [his, hoos, hover, if_true, Except.ok.injEq] at h
    rw [foldsFrom, if_pos (hoosTo idx his hoos ▸ hover), h]
  | case4 anchor idx isTo his oosTo hoos hfits hnext =>
    rw [Raising.foldsFrom] at h
    simp only [his, hoos, hfits, if_false] at h
    split at h
    · cases h
    · next next hnext' => simp [hnext] at hnext'
  | case5 anchor idx isTo his oosTo hoos hfits next hnext e hrest ih =>
    rw [Raising.foldsFrom] at h
    simp only [his, hoos, hfits, if_false] at h
    split at h
    · cases h
    · next next' hnext' =>
      obtain rfl := Option.some.inj (hnext.symm.trans hnext')
      simp only [hrest] at h
      cases h
  | case6 anchor idx isTo his oosTo hoos hfits next hnext rest hrest ih =>
    rw [Raising.foldsFrom] at h
    simp only [his, hoos, hfits, if_false] at h
    split at h
    · cases h
    · next next' hnext' =>
      obtain rfl := Option.some.inj (hnext.symm.trans hnext')
      simp only [hrest, Except.ok.injEq] at h
      have hhead : foldAt isDays oosDays anchor.val idx =
          ⟨idx, anchor.val, isTo.val, isTo.val, oosTo.val⟩ := by
        rw [foldAt, addDays_eq_some hoos, addDays_eq_some his]
      rw [foldsFrom, if_neg (hoosTo idx his hoos ▸ hfits), ← h, ih hrest, hhead,
        addDays_eq_some hnext]

/-- A list of folds tiles a range: the folds lie in it, each in two parts that meet, one step
apart, and no fold that fits is missing. -/
structure FoldsTile (tFrom tTo isDays oosDays stepDays : ℤ) (folds : List FoldWindow) : Prop where
  inside : ∀ fold ∈ folds, tFrom ≤ fold.isFrom ∧ fold.oosTo ≤ tTo
  contiguous : ∀ fold ∈ folds, fold.isTo = fold.isFrom + timedeltaDays isDays ∧
    fold.oosFrom = fold.isTo ∧ fold.oosTo = fold.oosFrom + timedeltaDays oosDays
  stepped : ∀ (k : ℕ) (fold next : FoldWindow), folds[k]? = some fold → folds[k + 1]? = some next →
    next.isFrom = fold.isFrom + timedeltaDays stepDays
  complete : ∀ k : ℕ,
    tFrom + k * timedeltaDays stepDays + timedeltaDays isDays + timedeltaDays oosDays ≤ tTo →
    ∃ fold ∈ folds, fold.isFrom = tFrom + k * timedeltaDays stepDays

/-- The loop over the anchors tiles the range. -/
theorem foldsTile_foldsFrom (tFrom tTo isDays oosDays stepDays : ℤ)
    (hpos : 0 < isDays ∧ 0 < oosDays ∧ 0 < stepDays) :
    FoldsTile tFrom tTo isDays oosDays stepDays
      (foldsFrom tTo isDays oosDays stepDays hpos tFrom 0) := by
  have hget := getElem?_foldsFrom tTo isDays oosDays stepDays hpos tFrom 0
  have hof : ∀ (k : ℕ) (fold : FoldWindow),
      (foldsFrom tTo isDays oosDays stepDays hpos tFrom 0)[k]? = some fold →
      fold = foldAt isDays oosDays (tFrom + k * timedeltaDays stepDays) (0 + k) ∧
        fold.oosTo ≤ tTo := by
    intro k fold hk
    rw [hget] at hk
    split at hk
    · next hfits =>
      obtain rfl := Option.some.inj hk
      exact ⟨rfl, hfits⟩
    · cases hk
  have hstep : 0 ≤ timedeltaDays stepDays := by
    simp only [timedeltaDays]
    omega
  refine ⟨?_, ?_, ?_, ?_⟩
  · intro fold hfold
    obtain ⟨k, hk⟩ := List.getElem?_of_mem hfold
    obtain ⟨rfl, hfits⟩ := hof k fold hk
    have hsteps : 0 ≤ (k : ℤ) * timedeltaDays stepDays := mul_nonneg (Int.natCast_nonneg k) hstep
    refine ⟨?_, hfits⟩
    simp only [foldAt]
    omega
  · intro fold hfold
    obtain ⟨k, hk⟩ := List.getElem?_of_mem hfold
    obtain ⟨rfl, -⟩ := hof k fold hk
    exact ⟨rfl, rfl, rfl⟩
  · intro k fold next hk hnext
    obtain ⟨rfl, -⟩ := hof k fold hk
    obtain ⟨rfl, -⟩ := hof (k + 1) next hnext
    simp only [foldAt]
    push_cast
    ring
  · intro k hfits
    have hk := hget k
    rw [if_pos (by simpa only [foldAt] using hfits)] at hk
    exact ⟨_, List.mem_of_getElem? hk, rfl⟩

/-- **Complete folds.**  Whatever `build_folds` admits, it tiles. -/
theorem foldsTile_buildFolds {tFrom tTo : Datetime} {isDays oosDays stepDays : ℤ}
    {folds : List FoldWindow}
    (h : Raising.buildFolds tFrom tTo isDays oosDays stepDays = .ok folds) :
    FoldsTile tFrom.val tTo.val isDays oosDays stepDays folds := by
  unfold Raising.buildFolds at h
  split at h
  · next hpos =>
    split at h
    · cases h
    · rw [raising_foldsFrom hpos h]
      exact foldsTile_foldsFrom tFrom.val tTo.val isDays oosDays stepDays hpos
  · cases h

/-! ## The loop of the engine -/

section Engine

variable {R : Type} (runTest : ℕ → Datetime → Datetime → Option R) {fromDt toDt : Datetime}
  {trainDays testDays stepDays : ℤ}

/-- What a turn does: it raises, or it tests the split at the cursor and moves the cursor on. -/
theorem splitBody_eq_some {s s' : SplitLoop R}
    (h : splitBody runTest toDt trainDays testDays stepDays s = some s') :
    s.raised = false ∧ (s'.raised = true ∨
      (s'.raised = false ∧ s'.fold = s.fold + 1 ∧ addDays s.cursor stepDays = some s'.cursor ∧
        ∀ trainTo testTo, splitWindow trainDays testDays s.cursor = some (trainTo, testTo) →
          runTest s.fold trainTo testTo ≠ none)) := by
  unfold splitBody at h
  split at h
  · cases h
  · next hraised =>
    refine ⟨by simpa using hraised, ?_⟩
    split at h
    · exact .inl (Option.some.inj h ▸ rfl)
    · next trainTo testTo hwindow =>
      split at h
      · cases h
      · split at h
        · exact .inl (Option.some.inj h ▸ rfl)
        · next report hreport =>
          split at h
          · exact .inl (Option.some.inj h ▸ rfl)
          · next cursor hcursor =>
            obtain rfl := Option.some.inj h
            refine .inr ⟨rfl, rfl, hcursor, ?_⟩
            intro trainTo' testTo' hwindow'
            obtain ⟨rfl, rfl⟩ := Prod.mk.inj (Option.some.inj (hwindow.symm.trans hwindow'))
            rw [hreport]
            exact Option.some_ne_none report

/-- A turn that does not raise moves the cursor on by a step. -/
theorem addDays_of_splitBody {s s' : SplitLoop R}
    (h : splitBody runTest toDt trainDays testDays stepDays s = some s')
    (hraised : s'.raised = false) : addDays s.cursor stepDays = some s'.cursor := by
  rcases (splitBody_eq_some runTest h).2 with hraised' | ⟨-, -, hcursor, -⟩
  · rw [hraised] at hraised'
    cases hraised'
  · exact hcursor

/-- The loop ends if something runs out with every split that is tested. -/
theorem runWalkForward_ends_of_measure {I : SplitLoop R → Prop} (left : SplitLoop R → ℕ)
    (hstart : I (SplitLoop.start fromDt))
    (hturn : ∀ s s', I s → splitBody runTest toDt trainDays testDays stepDays s = some s' →
      I s' ∧ (s'.raised = false → left s' < left s)) :
    RunWalkForwardEnds runTest fromDt toDt trainDays testDays stepDays := by
  refine ends_of_measure (I := I) (fun s => if s.raised then 0 else left s + 1) ?_ hstart
  intro s s' hI hbody
  obtain ⟨hkeep, hless⟩ := hturn s s' hI hbody
  refine ⟨hkeep, ?_⟩
  rw [(splitBody_eq_some runTest hbody).1]
  cases hraised : s'.raised with
  | true => simp
  | false => simpa using hless hraised

/-- A step that is not zero leads out of the range or out of the calendar. -/
theorem runWalkForward_ends_of_ne_zero (hstep : stepDays ≠ 0) :
    RunWalkForwardEnds runTest fromDt toDt trainDays testDays stepDays := by
  rcases lt_or_gt_of_ne hstep with hneg | hpos
  · refine runWalkForward_ends_of_measure runTest (I := fun _ => True)
      (fun s => (s.cursor.val - datetimeMin).toNat) trivial ?_
    intro s s' _ hbody
    exact ⟨trivial, fun hraised => toMin_lt hneg (addDays_of_splitBody runTest hbody hraised)⟩
  · refine runWalkForward_ends_of_measure runTest (I := fun _ => True)
      (fun s => (datetimeMax - s.cursor.val).toNat) trivial ?_
    intro s s' _ hbody
    exact ⟨trivial, fun hraised => toMax_lt hpos (addDays_of_splitBody runTest hbody hraised)⟩

/-- With a step of zero every turn is at the start of the range: an exception of one of the tests
ends the loop. -/
theorem runWalkForward_ends_of_raising {trainTo testTo : Datetime} {last : ℕ}
    (hwindow : splitWindow trainDays testDays fromDt = some (trainTo, testTo))
    (hraises : runTest last trainTo testTo = none) :
    RunWalkForwardEnds runTest fromDt toDt trainDays testDays 0 := by
  refine runWalkForward_ends_of_measure runTest
    (I := fun s => s.raised = false → s.cursor = fromDt ∧ s.fold ≤ last)
    (fun s => last - s.fold) (fun _ => ⟨rfl, Nat.zero_le last⟩) ?_
  intro s s' hI hbody
  obtain ⟨hrunning, hraised | ⟨-, hfold, hcursor, htested⟩⟩ := splitBody_eq_some runTest hbody
  · refine ⟨fun hrunning' => ?_, fun hrunning' => ?_⟩
    · rw [hraised] at hrunning'
      cases hrunning'
    · rw [hraised] at hrunning'
      cases hrunning'
  · obtain ⟨hat, hle⟩ := hI hrunning
    rw [addDays_zero] at hcursor
    have hne : s.fold ≠ last := by
      rintro rfl
      exact htested trainTo testTo (hat ▸ hwindow) hraises
    refine ⟨fun _ => ⟨(Option.some.inj hcursor).symm.trans hat, by omega⟩, fun _ => ?_⟩
    omega

/-- A step of zero ends the loop only if the first split does not fit or its test raises. -/
theorem runWalkForward_ends_iff :
    RunWalkForwardEnds runTest fromDt toDt trainDays testDays stepDays ↔
      (stepDays = 0 → ∀ trainTo testTo,
        splitWindow trainDays testDays fromDt = some (trainTo, testTo) →
        testTo.val ≤ toDt.val → ∃ fold, runTest fold trainTo testTo = none) := by
  constructor
  · rintro hends rfl trainTo testTo hwindow hfits
    by_contra hnever
    refine not_ends_of_progress (I := fun s : SplitLoop R => s.raised = false ∧ s.cursor = fromDt)
      ⟨rfl, rfl⟩ ?_ hends
    rintro s ⟨hrunning, hat⟩
    obtain ⟨report, hreport⟩ := Option.ne_none_iff_exists'.mp fun hnone =>
      hnever ⟨s.fold, hnone⟩
    refine ⟨⟨fromDt, s.fold + 1,
      s.splits ++ [⟨s.fold, s.cursor, trainTo, trainTo, testTo, report⟩], false⟩, ?_, rfl, rfl⟩
    simp [splitBody, hrunning, hat, hwindow, hfits.not_gt, hreport, addDays_zero]
  · intro h
    rcases eq_or_ne stepDays 0 with rfl | hstep
    · cases hwindow : splitWindow trainDays testDays fromDt with
      | none =>
        let raised : SplitLoop R := { SplitLoop.start fromDt with raised := true }
        have hbody : splitBody runTest toDt trainDays testDays 0 (SplitLoop.start fromDt) =
            some raised := by
          simp [splitBody, SplitLoop.start, hwindow, raised]
        exact ⟨raised, Ends.of_some hbody (Ends.of_none (by simp [splitBody, raised]))⟩
      | some window =>
        obtain ⟨trainTo, testTo⟩ := window
        rcases lt_or_ge toDt.val testTo.val with hover | hfits
        · refine ⟨SplitLoop.start fromDt, Ends.of_none ?_⟩
          simp [splitBody, SplitLoop.start, hwindow, hover]
        · obtain ⟨last, hraises⟩ := h rfl trainTo testTo hwindow hfits
          exact runWalkForward_ends_of_raising runTest hwindow hraises
    · exact runWalkForward_ends_of_ne_zero runTest hstep

end Engine

/-- **The walk forward.**  `build_folds` tiles every range it admits; that the loop of
`run_walk_forward` ends as well depends on the step: it is not zero, or the first split does not
fit, or its test raises.
SOURCE: research/walk_forward.py:48-87, engine/walk_forward.py:71-109 -/
theorem walk_forward_ends_iff {R : Type} (runTest : ℕ → Datetime → Datetime → Option R)
    (fromDt toDt : Datetime) (trainDays testDays stepDays : ℤ) :
    ((∀ (tFrom tTo : Datetime) (isDays oosDays foldStep : ℤ) (folds : List FoldWindow),
        Raising.buildFolds tFrom tTo isDays oosDays foldStep = .ok folds →
        FoldsTile tFrom.val tTo.val isDays oosDays foldStep folds) ∧
      RunWalkForwardEnds runTest fromDt toDt trainDays testDays stepDays) ↔
      (stepDays = 0 → ∀ trainTo testTo,
        splitWindow trainDays testDays fromDt = some (trainTo, testTo) →
        testTo.val ≤ toDt.val → ∃ fold, runTest fold trainTo testTo = none) := by
  rw [runWalkForward_ends_iff]
  constructor
  · exact And.right
  · exact fun h => ⟨fun _ _ _ _ _ _ hfolds => foldsTile_buildFolds hfolds, h⟩

/-- The first of January 1970. -/
def epochDate : Datetime := ⟨0, by decide⟩

/-- A week later. -/
def weekLater : Datetime := ⟨604800000000, by decide⟩

/-- A day of training, a day of test and no step, on a range of a week. -/
theorem not_runWalkForwardEnds_zero_step :
    ¬((∀ (tFrom tTo : Datetime) (isDays oosDays foldStep : ℤ) (folds : List FoldWindow),
        Raising.buildFolds tFrom tTo isDays oosDays foldStep = .ok folds →
        FoldsTile tFrom.val tTo.val isDays oosDays foldStep folds) ∧
      ∀ (runTest : ℕ → Datetime → Datetime → Option Unit) (fromDt toDt : Datetime)
        (trainDays testDays stepDays : ℤ),
        RunWalkForwardEnds runTest fromDt toDt trainDays testDays stepDays) := by
  rintro ⟨-, hall⟩
  have hends := hall (fun _ _ _ => some ()) epochDate weekLater 1 1 0
  rw [runWalkForward_ends_iff] at hends
  have hwindow : splitWindow 1 1 epochDate =
      some (⟨86400000000, by decide⟩, ⟨172800000000, by decide⟩) := by decide
  obtain ⟨fold, hraises⟩ := hends rfl _ _ hwindow (by decide)
  cases hraises

end TradingEdge.Analysis
