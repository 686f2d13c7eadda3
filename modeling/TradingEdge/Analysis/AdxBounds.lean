import Mathlib.Algebra.BigOperators.Ring.List
import Mathlib.Tactic.FieldSimp
import TradingEdge.Library.Scans
import TradingEdge.Program.FeatureErrors

/-!
# The bounds and the symmetries of the average directional index

A bar moves no further up or down than its true range when every close lies between its low and
its high, and at most one of the two directions moves (`withinRange_movement`).  Wilder's smoothing
keeps this, so that the two directional indices add up to at most 100 and their contrast, with all
its means, lies between 0 and 100.  The smoothing is linear: a common factor of the prices cancels
in the quotients, and a mirror image of the prices only swaps the two directions.
-/

set_option autoImplicit false

namespace TradingEdge.Analysis

open TradingEdge.Library TradingEdge.Model TradingEdge.Program

/-! ## The smoothing -/

section Smoothing

variable {K : Type} [Field K]

/-- One step of `_wilder`. -/
def wilderStep (n : ℕ) (out v : K) : K := out - out / n + v

/-- The smoothed series is a scan over what follows the first sum. -/
theorem wilder_eq (n : ℕ) (xs : List K) :
    wilder n xs =
      if xs.length < n then [] else (xs.drop n).scanl (wilderStep n) (xs.take n).sum := by
  rw [← leftSum_eq_sum]
  rfl

/-- The smoothing is homogeneous. -/
theorem wilder_map_mul (factor : K) (n : ℕ) (xs : List K) :
    wilder n (xs.map fun x => factor * x) = (wilder n xs).map fun x => factor * x := by
  rw [wilder_eq, wilder_eq, List.length_map]
  split
  · rfl
  · have hstep (out v : K) :
        factor * wilderStep n out v = wilderStep n (factor * out) (factor * v) := by
      unfold wilderStep
      ring
    have hscan (out : K) (l : List K) : (l.scanl (wilderStep n) out).map (fun x => factor * x) =
        (l.map fun x => factor * x).scanl (wilderStep n) (factor * out) := map_scanl hstep l out
    rw [hscan, List.map_drop, ← List.map_take, List.sum_map_mul_left, List.map_id']

/-- One sum for each entry from the `n`th on. -/
theorem length_wilder (n : ℕ) (xs : List K) :
    (wilder n xs).length = if xs.length < n then 0 else xs.length - n + 1 := by
  rw [wilder_eq]
  split
  · rfl
  · rw [List.length_scanl, List.length_drop]

/-- Sequences of one length are smoothed to sequences of one length. -/
theorem length_wilder_map {α : Type} (n : ℕ) (moves : List α) (f g : α → K) :
    (wilder n (moves.map f)).length = (wilder n (moves.map g)).length := by
  rw [length_wilder, length_wilder, List.length_map, List.length_map]

/-- The three smoothings are one smoothing of the movements. -/
theorem smoothed_eq (n : ℕ) (moves : List (K × K × K)) :
    smoothed n moves =
      if moves.length < n then []
      else (moves.drop n).scanl
        (fun s m => (wilderStep n s.1 m.1, wilderStep n s.2.1 m.2.1, wilderStep n s.2.2 m.2.2))
        (((moves.take n).map fun m => m.1).sum, ((moves.take n).map fun m => m.2.1).sum,
          ((moves.take n).map fun m => m.2.2).sum) := by
  unfold smoothed
  simp only [wilder_eq, List.length_map]
  split
  · rfl
  · simp only [← List.map_drop, ← List.map_take, List.scanl_map, zip_scanl]

end Smoothing

variable {K : Type} [Field K] [LinearOrder K] [IsStrictOrderedRing K]

/-! ## Movements within the true range -/

/-- Nothing moves backwards, and both directions together move no further than the true range. -/
structure WithinRange (s : K × K × K) : Prop where
  plus_nonneg : 0 ≤ s.1
  minus_nonneg : 0 ≤ s.2.1
  sum_le : s.1 + s.2.1 ≤ s.2.2

omit [IsStrictOrderedRing K] in
/-- A bar that does not move is within its range. -/
theorem WithinRange.zero : WithinRange ((0, 0, 0) : K × K × K) := ⟨le_rfl, le_rfl, by simp⟩

/-- Sums of movements are within the sum of the ranges. -/
theorem WithinRange.add {s t : K × K × K} (hs : WithinRange s) (ht : WithinRange t) :
    WithinRange (s.1 + t.1, s.2.1 + t.2.1, s.2.2 + t.2.2) where
  plus_nonneg := add_nonneg hs.plus_nonneg ht.plus_nonneg
  minus_nonneg := add_nonneg hs.minus_nonneg ht.minus_nonneg
  sum_le := by linarith [hs.sum_le, ht.sum_le]

/-- So are multiples. -/
theorem WithinRange.mul {s : K × K × K} (hs : WithinRange s) {factor : K} (hfactor : 0 ≤ factor) :
    WithinRange (factor * s.1, factor * s.2.1, factor * s.2.2) where
  plus_nonneg := mul_nonneg hfactor hs.plus_nonneg
  minus_nonneg := mul_nonneg hfactor hs.minus_nonneg
  sum_le := by
    rw [← mul_add]
    exact mul_le_mul_of_nonneg_left hs.sum_le hfactor

/-- The sums over a list of movements are within the sum of their ranges. -/
theorem WithinRange.sum {moves : List (K × K × K)} (h : ∀ m ∈ moves, WithinRange m) :
    WithinRange ((moves.map fun m => m.1).sum, (moves.map fun m => m.2.1).sum,
      (moves.map fun m => m.2.2).sum) := by
  induction moves with
  | nil => exact WithinRange.zero
  | cons m moves ih =>
    simp only [List.map_cons, List.sum_cons]
    exact (h m List.mem_cons_self).add (ih fun m' hm' => h m' (List.mem_cons_of_mem m hm'))

/-- A bar is ordered: its close lies between its low and its high. -/
def OrderedBar (bar : K × K × K) : Prop := bar.2.1 ≤ bar.2.2 ∧ bar.2.2 ≤ bar.1

omit [IsStrictOrderedRing K] in
/-- The movements of a bar, with the absolute values of the field. -/
theorem movement_eq (previous bar : K × K × K) :
    movement previous bar =
      (if previous.2.1 - bar.2.1 < bar.1 - previous.1 ∧ 0 < bar.1 - previous.1 then
          bar.1 - previous.1 else 0,
        if bar.1 - previous.1 < previous.2.1 - bar.2.1 ∧ 0 < previous.2.1 - bar.2.1 then
          previous.2.1 - bar.2.1 else 0,
        max (max (bar.1 - bar.2.1) |bar.1 - previous.2.2|) |bar.2.1 - previous.2.2|) := rfl

/-- The true range covers the movement: up to a high from a close that was not above the last
high, or down to a low from a close that was not below the last low. -/
theorem withinRange_movement {previous bar : K × K × K} (hprevious : OrderedBar previous)
    (hbar : OrderedBar bar) : WithinRange (movement previous bar) := by
  obtain ⟨hlow, hhigh⟩ := hprevious
  have hrange : 0 ≤ (movement previous bar).2.2 :=
    le_max_of_le_left (le_max_of_le_left (sub_nonneg.mpr (hbar.1.trans hbar.2)))
  have hup : bar.1 - previous.1 ≤ (movement previous bar).2.2 :=
    calc bar.1 - previous.1 ≤ bar.1 - previous.2.2 := sub_le_sub_left hhigh bar.1
      _ ≤ |bar.1 - previous.2.2| := le_abs_self _
      _ ≤ (movement previous bar).2.2 := le_max_of_le_left (le_max_right _ _)
  have hdn : previous.2.1 - bar.2.1 ≤ (movement previous bar).2.2 :=
    calc previous.2.1 - bar.2.1 ≤ previous.2.2 - bar.2.1 := sub_le_sub_right hlow bar.2.1
      _ ≤ |bar.2.1 - previous.2.2| := (le_abs_self _).trans_eq (abs_sub_comm _ _)
      _ ≤ (movement previous bar).2.2 := le_max_right _ _
  rw [movement_eq] at hrange hup hdn ⊢
  simp only at hrange hup hdn ⊢
  constructor
  · dsimp only
    split
    · next hplus => exact hplus.2.le
    · exact le_rfl
  · dsimp only
    split
    · next hminus => exact hminus.2.le
    · exact le_rfl
  · dsimp only
    split
    · next hplus =>
      rw [if_neg fun hminus => lt_asymm hplus.1 hminus.1, add_zero]
      exact hup
    · split
      · rw [zero_add]
        exact hdn
      · rw [add_zero]
        exact hrange

/-- One step of the smoothing keeps the sums within their range. -/
theorem withinRange_wilderStep {n : ℕ} (hn : n ≠ 0) {s m : K × K × K} (hs : WithinRange s)
    (hm : WithinRange m) :
    WithinRange (wilderStep n s.1 m.1, wilderStep n s.2.1 m.2.1, wilderStep n s.2.2 m.2.2) := by
  have hone : (1 : K) / n ≤ 1 := by
    rw [div_le_one (Nat.cast_pos.mpr (Nat.pos_of_ne_zero hn))]
    exact Nat.one_le_cast.mpr (Nat.pos_of_ne_zero hn)
  have hkeep (x v : K) : wilderStep n x v = (1 - 1 / n) * x + v := by
    unfold wilderStep
    ring
  rw [hkeep, hkeep, hkeep]
  exact (hs.mul (sub_nonneg.mpr hone)).add hm

/-- The smoothing keeps the movements within the true range. -/
theorem withinRange_smoothed {n : ℕ} (hn : n ≠ 0) {moves : List (K × K × K)}
    (h : ∀ m ∈ moves, WithinRange m) : ∀ s ∈ smoothed n moves, WithinRange s := by
  rw [smoothed_eq]
  split
  · simp
  · apply forall_mem_scanl
    · exact WithinRange.sum fun m hm => h m (List.mem_of_mem_take hm)
    · exact fun s hs m hm => withinRange_wilderStep hn hs (h m (List.mem_of_mem_drop hm))

omit [Field K] [IsStrictOrderedRing K] in
/-- The bars of three series with the closes between the lows and the highs are ordered. -/
theorem orderedBar_of_forall₂ {highs lows closes : List K}
    (hlow : List.Forall₂ (· ≤ ·) lows closes) (hhigh : List.Forall₂ (· ≤ ·) closes highs) :
    ∀ bar ∈ highs.zip (lows.zip closes), OrderedBar bar := by
  induction hlow generalizing highs with
  | nil =>
    intro bar hbar
    simp at hbar
  | cons hle _ ih =>
    cases hhigh with
    | cons hle' htail =>
      rw [List.zip_cons_cons, List.zip_cons_cons]
      exact List.forall_mem_cons.mpr ⟨⟨hle, hle'⟩, ih htail⟩

omit [IsStrictOrderedRing K] in
/-- What holds of the movement between any two bars holds of every movement. -/
theorem forall_mem_movements {P : K × K × K → Prop} {highs lows closes : List K}
    (h : ∀ previous ∈ highs.zip (lows.zip closes), ∀ bar ∈ highs.zip (lows.zip closes),
      P (movement previous bar)) : ∀ m ∈ movements highs lows closes, P m := by
  intro m hm
  rw [movements, ← List.map_uncurry_zip_eq_zipWith] at hm
  obtain ⟨⟨previous, bar⟩, hpair, rfl⟩ := List.mem_map.mp hm
  obtain ⟨hprevious, hbar⟩ := List.of_mem_zip hpair
  exact h previous hprevious bar (List.mem_of_mem_tail hbar)

/-! ## The directional indices -/

/-- The directional indices of smoothed movements within the true range.
SOURCE: engine/features/macro.py:73-75 -/
theorem WithinRange.directional_le {s : K × K × K} (h : WithinRange s) (htrs : 0 < s.2.2) :
    0 ≤ 100 * s.1 / s.2.2 ∧ 0 ≤ 100 * s.2.1 / s.2.2 ∧
      100 * s.1 / s.2.2 + 100 * s.2.1 / s.2.2 ≤ 100 := by
  refine ⟨div_nonneg (by linarith [h.plus_nonneg]) htrs.le,
    div_nonneg (by linarith [h.minus_nonneg]) htrs.le, ?_⟩
  rw [← add_div, ← mul_add, div_le_iff₀ htrs]
  linarith [h.sum_le]

omit [IsStrictOrderedRing K] in
/-- The directional index, with the comparisons and the absolute value of the field. -/
theorem directionalIndex_eq (plus minus trs : K) :
    directionalIndex plus minus trs =
      if trs ≤ 0 then none
      else if 100 * plus / trs + 100 * minus / trs = 0 then none
      else some (100 * |100 * plus / trs - 100 * minus / trs| /
        (100 * plus / trs + 100 * minus / trs)) := by
  unfold directionalIndex
  simp only [beq_iff_eq, magnitude_eq_abs]

/-- The contrast of two nonnegative indices is between 0 and 100. -/
theorem WithinRange.directionalIndex_mem {s : K × K × K} (h : WithinRange s) {dx : K}
    (hdx : directionalIndex s.1 s.2.1 s.2.2 = some dx) : 0 ≤ dx ∧ dx ≤ 100 := by
  rw [directionalIndex_eq] at hdx
  split at hdx
  · exact absurd hdx (by simp)
  · next htrs =>
    obtain ⟨hplus, hminus, -⟩ := h.directional_le (not_le.mp htrs)
    split at hdx
    · exact absurd hdx (by simp)
    · next hdenom =>
      have hpos : 0 < 100 * s.1 / s.2.2 + 100 * s.2.1 / s.2.2 :=
        lt_of_le_of_ne (add_nonneg hplus hminus) (Ne.symm hdenom)
      have hcontrast : |100 * s.1 / s.2.2 - 100 * s.2.1 / s.2.2| ≤
          100 * s.1 / s.2.2 + 100 * s.2.1 / s.2.2 := by
        rw [abs_le]
        constructor <;> linarith
      obtain rfl := Option.some.inj hdx
      refine ⟨div_nonneg (mul_nonneg (by norm_num) (abs_nonneg _)) hpos.le, ?_⟩
      rw [div_le_iff₀ hpos]
      exact mul_le_mul_of_nonneg_left hcontrast (by norm_num)

/-- What `adx_14` makes of the smoothed sequences.
SOURCE: engine/features/macro.py:69-85 -/
def averageIndex (n : ℕ) (rows : List (K × K × K)) : K :=
  let dxs := rows.filterMap fun s => directionalIndex s.1 s.2.1 s.2.2
  if dxs.length < n then 0
  else (dxs.drop n).foldl (fun adx v => (adx * ((n : K) - 1) + v) / n) ((dxs.take n).sum / n)

omit [IsStrictOrderedRing K] in
/-- The index, as a mean over the smoothed movements. -/
theorem adx14_eq (highs lows closes : List K) :
    adx14 highs lows closes =
      if closes.length < 28 ∨ highs.length ≠ closes.length ∨ lows.length ≠ closes.length then 0
      else averageIndex 14 (smoothed 14 (movements highs lows closes)) := by
  unfold averageIndex
  simp only [← leftSum_eq_sum]
  rfl

/-- The mean of the directional indices lies between 0 and 100. -/
theorem averageIndex_mem {n : ℕ} (hn : n ≠ 0) {rows : List (K × K × K)}
    (h : ∀ s ∈ rows, WithinRange s) : 0 ≤ averageIndex n rows ∧ averageIndex n rows ≤ 100 := by
  unfold averageIndex
  simp only
  split
  · constructor <;> norm_num
  · next hlength =>
    set dxs := rows.filterMap fun s => directionalIndex s.1 s.2.1 s.2.2 with hdxs
    have hall : ∀ dx ∈ dxs, 0 ≤ dx ∧ dx ≤ 100 := by
      intro dx hmem
      obtain ⟨s, hs, hdx⟩ := List.mem_filterMap.mp hmem
      exact (h s hs).directionalIndex_mem hdx
    have htake : (dxs.take n).length = n := by
      rw [List.length_take]
      omega
    have hseed : 0 ≤ (dxs.take n).sum / n ∧ (dxs.take n).sum / n ≤ 100 := by
      have hmean := mean_mem (l := dxs.take n) (List.ne_nil_of_length_pos (by omega))
        fun x hx => hall x (List.mem_of_mem_take hx)
      rwa [htake] at hmean
    have hone : (1 : K) ≤ n := Nat.one_le_cast.mpr (Nat.pos_of_ne_zero hn)
    exact List.foldlRecOn (motive := fun adx : K => 0 ≤ adx ∧ adx ≤ 100) _ _ hseed
      fun adx hadx v hv => runningMean_mem hone hadx (hall v (List.mem_of_mem_drop hv))

/-! ## Without errors -/

/-- `_wilder` divides by the number of bars only. -/
theorem raising_wilder {n : ℕ} (hn : n ≠ 0) (xs : List K) :
    Raising.wilder n xs = .ok (wilder n xs) := by
  unfold Raising.wilder
  rw [wilder_eq, leftSum_eq_sum]
  split
  · rfl
  · have hn' : (n : K) ≠ 0 := Nat.cast_ne_zero.mpr hn
    simp only [divide_of_ne_zero _ hn']
    exact List.scanlM_pure

omit [IsStrictOrderedRing K] in
/-- The directional indices are divided by the true range and by their sum, each behind a guard. -/
theorem raising_directionalIndex (plus minus trs : K) :
    Raising.directionalIndex plus minus trs = .ok (directionalIndex plus minus trs) := by
  rw [directionalIndex_eq]
  unfold Raising.directionalIndex
  split
  · rfl
  · next htrs =>
    have htrs' : trs ≠ 0 := (not_le.mp htrs).ne'
    simp only [divide_of_ne_zero _ htrs', bind, Except.bind, pure, Except.pure, beq_iff_eq]
    split
    · rfl
    · next hdenom => rw [divide_of_ne_zero _ hdenom, magnitude_eq_abs]

omit [IsStrictOrderedRing K] in
/-- The loop over the smoothed sequences raises nothing. -/
theorem mapM_raising_directionalIndex (rows : List (K × K × K)) :
    (rows.mapM fun s => Raising.directionalIndex s.1 s.2.1 s.2.2) =
      .ok (rows.map fun s => directionalIndex s.1 s.2.1 s.2.2) := by
  simp only [raising_directionalIndex]
  exact List.mapM_pure

/-- The three sequences that are zipped have one length, whatever the number of bars. -/
theorem raising_adx14 (highs lows closes : List K) :
    Raising.adx14 highs lows closes = .ok (adx14 highs lows closes) := by
  unfold Raising.adx14
  rw [adx14_eq]
  simp only
  split
  · rfl
  · have hfourteen : ((14 : ℕ) : K) ≠ 0 := by norm_num
    have hzip (xs ys zs : List K) (hy : ys.length = xs.length) (hz : zs.length = xs.length) :
        zipStrict xs ys zs = .ok (xs.zip (ys.zip zs)) := if_pos ⟨hy, hz⟩
    simp only [raising_wilder (n := 14) (by norm_num), bind, Except.bind, pure, Except.pure]
    rw [hzip _ _ _ (length_wilder_map ..) (length_wilder_map ..)]
    split
    · next hnil =>
      have hrows : smoothed 14 (movements highs lows closes) = [] := by
        rw [smoothed, List.isEmpty_iff.mp hnil, List.zip_nil_right, List.zip_nil_right]
      rw [hrows]
      rfl
    · have hfound (xs : List (Option K)) : xs.reduceOption = xs.filterMap id := rfl
      simp only [mapM_raising_directionalIndex, divide_of_ne_zero _ hfourteen, hfound,
        List.filterMap_map, leftSum_eq_sum]
      unfold averageIndex smoothed
      simp only [Function.comp_def, id]
      split
      · rfl
      · exact List.foldlM_pure

/-! ## A common factor, and a mirror image -/

/-- Prices that are multiplied by a factor. -/
def scaled (factor : K) (s : K × K × K) : K × K × K :=
  (factor * s.1, factor * s.2.1, factor * s.2.2)

/-- The two directions swapped. -/
def swapped (s : K × K × K) : K × K × K := (s.2.1, s.1, s.2.2)

/-- A bar, as high, low and close, mirrored at half of `m`. -/
def mirrored (m : K) (bar : K × K × K) : K × K × K := (m - bar.2.1, m - bar.1, m - bar.2.2)

/-- A common factor scales the movement. -/
theorem movement_scaled {factor : K} (hfactor : 0 < factor) (previous bar : K × K × K) :
    movement (scaled factor previous) (scaled factor bar) =
      scaled factor (movement previous bar) := by
  have hpos (x : K) : 0 < factor * x ↔ 0 < x := mul_pos_iff_of_pos_left hfactor
  have hlt (x y : K) : factor * x < factor * y ↔ x < y := mul_lt_mul_iff_right₀ hfactor
  have habs (x : K) : |factor * x| = factor * |x| := by rw [abs_mul, abs_of_pos hfactor]
  have hmax (x y : K) : max (factor * x) (factor * y) = factor * max x y :=
    (mul_max_of_nonneg x y hfactor.le).symm
  rw [movement_eq, movement_eq]
  unfold scaled
  simp only [← mul_sub, hpos, hlt, habs, hmax, mul_ite, mul_zero]

omit [IsStrictOrderedRing K] in
/-- A mirror image of the prices swaps the two directions. -/
theorem movement_mirrored (m : K) (previous bar : K × K × K) :
    movement (mirrored m previous) (mirrored m bar) = swapped (movement previous bar) := by
  have hdiff (x y : K) : m - x - (m - y) = y - x := by ring
  rw [movement_eq, movement_eq]
  unfold mirrored swapped
  simp only [hdiff, Prod.mk.injEq, true_and]
  rw [max_assoc, max_assoc, max_comm |_| |_|, abs_sub_comm previous.2.2 bar.2.1,
    abs_sub_comm previous.2.2 bar.1]

omit [LinearOrder K] [IsStrictOrderedRing K] in
/-- Smoothing commutes with a factor. -/
theorem smoothed_map_scaled (factor : K) (n : ℕ) (moves : List (K × K × K)) :
    smoothed n (moves.map (scaled factor)) = (smoothed n moves).map (scaled factor) := by
  have hparts (xs ys zs : List K) :
      ((xs.map fun x => factor * x).zip
        ((ys.map fun x => factor * x).zip (zs.map fun x => factor * x))) =
      (xs.zip (ys.zip zs)).map (scaled factor) := by
    rw [List.zip_map, List.zip_map]
    rfl
  have hmap (part : K × K × K → K) (h : ∀ s, part (scaled factor s) = factor * part s) :
      wilder n ((moves.map (scaled factor)).map part) =
        (wilder n (moves.map part)).map fun x => factor * x := by
    rw [← wilder_map_mul, List.map_map, List.map_map]
    exact congrArg (wilder n) (List.map_congr_left fun s _ => h s)
  unfold smoothed
  rw [hmap _ fun _ => rfl, hmap _ fun _ => rfl, hmap _ fun _ => rfl, hparts]

omit [LinearOrder K] [IsStrictOrderedRing K] in
/-- Smoothing commutes with swapping the directions. -/
theorem smoothed_map_swapped (n : ℕ) (moves : List (K × K × K)) :
    smoothed n (moves.map swapped) = (smoothed n moves).map swapped := by
  have hparts (xs ys zs : List K) : ys.zip (xs.zip zs) = (xs.zip (ys.zip zs)).map swapped := by
    induction xs generalizing ys zs with
    | nil => simp
    | cons x xs ih =>
      cases ys with
      | nil => rfl
      | cons y ys =>
        cases zs with
        | nil => rfl
        | cons z zs =>
          simp only [List.zip_cons_cons, List.map_cons, ih]
          rfl
  unfold smoothed
  simp only [List.map_map, Function.comp_def, swapped]
  exact hparts ..

omit [IsStrictOrderedRing K] in
/-- What maps the bars and their movements alike, maps the movements. -/
theorem zipWith_movement_map {f e : K × K × K → K × K × K}
    (h : ∀ previous bar, movement (f previous) (f bar) = e (movement previous bar))
    (bars : List (K × K × K)) :
    (bars.map f).zipWith movement (bars.map f).tail =
      (bars.zipWith movement bars.tail).map e := by
  rw [← List.map_tail, List.zipWith_map, List.map_zipWith]
  simp only [h]

omit [IsStrictOrderedRing K] in
/-- Rows of the same contrasts have the same average. -/
theorem averageIndex_map {e : K × K × K → K × K × K}
    (h : ∀ s, directionalIndex (e s).1 (e s).2.1 (e s).2.2 = directionalIndex s.1 s.2.1 s.2.2)
    (n : ℕ) (rows : List (K × K × K)) : averageIndex n (rows.map e) = averageIndex n rows := by
  unfold averageIndex
  simp only [List.filterMap_map, Function.comp_def, h]

/-- The directional index does not depend on a common factor. -/
theorem directionalIndex_scaled {factor : K} (hfactor : 0 < factor) (s : K × K × K) :
    directionalIndex (scaled factor s).1 (scaled factor s).2.1 (scaled factor s).2.2 =
      directionalIndex s.1 s.2.1 s.2.2 := by
  have hratio (x : K) : 100 * (factor * x) / (factor * s.2.2) = 100 * x / s.2.2 := by
    rw [mul_left_comm, mul_div_mul_left _ _ hfactor.ne']
  have hsign : factor * s.2.2 ≤ 0 ↔ s.2.2 ≤ 0 := by
    rw [← not_lt, ← not_lt, mul_pos_iff_of_pos_left hfactor]
  rw [directionalIndex_eq, directionalIndex_eq]
  unfold scaled
  simp only [hratio, hsign]

omit [IsStrictOrderedRing K] in
/-- The directional index does not depend on which direction is which. -/
theorem directionalIndex_swapped (s : K × K × K) :
    directionalIndex (swapped s).1 (swapped s).2.1 (swapped s).2.2 =
      directionalIndex s.1 s.2.1 s.2.2 := by
  rw [directionalIndex_eq, directionalIndex_eq]
  unfold swapped
  simp only [add_comm (100 * s.2.1 / s.2.2), abs_sub_comm (100 * s.2.1 / s.2.2)]

/-- A common factor cancels. -/
theorem adx14_scaled {factor : K} (hfactor : 0 < factor) (highs lows closes : List K) :
    adx14 (highs.map fun p => factor * p) (lows.map fun p => factor * p)
      (closes.map fun p => factor * p) = adx14 highs lows closes := by
  have hbars : (highs.map fun p => factor * p).zip
      ((lows.map fun p => factor * p).zip (closes.map fun p => factor * p)) =
      (highs.zip (lows.zip closes)).map (scaled factor) := by
    rw [List.zip_map, List.zip_map]
    rfl
  simp only [adx14_eq, List.length_map, movements, hbars,
    zipWith_movement_map (movement_scaled hfactor), smoothed_map_scaled,
    averageIndex_map (directionalIndex_scaled hfactor)]

omit [IsStrictOrderedRing K] in
/-- A mirror image swaps the two directions, whose contrast is the same. -/
theorem adx14_mirrored (m : K) {highs lows closes : List K}
    (hhighs : highs.length = closes.length) (hlows : lows.length = closes.length) :
    adx14 (lows.map fun p => m - p) (highs.map fun p => m - p) (closes.map fun p => m - p) =
      adx14 highs lows closes := by
  have hbars : (lows.map fun p => m - p).zip
      ((highs.map fun p => m - p).zip (closes.map fun p => m - p)) =
      (highs.zip (lows.zip closes)).map (mirrored m) := by
    clear hhighs hlows
    induction highs generalizing lows closes with
    | nil => simp
    | cons h highs ih =>
      cases lows with
      | nil => rfl
      | cons l lows =>
        cases closes with
        | nil => rfl
        | cons c closes =>
          simp only [List.map_cons, List.zip_cons_cons, ih]
          rfl
  simp only [adx14_eq, List.length_map, movements, hbars, hhighs, hlows,
    zipWith_movement_map (movement_mirrored m), smoothed_map_swapped,
    averageIndex_map directionalIndex_swapped]

/-- **The average directional index**, in exact arithmetic.  On any series of equal length with every
close between its low and its high, nothing is divided by zero and no strict zip fails, the
directional indices add up to at most 100 at each step, the result lies between 0 and 100, and
neither a common positive factor nor a mirror image of the prices changes it. -/
theorem adx14_bounded_and_symmetric (highs lows closes : List K)
    (hlow : List.Forall₂ (· ≤ ·) lows closes) (hhigh : List.Forall₂ (· ≤ ·) closes highs) :
    Raising.adx14 highs lows closes = .ok (adx14 highs lows closes) ∧
    (∀ s ∈ smoothed 14 (movements highs lows closes), 0 < s.2.2 →
      100 * s.1 / s.2.2 + 100 * s.2.1 / s.2.2 ≤ 100) ∧
    (0 ≤ adx14 highs lows closes ∧ adx14 highs lows closes ≤ 100) ∧
    (∀ factor, 0 < factor →
      adx14 (highs.map fun p => factor * p) (lows.map fun p => factor * p)
        (closes.map fun p => factor * p) = adx14 highs lows closes) ∧
    ∀ m, adx14 (lows.map fun p => m - p) (highs.map fun p => m - p) (closes.map fun p => m - p) =
      adx14 highs lows closes := by
  have hbars := orderedBar_of_forall₂ hlow hhigh
  have hmoves : ∀ s ∈ movements highs lows closes, WithinRange s :=
    forall_mem_movements fun previous hprevious bar hbar =>
      withinRange_movement (hbars previous hprevious) (hbars bar hbar)
  have hrows := withinRange_smoothed (n := 14) (by norm_num) hmoves
  refine ⟨raising_adx14 highs lows closes, fun s hs htrs => ((hrows s hs).directional_le htrs).2.2,
    ?_, fun factor hfactor => adx14_scaled hfactor highs lows closes,
    fun m => adx14_mirrored m hhigh.length_eq.symm hlow.length_eq⟩
  rw [adx14_eq]
  split
  · constructor <;> norm_num
  · exact averageIndex_mem (by norm_num) hrows

/-- Thirty bars that rise and fall in turn. -/
theorem adx14_bounded_and_symmetric_waves :
    let closes : List ℚ := (List.replicate 15 [100, 101]).flatten
    let highs := closes.map fun c => c + 1
    let lows := closes.map fun c => c - 1
    Raising.adx14 highs lows closes = .ok (adx14 highs lows closes) ∧
    (∀ s ∈ smoothed 14 (movements highs lows closes), 0 < s.2.2 →
      100 * s.1 / s.2.2 + 100 * s.2.1 / s.2.2 ≤ 100) ∧
    (0 ≤ adx14 highs lows closes ∧ adx14 highs lows closes ≤ 100) ∧
    (∀ factor, 0 < factor →
      adx14 (highs.map fun p => factor * p) (lows.map fun p => factor * p)
        (closes.map fun p => factor * p) = adx14 highs lows closes) ∧
    ∀ m, adx14 (lows.map fun p => m - p) (highs.map fun p => m - p) (closes.map fun p => m - p) =
      adx14 highs lows closes := by
  intro closes highs lows
  exact adx14_bounded_and_symmetric highs lows closes (by decide +kernel) (by decide +kernel)

/-! ## In doubles -/

/-- Bars that rise by three quarters, and close where they are lowest. -/
def risingCloses : List Float := (List.range 28).map fun i => 100 + 0.75 * (i : Float)

/-- Bars of a single price that rises by a tenth. -/
def risingPrices : List Float := (List.range 28).map fun i => 100 + 0.1 * (i : Float)

/-- In doubles the index of rising bars can be more than 100, and so can the sum of the two
directional indices where the price is all there is of a bar.
SOURCE: engine/features/macro.py:70-85 -/
theorem adx14_rounds_above :
    (¬∀ highs lows closes : List Float, List.Forall₂ (· ≤ ·) lows closes →
        List.Forall₂ (· ≤ ·) closes highs →
        0 ≤ adx14 highs lows closes ∧ adx14 highs lows closes ≤ 100) ∧
    ¬∀ highs lows closes : List Float, List.Forall₂ (· ≤ ·) lows closes →
        List.Forall₂ (· ≤ ·) closes highs →
        ∀ s ∈ smoothed 14 (movements highs lows closes), 0 < s.2.2 →
          100 * s.1 / s.2.2 + 100 * s.2.1 / s.2.2 ≤ 100 := by
  constructor
  · intro h
    have hhigh : List.Forall₂ (· ≤ ·) risingCloses (risingCloses.map fun c => c + 6.5) := by
      decide +kernel
    exact absurd (h _ risingCloses risingCloses (by decide +kernel) hhigh).2 (by decide +kernel)
  · intro h
    have hflat : List.Forall₂ (· ≤ ·) risingPrices risingPrices := by decide +kernel
    exact absurd (h risingPrices risingPrices risingPrices hflat hflat) (by decide +kernel)

end TradingEdge.Analysis
