import Mathlib.Algebra.Order.Group.Abs
import Mathlib.Algebra.Order.Group.Defs
import Mathlib.Algebra.Order.Group.Unbundled.Basic
import Mathlib.Order.Bounds.Basic
import Mathlib.Order.Lattice
import Mathlib.Tactic.Abel

/-!
# Drawdowns

A fall of a path is what it loses from one point to the same or a later one.  A loop that carries
the running peak and the deepest distance below it finds the largest fall
(`Drawdown.of_loop`).  A point put in front of the path adds the falls that start there.
-/

set_option autoImplicit false

namespace TradingEdge.Library

variable {K : Type} [AddCommGroup K]

/-- What a path loses from one of its points to the same or a later one. -/
def falls : List K → Set K
  | [] => ∅
  | a :: path => {d | (∃ b ∈ a :: path, d = a - b) ∨ d ∈ falls path}

/-- A fall starts at the head, or later. -/
theorem mem_falls_cons {a d : K} {path : List K} :
    d ∈ falls (a :: path) ↔ (∃ b ∈ a :: path, d = a - b) ∨ d ∈ falls path := Iff.rfl

/-- Every point is a fall of zero. -/
theorem zero_mem_falls {path : List K} (hne : path ≠ []) : 0 ∈ falls path := by
  cases path with
  | nil => exact absurd rfl hne
  | cons a path => exact .inl ⟨a, List.mem_cons_self, (sub_self a).symm⟩

/-- A point at the end adds the falls that end there. -/
theorem mem_falls_concat {path : List K} {y d : K} :
    d ∈ falls (path ++ [y]) ↔ d ∈ falls path ∨ ∃ a ∈ path ++ [y], d = a - y := by
  induction path with
  | nil => simp [falls]
  | cons x path ih =>
    rw [List.cons_append, mem_falls_cons, ih, mem_falls_cons]
    constructor
    · rintro (⟨b, hb, rfl⟩ | hfall | ⟨a, ha, rfl⟩)
      · rcases List.mem_cons.mp hb with rfl | hb
        · exact .inl (.inl ⟨b, List.mem_cons_self, rfl⟩)
        · rcases List.mem_append.mp hb with hb | hb
          · exact .inl (.inl ⟨b, List.mem_cons_of_mem x hb, rfl⟩)
          · obtain rfl := List.mem_singleton.mp hb
            exact .inr ⟨x, List.mem_cons_self, rfl⟩
      · exact .inl (.inr hfall)
      · exact .inr ⟨a, List.mem_cons_of_mem x ha, rfl⟩
    · rintro ((⟨b, hb, rfl⟩ | hfall) | ⟨a, ha, rfl⟩)
      · exact .inl ⟨b, List.mem_append_left [y] hb, rfl⟩
      · exact .inr (.inl hfall)
      · rcases List.mem_cons.mp ha with rfl | ha
        · exact .inl ⟨y, by simp, rfl⟩
        · exact .inr (.inr ⟨a, ha, rfl⟩)

section Ordered

variable [LinearOrder K] [IsOrderedAddMonoid K]

/-- The running peak of a path and the deepest distance below it. -/
structure Drawdown (path : List K) (peak mdd : K) : Prop where
  peak : IsGreatest {a | a ∈ path} peak
  deepest : IsGreatest (falls path) (-mdd)

omit [IsOrderedAddMonoid K] in
/-- A path of one point has no drawdown. -/
theorem Drawdown.singleton (a : K) : Drawdown [a] a 0 where
  peak := by simp
  deepest := by simp [falls]

/-- One round: the new point may be the new peak, and the deepest point below the peak. -/
theorem Drawdown.concat {path : List K} {peak mdd : K} (h : Drawdown path peak mdd) (y : K) :
    Drawdown (path ++ [y]) (max peak y) (min mdd (y - max peak y)) := by
  have hpeak : IsGreatest {a | a ∈ path ++ [y]} (max peak y) := by
    constructor
    · rcases max_choice peak y with heq | heq
      · rw [heq]
        exact List.mem_append_left [y] h.peak.1
      · rw [heq]
        exact List.mem_append_right path (List.mem_singleton_self y)
    · intro a ha
      rcases List.mem_append.mp ha with ha | ha
      · exact le_max_of_le_left (h.peak.2 ha)
      · exact le_max_of_le_right (List.mem_singleton.mp ha).le
  refine ⟨hpeak, ?_, ?_⟩
  · rw [mem_falls_concat]
    rcases min_choice mdd (y - max peak y) with heq | heq
    · rw [heq]
      exact .inl h.deepest.1
    · rw [heq, neg_sub]
      exact .inr ⟨max peak y, hpeak.1, rfl⟩
  · intro d hd
    rcases mem_falls_concat.mp hd with hd | ⟨a, ha, rfl⟩
    · exact (h.deepest.2 hd).trans (neg_le_neg (min_le_left _ _))
    · calc a - y ≤ max peak y - y := sub_le_sub_right (hpeak.2 ha) y
        _ = -(y - max peak y) := (neg_sub _ _).symm
        _ ≤ -min mdd (y - max peak y) := neg_le_neg (min_le_right _ _)

/-- The magnitude of a drawdown is the largest fall. -/
theorem Drawdown.isGreatest_abs {path : List K} {peak mdd : K} (h : Drawdown path peak mdd)
    (hne : path ≠ []) : IsGreatest (falls path) |mdd| := by
  have hnonpos : mdd ≤ 0 := neg_nonneg.mp (h.deepest.2 (zero_mem_falls hne))
  rw [abs_of_nonpos hnonpos]
  exact h.deepest

/-- One round of a loop that looks for the largest fall. -/
def drawdownStep (s : K × K) (y : K) : K × K := (max s.1 y, min s.2 (y - max s.1 y))

/-- **Peaks and falls.**  The loop finds the largest fall. -/
theorem Drawdown.of_loop {path : List K} {s : K × K} (h : Drawdown path s.1 s.2) (rest : List K) :
    Drawdown (path ++ rest) (rest.foldl drawdownStep s).1 (rest.foldl drawdownStep s).2 := by
  induction rest generalizing path s with
  | nil => simpa using h
  | cons y rest ih =>
    have hnext : Drawdown (path ++ [y]) (drawdownStep s y).1 (drawdownStep s y).2 := h.concat y
    rw [List.foldl_cons, List.append_cons]
    exact ih hnext

omit [IsOrderedAddMonoid K] in
/-- A starting point adds no larger fall if every fall from it is matched later on. -/
theorem isGreatest_falls_cons_iff {start d : K} {path : List K} (hne : path ≠ [])
    (h : IsGreatest (falls path) d) :
    IsGreatest (falls (start :: path)) d ↔ ∀ b ∈ path, ∃ d' ∈ falls path, start - b ≤ d' := by
  constructor
  · intro hall b hb
    exact ⟨d, h.1, hall.2 (.inl ⟨b, List.mem_cons_of_mem start hb, rfl⟩)⟩
  · intro hmatched
    refine ⟨.inr h.1, ?_⟩
    rintro d' (⟨b, hb, rfl⟩ | hd')
    · rcases List.mem_cons.mp hb with rfl | hb
      · rw [sub_self]
        exact h.2 (zero_mem_falls hne)
      · obtain ⟨d', hd', hle⟩ := hmatched b hb
        exact hle.trans (h.2 hd')
    · exact h.2 hd'

omit [IsOrderedAddMonoid K] in
/-- The deepest distance below the running maxima is what the loop finds. -/
theorem foldl_min_zipWith_scanl (peak mdd : K) (rest : List K) :
    ((rest.zipWith (· - ·) (rest.scanl max peak).tail).foldl min mdd) =
      (rest.foldl drawdownStep (peak, mdd)).2 := by
  induction rest generalizing peak mdd with
  | nil => rfl
  | cons y rest ih =>
    cases rest with
    | nil => rfl
    | cons y' rest =>
      have hscan := ih (max peak y) (min mdd (y - max peak y))
      rw [List.scanl_cons, List.tail_cons] at hscan ⊢
      rw [List.scanl_cons, List.zipWith_cons_cons, List.foldl_cons, hscan]
      rfl

end Ordered

end TradingEdge.Library
