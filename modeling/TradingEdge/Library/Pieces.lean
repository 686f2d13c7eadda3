import Mathlib.Data.List.Infix

/-!
# Patterns made of pieces

A pattern is a list of pieces, each one element of a class or any number of them; the wildcards of
file names and the spellings of a tag are such patterns.  `Matches` is about a whole text, `begins`
about a front part of it, and `occurrences` lists where in a text a front part begins.

What a text holds behind a barrier, an element that no later piece takes, does not matter to what
begins in front of it (`begins_append_of_barrier`), so the occurrences of the two parts are those of
the whole (`occurrences_append_of_barrier`).
-/

set_option autoImplicit false

namespace TradingEdge.Library

variable {α : Type}

/-- One element that satisfies a test, or any number of them. -/
inductive Piece (α : Type) where
  | one (test : α → Bool)
  | many (test : α → Bool)

namespace Piece

def test : Piece α → α → Bool
  | one test => test
  | many test => test

/-- Elements that satisfy a test, and then a text that `k` accepts. -/
def manyThen (test : α → Bool) (k : List α → Bool) : List α → Bool
  | [] => k []
  | a :: s => k (a :: s) || (test a && manyThen test k s)

/-- The whole text is what the pieces take, one behind the other. -/
def matchAll : List (Piece α) → List α → Bool
  | [], s => s.isEmpty
  | one _ :: _, [] => false
  | one test :: ps, a :: s => test a && matchAll ps s
  | many test :: ps, s => manyThen test (matchAll ps) s

/-- What a repeated piece takes, and what is left to the rest. -/
theorem manyThen_iff (test : α → Bool) (k : List α → Bool) (s : List α) :
    manyThen test k s ↔ ∃ u v, s = u ++ v ∧ (∀ a ∈ u, test a) ∧ k v := by
  induction s with
  | nil =>
    constructor
    · intro h
      exact ⟨[], [], rfl, by simp, h⟩
    · rintro ⟨u, v, huv, -, hk⟩
      obtain ⟨rfl, rfl⟩ := List.append_eq_nil_iff.mp huv.symm
      exact hk
  | cons a s ih =>
    rw [manyThen, Bool.or_eq_true, Bool.and_eq_true, ih]
    constructor
    · rintro (hk | ⟨htest, u, v, rfl, hu, hk⟩)
      · exact ⟨[], a :: s, rfl, by simp, hk⟩
      · exact ⟨a :: u, v, rfl, List.forall_mem_cons.mpr ⟨htest, hu⟩, hk⟩
    · rintro ⟨u, v, huv, hu, hk⟩
      cases u with
      | nil =>
        rw [List.nil_append] at huv
        exact .inl (huv ▸ hk)
      | cons b u =>
        rw [List.cons_append, List.cons.injEq] at huv
        obtain ⟨rfl, rfl⟩ := huv
        obtain ⟨htest, hu⟩ := List.forall_mem_cons.mp hu
        exact .inr ⟨htest, u, v, rfl, hu, hk⟩

/-- Every element of a match is taken by a piece. -/
theorem exists_test_of_matchAll {ps : List (Piece α)} {s : List α} (h : matchAll ps s) {a : α}
    (ha : a ∈ s) : ∃ p ∈ ps, p.test a := by
  induction ps generalizing s with
  | nil =>
    rw [matchAll, List.isEmpty_iff] at h
    exact absurd (h ▸ ha) List.not_mem_nil
  | cons p ps ih =>
    cases p with
    | one test =>
      cases s with
      | nil => exact absurd ha List.not_mem_nil
      | cons b s =>
        rw [matchAll, Bool.and_eq_true] at h
        rcases List.mem_cons.mp ha with rfl | ha
        · exact ⟨_, List.mem_cons_self, h.1⟩
        · obtain ⟨p, hp, htest⟩ := ih h.2 ha
          exact ⟨p, List.mem_cons_of_mem _ hp, htest⟩
    | many test =>
      rw [matchAll] at h
      obtain ⟨u, v, rfl, hu, hv⟩ := (manyThen_iff _ _ _).mp h
      rcases List.mem_append.mp ha with ha | ha
      · exact ⟨_, List.mem_cons_self, hu a ha⟩
      · obtain ⟨p, hp, htest⟩ := ih hv ha
        exact ⟨p, List.mem_cons_of_mem _ hp, htest⟩

/-- A match of a pattern whose last piece is one element ends in such an element. -/
theorem getLast?_of_matchAll {ps : List (Piece α)} {last : α → Bool} {s : List α}
    (h : matchAll (ps ++ [one last]) s) : ∃ a ∈ s.getLast?, last a := by
  induction ps generalizing s with
  | nil =>
    cases s with
    | nil => cases h
    | cons a s =>
      rw [List.nil_append, matchAll, Bool.and_eq_true, matchAll, List.isEmpty_iff] at h
      obtain ⟨hlast, rfl⟩ := h
      exact ⟨a, rfl, hlast⟩
  | cons p ps ih =>
    have hbehind : ∀ u v, matchAll (ps ++ [one last]) v → ∃ a ∈ (u ++ v).getLast?, last a := by
      intro u v hv
      obtain ⟨a, ha, hlast⟩ := ih hv
      exact ⟨a, by rw [List.getLast?_append, Option.mem_def.mp ha]; rfl, hlast⟩
    cases p with
    | one test =>
      cases s with
      | nil => cases h
      | cons b s =>
        rw [List.cons_append, matchAll, Bool.and_eq_true] at h
        exact hbehind [b] s h.2
    | many test =>
      rw [List.cons_append, matchAll] at h
      obtain ⟨u, v, rfl, -, hv⟩ := (manyThen_iff _ _ _).mp h
      exact hbehind u v hv

/-! ## Front parts -/

/-- A front part of the text is a match. -/
def begins (ps : List (Piece α)) (s : List α) : Bool := s.inits.any (matchAll ps)

/-- The pieces take a text that stands at the beginning. -/
theorem begins_iff {ps : List (Piece α)} {s : List α} :
    begins ps s ↔ ∃ u, u <+: s ∧ matchAll ps u := by
  simp [begins, List.any_eq_true, List.mem_inits]

/-- No later piece takes what stands at the head of the text. -/
def Barrier (ps : List (Piece α)) (z : List α) : Prop := ∀ a ∈ z.head?, ∀ p ∈ ps, ¬p.test a

/-- What stands behind a barrier is not seen from in front of it. -/
theorem begins_append_of_barrier {first : α → Bool} {ps : List (Piece α)} {s z : List α}
    (hs : s ≠ []) (hz : Barrier ps z) :
    begins (one first :: ps) (s ++ z) = begins (one first :: ps) s := by
  rw [Bool.eq_iff_iff, begins_iff, begins_iff]
  constructor
  · rintro ⟨u, hu, hmatch⟩
    rcases List.prefix_or_prefix_of_prefix hu (List.prefix_append s z) with hus | hsu
    · exact ⟨u, hus, hmatch⟩
    · obtain ⟨w, rfl⟩ := hsu
      rw [List.prefix_append_right_inj] at hu
      cases w with
      | nil => exact ⟨s, List.prefix_rfl, by rwa [List.append_nil] at hmatch⟩
      | cons b w =>
        -- the match would reach over the barrier
        obtain ⟨a, s, rfl⟩ := List.exists_cons_of_ne_nil hs
        rw [List.cons_append, matchAll, Bool.and_eq_true] at hmatch
        have hhead : z.head? = some b := by
          obtain ⟨t, rfl⟩ := hu
          rfl
        obtain ⟨p, hp, htest⟩ := exists_test_of_matchAll hmatch.2
          (List.mem_append_right s List.mem_cons_self)
        exact absurd htest (hz b hhead p hp)
  · rintro ⟨u, hu, hmatch⟩
    exact ⟨u, hu.trans (List.prefix_append s z), hmatch⟩

/-- Nor is one element behind the text that cannot be the last of a match. -/
theorem begins_concat {ps : List (Piece α)} {last : α → Bool} (s : List α) {a : α}
    (ha : ¬last a) : begins (ps ++ [one last]) (s ++ [a]) = begins (ps ++ [one last]) s := by
  rw [Bool.eq_iff_iff, begins_iff, begins_iff]
  constructor
  · rintro ⟨u, hu, hmatch⟩
    rcases List.prefix_concat_iff.mp hu with rfl | hu
    · obtain ⟨b, hb, hlast⟩ := getLast?_of_matchAll hmatch
      rw [List.getLast?_concat, Option.mem_some_iff] at hb
      exact absurd (hb ▸ hlast) ha
    · exact ⟨u, hu, hmatch⟩
  · rintro ⟨u, hu, hmatch⟩
    exact ⟨u, hu.trans (List.prefix_append s [a]), hmatch⟩

/-- A text does not begin with what its head is not. -/
theorem not_begins_of_head {first : α → Bool} {ps : List (Piece α)} {a : α} {s : List α}
    (h : ¬first a) : begins (one first :: ps) (a :: s) = false := by
  rw [Bool.eq_false_iff, ne_eq, begins_iff]
  rintro ⟨u, hu, hmatch⟩
  cases u with
  | nil => cases hmatch
  | cons b u =>
    obtain ⟨rfl, -⟩ := List.cons_prefix_cons.mp hu
    rw [matchAll, Bool.and_eq_true] at hmatch
    exact h hmatch.1

/-! ## Occurrences -/

/-- The places of the text at which a match begins. -/
def occurrences (ps : List (Piece α)) : List α → List ℕ
  | [] => []
  | a :: s =>
    (if begins ps (a :: s) then [0] else []) ++ (occurrences ps s).map fun i => i + 1

/-- In front of a barrier and behind it the occurrences are separate. -/
theorem occurrences_append_of_barrier {first : α → Bool} {ps : List (Piece α)} (s : List α)
    {z : List α} (hz : Barrier ps z) :
    occurrences (one first :: ps) (s ++ z) =
      occurrences (one first :: ps) s ++
        (occurrences (one first :: ps) z).map fun i => i + s.length := by
  induction s with
  | nil => simp [occurrences]
  | cons a s ih =>
    have hbegins : begins (one first :: ps) (a :: (s ++ z)) = begins (one first :: ps) (a :: s) :=
      begins_append_of_barrier (List.cons_ne_nil a s) hz
    rw [List.cons_append, occurrences, occurrences, hbegins, ih, List.map_append, List.map_map, List.append_assoc,
      List.length_cons]
    rfl

/-- An element that neither begins nor ends an occurrence adds none. -/
theorem occurrences_concat {first last : α → Bool} {ps : List (Piece α)} (s : List α) {a : α}
    (hfirst : ¬first a) (hlast : ¬last a) :
    occurrences (one first :: (ps ++ [one last])) (s ++ [a]) =
      occurrences (one first :: (ps ++ [one last])) s := by
  induction s with
  | nil => simp [occurrences, not_begins_of_head hfirst]
  | cons b s ih =>
    have hbegins : begins (one first :: (ps ++ [one last])) (b :: (s ++ [a])) =
        begins (one first :: (ps ++ [one last])) (b :: s) :=
      @begins_concat α (one first :: ps) last (b :: s) a hlast
    rw [List.cons_append, occurrences, occurrences, hbegins, ih]

/-- Elements with which no match begins only shift what stands behind them. -/
theorem occurrences_append_of_not_first {first : α → Bool} {ps : List (Piece α)} {s : List α}
    (h : ∀ a ∈ s, ¬first a) (z : List α) :
    occurrences (one first :: ps) (s ++ z) =
      (occurrences (one first :: ps) z).map fun i => i + s.length := by
  induction s with
  | nil => simp
  | cons a s ih =>
    obtain ⟨ha, hs⟩ := List.forall_mem_cons.mp h
    rw [List.cons_append, occurrences, not_begins_of_head ha, ih hs, List.map_map]
    rfl

end Piece

end TradingEdge.Library
