import Mathlib.Order.Lattice
import TradingEdge.Library.Machine

/-!
# Latches

A check fires if it is due and its key is not the one that the latch holds, which is that of the
last firing.  When keys never go back, a latch fires once for each key that has a due check
(`latch_fires_once`).
-/

set_option autoImplicit false

namespace TradingEdge.Library

variable {τ κ : Type} [DecidableEq κ]

/-- The latch with the key it holds. -/
def latch (due : τ → Bool) (key : τ → κ) : Machine (Option κ) τ κ where
  step last check :=
    if due check = true ∧ last ≠ some (key check) then (some (key check), [key check])
    else (last, [])

variable (due : τ → Bool) (key : τ → κ)

/-- A check that is due fires, unless its key has fired last. -/
theorem emits_latch (last : Option κ) (check : τ) :
    (latch due key).emits last check =
      if due check = true ∧ last ≠ some (key check) then [key check] else [] := by
  simp only [latch, Machine.emits]
  split <;> rfl

/-- A latch holds the key of its last firing. -/
theorem latch_final (checks : List τ) :
    (latch due key).final none checks = ((latch due key).trace none checks).getLast? := by
  induction checks using List.reverseRecOn with
  | nil => rfl
  | append_singleton checks check ih =>
    rw [Machine.final_concat, Machine.trace_concat]
    generalize (latch due key).trace none checks = fired at ih ⊢
    rw [ih]
    simp only [latch, Machine.next, Machine.emits]
    split
    · rw [List.getLast?_append, List.getLast?_singleton, Option.some_or]
    · rw [List.append_nil]

variable {due key} [LinearOrder κ]

/-- **Once for each key.** If keys never go back, the firings go forward, and a key has one exactly
if some check of it is due. -/
theorem latch_fires_once {checks : List τ} (horder : checks.Pairwise fun a b => key a ≤ key b) :
    ((latch due key).trace none checks).Pairwise (· < ·) ∧
      ∀ k, k ∈ (latch due key).trace none checks ↔ ∃ c ∈ checks, due c = true ∧ key c = k := by
  induction checks using List.reverseRecOn with
  | nil => exact ⟨List.Pairwise.nil, fun k => by simp⟩
  | append_singleton checks check ih =>
    obtain ⟨hbefore, -, hlast⟩ := List.pairwise_append.mp horder
    obtain ⟨hsorted, hmem⟩ := ih hbefore
    have hlatch := latch_final due key checks
    rw [Machine.trace_concat, emits_latch, hlatch]
    generalize (latch due key).trace none checks = fired at hsorted hmem ⊢
    have hle : ∀ k ∈ fired, k ≤ key check := by
      intro k hk
      obtain ⟨c, hc, -, rfl⟩ := (hmem k).mp hk
      exact hlast c hc check (List.mem_singleton.mpr rfl)
    have hlabels : ∀ k, (∃ c ∈ checks ++ [check], due c = true ∧ key c = k) ↔
        k ∈ fired ∨ due check = true ∧ key check = k := by
      intro k
      rw [hmem]
      simp [or_and_right, exists_or]
    by_cases hdue : due check = true
    · by_cases hsame : fired.getLast? = some (key check)
      · have hin : key check ∈ fired := List.mem_of_getLast? hsame
        rw [if_neg fun h => h.2 hsame, List.append_nil]
        refine ⟨hsorted, fun k => ?_⟩
        rw [hlabels]
        exact ⟨.inl, fun h => h.elim id fun h => h.2 ▸ hin⟩
      · rw [if_pos ⟨hdue, hsame⟩]
        constructor
        · refine List.pairwise_append.mpr ⟨hsorted, List.pairwise_singleton _ _, ?_⟩
          intro k hk k' hk'
          rw [List.mem_singleton.mp hk']
          refine lt_of_le_of_ne (hle k hk) fun heq => hsame ?_
          -- a key that was fired and is not before any other is the last one
          subst heq
          obtain ⟨before, after, rfl⟩ := List.append_of_mem hk
          obtain ⟨-, hafter, -⟩ := List.pairwise_append.mp hsorted
          cases after with
          | nil => rw [List.getLast?_append, List.getLast?_singleton, Option.some_or]
          | cons next after =>
            have hlt := (List.pairwise_cons.mp hafter).1 next List.mem_cons_self
            have hback := hle next (List.mem_append_right _ (List.mem_cons_of_mem _
              List.mem_cons_self))
            exact absurd hlt (not_lt_of_ge hback)
        · intro k
          rw [hlabels, List.mem_append, List.mem_singleton]
          exact or_congr_right ⟨fun h => ⟨hdue, h.symm⟩, fun h => h.2.symm⟩
    · rw [if_neg fun h => hdue h.1, List.append_nil]
      refine ⟨hsorted, fun k => ?_⟩
      rw [hlabels]
      exact ⟨.inl, fun h => h.elim id fun h => absurd h.1 hdue⟩

end TradingEdge.Library
