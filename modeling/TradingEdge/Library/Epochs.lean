import Mathlib.Data.List.DropRight
import TradingEdge.Library.Machine

/-!
# Machines that start over with each epoch

Each label belongs to an epoch: a day, a session, a term of office.  Before a machine of this
kind takes a label it rolls: it keeps its state if that is of the label's epoch, and else starts
from the fresh state of it.

The epochs may come in any order and come back.  Whatever the order, the state in which a label of
epoch `k` is taken depends on the labels since the machine last came to `k` alone (`roll_final`).
-/

set_option autoImplicit false

namespace TradingEdge.Library

/-- How a machine divides its labels into epochs. -/
structure Epochs {State Label Event : Type} (m : Machine State Label Event) (Epoch : Type)
    [DecidableEq Epoch] where
  epoch : Label → Epoch
  current : State → Epoch
  fresh : Epoch → State
  current_fresh : ∀ k, current (fresh k) = k
  next_roll : ∀ s l, m.next s l = m.next (if current s = epoch l then s else fresh (epoch l)) l
  current_next : ∀ s l, current (m.next s l) = epoch l

namespace Epochs

variable {State Label Event Epoch : Type} [DecidableEq Epoch] {m : Machine State Label Event}
  (E : Epochs m Epoch)

/-- The state for a label of epoch `k`. -/
def roll (s : State) (k : Epoch) : State := if E.current s = k then s else E.fresh k

/-- Within its epoch a state is not rolled. -/
theorem roll_of_eq {s : State} {k : Epoch} (h : E.current s = k) : E.roll s k = s := if_pos h

/-- In another epoch it starts afresh. -/
theorem roll_of_ne {s : State} {k : Epoch} (h : E.current s ≠ k) : E.roll s k = E.fresh k :=
  if_neg h

/-- A fresh state rolls to a fresh one. -/
@[simp] theorem roll_fresh (k k' : Epoch) : E.roll (E.fresh k) k' = E.fresh k' := by
  by_cases h : k = k'
  · rw [h]
    exact E.roll_of_eq (E.current_fresh k')
  · apply E.roll_of_ne
    rw [E.current_fresh]
    exact h

/-- The labels since the machine last came to epoch `k`. -/
def since (k : Epoch) (ls : List Label) : List Label := ls.rtakeWhile fun l => E.epoch l = k

/-- Without labels none is of the epoch. -/
@[simp] theorem since_nil (k : Epoch) : E.since k [] = [] := rfl

/-- A label of the epoch is one more since its beginning. -/
theorem since_concat_of_eq (k : Epoch) (ls : List Label) (l : Label) (h : E.epoch l = k) :
    E.since k (ls ++ [l]) = E.since k ls ++ [l] :=
  List.rtakeWhile_concat_pos _ _ _ (decide_eq_true h)

/-- A label of another epoch ends it. -/
theorem since_concat_of_ne (k : Epoch) (ls : List Label) (l : Label) (h : E.epoch l ≠ k) :
    E.since k (ls ++ [l]) = [] :=
  List.rtakeWhile_concat_neg _ _ _ (by simpa using h)

/-- The labels since the beginning of an epoch are of it. -/
theorem epoch_of_mem_since {k : Epoch} {ls : List Label} {l : Label} (h : l ∈ E.since k ls) :
    E.epoch l = k := by
  simpa using List.mem_rtakeWhile_imp h

/-- They are the last ones. -/
theorem since_suffix (k : Epoch) (ls : List Label) : E.since k ls <:+ ls :=
  List.rtakeWhile_suffix _ _

/-- **An epoch starts from a fresh state.** The state for a label of epoch `k` is the one that the
labels since the machine last came to `k` lead to. -/
theorem roll_final (k₀ k : Epoch) (ls : List Label) :
    E.roll (m.final (E.fresh k₀) ls) k = m.final (E.fresh k) (E.since k ls) := by
  induction ls using List.reverseRecOn generalizing k with
  | nil =>
    rw [Machine.final_nil, since_nil, Machine.final_nil]
    exact E.roll_fresh k₀ k
  | append_singleton ls l ih =>
    have hcurrent := E.current_next (m.final (E.fresh k₀) ls) l
    rw [Machine.final_concat]
    by_cases h : E.epoch l = k
    · rw [E.since_concat_of_eq k ls l h, Machine.final_concat, ← ih k,
        E.roll_of_eq (hcurrent.trans h), E.next_roll, h]
      rfl
    · rw [E.since_concat_of_ne k ls l h, Machine.final_nil]
      apply E.roll_of_ne
      rw [hcurrent]
      exact h

/-- **Induction within an epoch.** What the fresh state of an epoch satisfies and the labels of the
epoch preserve holds whenever a label of that epoch is taken. -/
theorem roll_invariant (I : List Label → State → Prop) (k₀ k : Epoch) (ls : List Label)
    (h0 : I [] (E.fresh k))
    (hstep : ∀ pre l, E.epoch l = k → E.current (m.final (E.fresh k) pre) = k →
      I pre (m.final (E.fresh k) pre) → I (pre ++ [l]) (m.next (m.final (E.fresh k) pre) l)) :
    I (E.since k ls) (E.roll (m.final (E.fresh k₀) ls) k) := by
  rw [E.roll_final]
  have hmem : ∀ l ∈ E.since k ls, E.epoch l = k := fun l hl => E.epoch_of_mem_since hl
  generalize E.since k ls = labels at hmem
  have hboth : E.current (m.final (E.fresh k) labels) = k ∧
      I labels (m.final (E.fresh k) labels) := by
    induction labels using List.reverseRecOn with
    | nil => exact ⟨E.current_fresh k, h0⟩
    | append_singleton pre l ih =>
      obtain ⟨hcurrent, hI⟩ := ih fun l' hl' => hmem l' (List.mem_append_left _ hl')
      have hl : E.epoch l = k := hmem l (by simp)
      rw [Machine.final_concat]
      exact ⟨(E.current_next _ l).trans hl, hstep pre l hl hcurrent hI⟩
  exact hboth.2

end Epochs

end TradingEdge.Library
