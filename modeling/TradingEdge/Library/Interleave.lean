import Mathlib.Algebra.BigOperators.Group.Finset.Basic
import Mathlib.Algebra.BigOperators.Group.Finset.Piecewise
import Mathlib.Tactic.Abel
import TradingEdge.Library.Machine

/-!
# Machines side by side

A family of machines, of which one takes a step at a time, in any order.  The state is the
family of the states, a label says which machine moves and how, and an event says which machine
it comes from.  A step moves a total over the family by what it changes at its one machine
(`sum_interleave_next`).
-/

set_option autoImplicit false

namespace TradingEdge.Library

namespace Machine

variable {ι State Label Event : Type} [DecidableEq ι]

/-- Every interleaving of the machines of a family. -/
def interleave (m : ι → Machine State Label Event) :
    Machine (ι → State) (ι × Label) (ι × Event) :=
  ⟨fun s l => (Function.update s l.1 ((m l.1).next (s l.1) l.2),
    ((m l.1).emits (s l.1) l.2).map fun e => (l.1, e))⟩

variable (m : ι → Machine State Label Event)

/-- A step moves its own component. -/
theorem interleave_next (s : ι → State) (i : ι) (l : Label) :
    (interleave m).next s (i, l) = Function.update s i ((m i).next (s i) l) := rfl

/-- What every machine keeps at its own steps, the family keeps. -/
theorem forall_interleave_next {P : ι → State → Prop} {s : ι → State} (h : ∀ i, P i (s i))
    (l : ι × Label) (hstep : P l.1 ((m l.1).next (s l.1) l.2)) (i : ι) :
    P i ((interleave m).next s l i) := by
  change P i (Function.update s l.1 ((m l.1).next (s l.1) l.2) i)
  by_cases hi : i = l.1
  · subst hi
    rw [Function.update_self]
    exact hstep
  · rw [Function.update_of_ne hi]
    exact h i

/-- What comes from one machine of a family, or goes to it. -/
def only {A : Type} (i : ι) (xs : List (ι × A)) : List A :=
  xs.filterMap fun x => if x.1 = i then some x.2 else none

/-- The part of a component in a list continued. -/
theorem only_append {A : Type} (i : ι) (xs ys : List (ι × A)) :
    only i (xs ++ ys) = only i xs ++ only i ys :=
  List.filterMap_append

/-- What one component emits is its own part. -/
theorem only_tag {A : Type} (i j : ι) (xs : List A) :
    only i (xs.map fun x => (j, x)) = if j = i then xs else [] := by
  split
  · next h => simp [only, List.filterMap_map, h]
  · next h => simp [only, h]

/-- The part of a component has what is tagged with it. -/
theorem mem_only_iff {A : Type} {i : ι} {xs : List (ι × A)} {x : A} :
    x ∈ only i xs ↔ (i, x) ∈ xs := by
  simp [only]

/-- **Each machine takes its own run.** In an interleaving a machine ends where its own labels take
it, and emits what they make it emit. -/
theorem interleave_run (s : ι → State) (ls : List (ι × Label)) (i : ι) :
    (interleave m).final s ls i = (m i).final (s i) (only i ls) ∧
      only i ((interleave m).trace s ls) = (m i).trace (s i) (only i ls) := by
  induction ls using List.reverseRecOn with
  | nil => exact ⟨rfl, rfl⟩
  | append_singleton ls l ih =>
    obtain ⟨j, l⟩ := l
    obtain ⟨hfinal, htrace⟩ := ih
    have hlast : only i [(j, l)] = if j = i then [l] else [] := only_tag i j [l]
    have hemits : only i ((interleave m).emits ((interleave m).final s ls) (j, l)) =
        if j = i then (m j).emits ((interleave m).final s ls j) l else [] :=
      only_tag i j _
    rw [final_concat, trace_concat, only_append, only_append, htrace, hemits, hlast,
      interleave_next]
    by_cases hj : j = i
    · subst hj
      rw [if_pos rfl, if_pos rfl, Function.update_self, final_concat, trace_concat, hfinal]
      exact ⟨rfl, rfl⟩
    · rw [if_neg hj, if_neg hj, List.append_nil, List.append_nil,
        Function.update_of_ne fun h => hj h.symm]
      exact ⟨hfinal, rfl⟩

/-- A total moves by what the step changes at its machine. -/
theorem sum_interleave_next [Fintype ι] {A : Type} [AddCommGroup A] (f : ι → State → A)
    (s : ι → State) (i : ι) (l : Label) :
    ∑ j, f j ((interleave m).next s (i, l) j) =
      ∑ j, f j (s j) + (f i ((m i).next (s i) l) - f i (s i)) := by
  have hupdate : ∀ j, f j (Function.update s i ((m i).next (s i) l) j) =
      Function.update (fun j => f j (s j)) i (f i ((m i).next (s i) l)) j := by
    intro j
    by_cases hj : j = i
    · subst hj
      simp
    · simp [hj]
  rw [interleave_next, Finset.sum_congr rfl fun j _ => hupdate j,
    Finset.sum_update_of_mem (Finset.mem_univ i), Finset.sdiff_singleton_eq_erase,
    ← Finset.add_sum_erase Finset.univ (fun j => f j (s j)) (Finset.mem_univ i)]
  abel

end Machine

end TradingEdge.Library
