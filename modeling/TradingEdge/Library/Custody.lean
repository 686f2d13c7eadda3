import Mathlib.Data.List.Flatten
import Mathlib.Data.List.DropRight
import Mathlib.Data.List.Perm.Subperm
import Mathlib.Algebra.BigOperators.Group.List.Basic
import TradingEdge.Library.Machine

/-!
# Custody and running totals

Two accounting arguments about the runs of a machine.

*Custody.* The state holds items, some events acquire one and some release one.  If every
step conserves items, then over a run what was held and what was acquired is, up to order,
what is held and what was released (`Custody.run`).  In particular nothing is released more
often than it was acquired (`Custody.released_subperm`).

*Running totals.* If every step changes a value as its events say, then the value at the end
of a run is the fold of its trace (`foldl_trace`); for a total that some events reset, that
is the sum of the amounts after the last reset (`foldl_reset`).
-/

set_option autoImplicit false

namespace TradingEdge.Library

open scoped List

/-- Items are conserved by every step from a state that satisfies `Inv`. -/
structure Custody {State Label Event α : Type} (m : Machine State Label Event)
    (Inv : State → Prop) (held : State → List α) (acquired released : Event → List α) :
    Prop where
  preserved : ∀ s l, Inv s → Inv (m.next s l)
  conserved : ∀ s l, Inv s →
    (held s ++ (m.emits s l).flatMap acquired).Perm
      (held (m.next s l) ++ (m.emits s l).flatMap released)

namespace Custody

variable {State Label Event α : Type} {m : Machine State Label Event} {Inv : State → Prop}
  {held : State → List α} {acquired released : Event → List α}

/-- The invariant holds along a run. -/
theorem final_inv (c : Custody m Inv held acquired released) (s : State) (hs : Inv s)
    (ls : List Label) : Inv (m.final s ls) := by
  induction ls using List.reverseRecOn with
  | nil => exact hs
  | append_singleton ls l ih =>
    rw [Machine.final_concat]
    exact c.preserved _ l ih

/-- **Conservation over a run.** -/
theorem run (c : Custody m Inv held acquired released) (s : State) (hs : Inv s)
    (ls : List Label) :
    (held s ++ (m.trace s ls).flatMap acquired).Perm
      (held (m.final s ls) ++ (m.trace s ls).flatMap released) := by
  induction ls using List.reverseRecOn with
  | nil => simp
  | append_singleton ls l ih =>
    have hstep := c.conserved _ l (c.final_inv s hs ls)
    simp only [Machine.trace_concat, Machine.final_concat, List.flatMap_append]
    rw [← List.append_assoc]
    calc held s ++ (m.trace s ls).flatMap acquired ++
          (m.emits (m.final s ls) l).flatMap acquired
      _ ~ held (m.final s ls) ++ (m.trace s ls).flatMap released ++
          (m.emits (m.final s ls) l).flatMap acquired := ih.append_right _
      _ ~ (m.trace s ls).flatMap released ++ (held (m.final s ls) ++
          (m.emits (m.final s ls) l).flatMap acquired) := by
        rw [← List.append_assoc]
        exact List.perm_append_comm.append_right _
      _ ~ (m.trace s ls).flatMap released ++ (held (m.next (m.final s ls) l) ++
          (m.emits (m.final s ls) l).flatMap released) := hstep.append_left _
      _ ~ held (m.next (m.final s ls) l) ++ ((m.trace s ls).flatMap released ++
          (m.emits (m.final s ls) l).flatMap released) := by
        rw [← List.append_assoc, ← List.append_assoc]
        exact List.perm_append_comm.append_right _

/-- From empty hands, nothing is released more often than it was acquired. -/
theorem released_subperm (c : Custody m Inv held acquired released) (s : State) (hs : Inv s)
    (hempty : held s = []) (ls : List Label) :
    ((m.trace s ls).flatMap released).Subperm ((m.trace s ls).flatMap acquired) := by
  have h := c.run s hs ls
  rw [hempty, List.nil_append] at h
  exact (List.sublist_append_right _ _).subperm.trans h.symm.subperm

end Custody

namespace Machine

variable {State Label Event β : Type} (m : Machine State Label Event)

/-- A value that every step changes as its events say is the fold of the trace. -/
theorem foldl_trace (value : State → β) (f : β → Event → β)
    (h : ∀ s l, value (m.next s l) = (m.emits s l).foldl f (value s)) (s : State)
    (ls : List Label) : value (m.final s ls) = (m.trace s ls).foldl f (value s) := by
  induction ls using List.reverseRecOn with
  | nil => rfl
  | append_singleton ls l ih =>
    rw [final_concat, trace_concat, List.foldl_append, ← ih]
    exact h _ l

end Machine

/-- The events after the last one that satisfies `p`. -/
def sinceLast {Event : Type} (p : Event → Bool) (es : List Event) : List Event :=
  es.rtakeWhile fun e => !p e

/-- The events up to the last one that satisfies `p`. -/
def upToLast {Event : Type} (p : Event → Bool) (es : List Event) : List Event :=
  es.rdropWhile fun e => !p e

/-- A list is what comes up to its last mark and what comes since. -/
theorem upToLast_append_sinceLast {Event : Type} (p : Event → Bool) (es : List Event) :
    upToLast p es ++ sinceLast p es = es := by
  unfold upToLast sinceLast List.rdropWhile List.rtakeWhile
  rw [← List.reverse_append, List.takeWhile_append_dropWhile, List.reverse_reverse]

/-- A total that some events reset is the sum of the amounts after the last reset, from zero if
there was one. -/
theorem foldl_reset_from {Event M : Type} [AddMonoid M] (p : Event → Bool) (amount : Event → M)
    (total : M) (es : List Event) :
    es.foldl (fun total e => if p e then 0 else total + amount e) total =
      (if es.any p then 0 else total) + ((sinceLast p es).map amount).sum := by
  induction es using List.reverseRecOn with
  | nil => simp [sinceLast]
  | append_singleton es e ih =>
    rw [List.foldl_append, ih]
    cases hp : p e with
    | true => simp [sinceLast, List.rtakeWhile_concat_neg, hp]
    | false => simp [sinceLast, List.rtakeWhile_concat_pos, hp, add_assoc]

/-- From zero, the last reset is all that counts. -/
theorem foldl_reset {Event M : Type} [AddMonoid M] (p : Event → Bool) (amount : Event → M)
    (es : List Event) :
    es.foldl (fun total e => if p e then 0 else total + amount e) 0 =
      ((sinceLast p es).map amount).sum := by
  rw [foldl_reset_from, ite_self, zero_add]

end TradingEdge.Library
