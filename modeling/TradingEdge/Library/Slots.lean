import Mathlib.Data.List.Count
import Mathlib.Logic.Function.Basic
import TradingEdge.Library.Machine

/-!
# Slots that are filled and emptied

A slot holds at most one value.  The abstract model of a store with reusable names is a
function from names to what their slots hold, and a log of changes: a value is *put* into an
empty slot, or the value of a slot is *taken* out of it.  `replay` carries a log out, and
fails on a log that puts into a full slot or takes what is not there.

A machine that reports its changes implements this model if each of its steps replays
(`Machine.replay_trace`).  Then no value is taken more often than it was put, and it is in
its slot exactly when it was put once more (`count_put_eq`).
-/

set_option autoImplicit false

namespace TradingEdge.Library

/-- A change of one slot. -/
inductive SlotChange (κ α : Type) where
  | put (k : κ) (a : α)
  | take (k : κ) (a : α)
deriving DecidableEq

namespace SlotChange

variable {κ α : Type} [DecidableEq κ] [DecidableEq α]

/-- Carry out one change: only an empty slot is filled, and only what is there is taken. -/
def apply (slots : κ → Option α) : SlotChange κ α → Option (κ → Option α)
  | .put k a => if slots k = none then some (Function.update slots k (some a)) else none
  | .take k a => if slots k = some a then some (Function.update slots k none) else none

/-- Carry out a log of changes in order. -/
def replay : (κ → Option α) → List (SlotChange κ α) → Option (κ → Option α)
  | slots, [] => some slots
  | slots, c :: cs => (apply slots c).bind fun slots' => replay slots' cs

/-- Changes continued. -/
theorem replay_append (slots : κ → Option α) (cs cs' : List (SlotChange κ α)) :
    replay slots (cs ++ cs') = (replay slots cs).bind fun slots' => replay slots' cs' := by
  induction cs generalizing slots with
  | nil => rfl
  | cons c cs ih =>
    rw [List.cons_append, replay, replay]
    cases h : apply slots c with
    | none => rfl
    | some slots' => exact ih slots'

/-- Taking the values of a list of different slots out empties these and no others. -/
theorem replay_take (slots : κ → Option α) (key : α → κ) (as : List α)
    (hmem : ∀ a ∈ as, slots (key a) = some a) (hnd : (as.map key).Nodup) :
    replay slots (as.map fun a => .take (key a) a) =
      some fun k => if k ∈ as.map key then none else slots k := by
  induction as generalizing slots with
  | nil => simp [replay]
  | cons a as ih =>
    rw [List.map_cons, List.nodup_cons] at hnd
    have ha : slots (key a) = some a := hmem a List.mem_cons_self
    have hrest : ∀ b ∈ as, Function.update slots (key a) none (key b) = some b := by
      intro b hb
      have hne : key b ≠ key a := fun heq => hnd.1 (heq ▸ List.mem_map_of_mem hb)
      rw [Function.update_of_ne hne]
      exact hmem b (List.mem_cons_of_mem a hb)
    rw [List.map_cons, replay, apply, if_pos ha, Option.bind_some, ih _ hrest hnd.2]
    congr 1
    funext k
    by_cases hk : k = key a
    · simp [hk]
    · simp [hk]

/-- How often a value was put is how often it was taken, and once more if it is there. -/
theorem count_put_eq (slots slots' : κ → Option α) (cs : List (SlotChange κ α))
    (h : replay slots cs = some slots') (k : κ) (a : α) :
    cs.count (.put k a) + (if slots k = some a then 1 else 0) =
      cs.count (.take k a) + (if slots' k = some a then 1 else 0) := by
  induction cs generalizing slots with
  | nil =>
    obtain rfl := Option.some.inj h
    rfl
  | cons c cs ih =>
    rw [replay, Option.bind_eq_some_iff] at h
    obtain ⟨mid, hc, hcs⟩ := h
    have hih := ih mid hcs
    cases c with
    | put k' a' =>
      rw [apply] at hc
      split at hc
      · rename_i hfree
        obtain rfl := Option.some.inj hc
        by_cases hk : k = k'
        · subst hk
          by_cases ha : a = a'
          · subst ha
            simp [hfree] at hih ⊢
            omega
          · have ha' : a' ≠ a := fun heq => ha heq.symm
            simp [hfree, ha'] at hih ⊢
            omega
        · have hk' : k' ≠ k := fun heq => hk heq.symm
          simp [Function.update_of_ne hk, hk'] at hih ⊢
          omega
      · cases hc
    | take k' a' =>
      rw [apply] at hc
      split at hc
      · rename_i hheld
        obtain rfl := Option.some.inj hc
        by_cases hk : k = k'
        · subst hk
          by_cases ha : a = a'
          · subst ha
            simp [hheld] at hih ⊢
            omega
          · have ha' : a' ≠ a := fun heq => ha heq.symm
            simp [hheld, ha'] at hih ⊢
            omega
        · have hk' : k' ≠ k := fun heq => hk heq.symm
          simp [Function.update_of_ne hk, hk'] at hih ⊢
          omega
      · cases hc

/-- What is in a slot at the end was there or was put there. -/
theorem eq_some_or_put_mem (slots slots' : κ → Option α) (cs : List (SlotChange κ α))
    (h : replay slots cs = some slots') (k : κ) (a : α) (ha : slots' k = some a) :
    slots k = some a ∨ .put k a ∈ cs := by
  have hcount := count_put_eq slots slots' cs h k a
  rw [if_pos ha] at hcount
  by_cases hslot : slots k = some a
  · exact Or.inl hslot
  · rw [if_neg hslot] at hcount
    refine Or.inr (List.count_pos_iff.mp ?_)
    omega

/-- What was in a slot is there at the end or was taken. -/
theorem eq_some_or_take_mem (slots slots' : κ → Option α) (cs : List (SlotChange κ α))
    (h : replay slots cs = some slots') (k : κ) (a : α) (ha : slots k = some a) :
    slots' k = some a ∨ .take k a ∈ cs := by
  have hcount := count_put_eq slots slots' cs h k a
  rw [if_pos ha] at hcount
  by_cases hslot : slots' k = some a
  · exact Or.inl hslot
  · rw [if_neg hslot] at hcount
    refine Or.inr (List.count_pos_iff.mp ?_)
    omega

/-- Of a value that was taken and not put back nothing is left. -/
theorem ne_some_of_take_mem (slots slots' : κ → Option α) (cs : List (SlotChange κ α))
    (h : replay slots cs = some slots') (k : κ) (a : α) (ha : .take k a ∈ cs)
    (hput : .put k a ∉ cs) : slots' k ≠ some a := by
  intro hslot
  have hcount := count_put_eq slots slots' cs h k a
  have htake := List.count_pos_iff.mpr ha
  rw [if_pos hslot, List.count_eq_zero.mpr hput] at hcount
  split at hcount <;> omega

end SlotChange

namespace Machine

variable {State Label Event κ α : Type} [DecidableEq κ] [DecidableEq α]
  (m : Machine State Label Event)

/-- A machine whose every step replays is, over a run, the replay of its trace. -/
theorem replay_trace (slots : State → κ → Option α)
    (changes : Event → List (SlotChange κ α))
    (h : ∀ s l, SlotChange.replay (slots s) ((m.emits s l).flatMap changes) =
      some (slots (m.next s l)))
    (s : State) (ls : List Label) :
    SlotChange.replay (slots s) ((m.trace s ls).flatMap changes) =
      some (slots (m.final s ls)) := by
  induction ls using List.reverseRecOn with
  | nil => rfl
  | append_singleton ls l ih =>
    rw [trace_concat, List.flatMap_append, SlotChange.replay_append, ih, Option.bind_some,
      final_concat]
    exact h _ l

end Machine

end TradingEdge.Library
