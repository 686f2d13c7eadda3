import TradingEdge.Library.Machine

/-!
# Simulation by a function

A machine is simulated by another one through a view of its states and a reading of its labels:
from a state of the run the other machine takes the step that the label reads as, emits the same
and arrives at the view of the next state.  The runs then emit the same events in the same order.
-/

set_option autoImplicit false

namespace TradingEdge.Library

variable {State Label Event State' Label' : Type}

/-- `m'` does through `view` and `reading` what `m` does, at the steps that meet `C`; the states
of such a run satisfy `Inv`, and the labels read as labels that meet `C'`. -/
structure Simulates (m : Machine State Label Event) (m' : Machine State' Label' Event)
    (view : State → State') (reading : Label → Label') (Inv : State → Prop)
    (C : State → Label → Prop) (C' : State' → Label' → Prop) : Prop where
  keeps : ∀ s l, Inv s → C s l → Inv (m.next s l)
  meets : ∀ s l, Inv s → C s l → C' (view s) (reading l)
  next : ∀ s l, Inv s → C s l → m'.next (view s) (reading l) = view (m.next s l)
  emits : ∀ s l, Inv s → C s l → m'.emits (view s) (reading l) = m.emits s l

namespace Simulates

variable {m : Machine State Label Event} {m' : Machine State' Label' Event}
  {view : State → State'} {reading : Label → Label'} {Inv : State → Prop}
  {C : State → Label → Prop} {C' : State' → Label' → Prop}

/-- The invariant holds after every run. -/
theorem inv_final (h : Simulates m m' view reading Inv C C') (s : State) (hs : Inv s)
    (ls : List Label) (hls : m.Along C s ls) : Inv (m.final s ls) := by
  induction ls generalizing s with
  | nil => exact hs
  | cons l ls ih =>
    obtain ⟨hl, hrest⟩ := (m.along_cons_iff C s l ls).mp hls
    exact ih _ (h.keeps s l hs hl) hrest

/-- The simulating run ends in the view of the state that the run ends in. -/
theorem final_map (h : Simulates m m' view reading Inv C C') (s : State) (hs : Inv s)
    (ls : List Label) (hls : m.Along C s ls) :
    m'.final (view s) (ls.map reading) = view (m.final s ls) := by
  induction ls generalizing s with
  | nil => rfl
  | cons l ls ih =>
    obtain ⟨hl, hrest⟩ := (m.along_cons_iff C s l ls).mp hls
    rw [List.map_cons, Machine.final_cons, Machine.final_cons, h.next s l hs hl]
    exact ih _ (h.keeps s l hs hl) hrest

/-- The simulating run emits what the run emits. -/
theorem trace_map (h : Simulates m m' view reading Inv C C') (s : State) (hs : Inv s)
    (ls : List Label) (hls : m.Along C s ls) :
    m'.trace (view s) (ls.map reading) = m.trace s ls := by
  induction ls generalizing s with
  | nil => rfl
  | cons l ls ih =>
    obtain ⟨hl, hrest⟩ := (m.along_cons_iff C s l ls).mp hls
    rw [List.map_cons, Machine.trace_cons, Machine.trace_cons, h.next s l hs hl,
      h.emits s l hs hl]
    exact congrArg _ (ih _ (h.keeps s l hs hl) hrest)

/-- The labels of the simulating run meet its condition. -/
theorem along_map (h : Simulates m m' view reading Inv C C') (s : State) (hs : Inv s)
    (ls : List Label) (hls : m.Along C s ls) :
    m'.Along C' (view s) (ls.map reading) := by
  induction ls generalizing s with
  | nil => exact Obeys.nil
  | cons l ls ih =>
    obtain ⟨hl, hrest⟩ := (m.along_cons_iff C s l ls).mp hls
    rw [List.map_cons, Machine.along_cons_iff, h.next s l hs hl]
    exact ⟨h.meets s l hs hl, ih _ (h.keeps s l hs hl) hrest⟩

end Simulates

end TradingEdge.Library
